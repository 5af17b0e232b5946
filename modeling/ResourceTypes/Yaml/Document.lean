import ResourceTypes.Members
import ResourceTypes.Yaml.Node
import ResourceTypes.Yaml.Tokens

/-!
The document that tokens make up. Where a node may be missing, an empty
scalar takes its place; a text holds at most one document.
-/

namespace ResourceTypes.Yaml

/-- The tokens still to come, and the numbers of the anchors so far. -/
structure Supply where
  tokens : List Token
  anchors : Members Nat

abbrev NodeReader := StateT Supply Option

namespace NodeReader

def peek? : NodeReader (Option Token) := do return (← get).tokens.head?

def skip : NodeReader Unit := modify fun s => { s with tokens := s.tokens.tail }

def skipIf (token : Token) : NodeReader Bool := do
  if (← peek?) = some token then
    skip
    return true
  else return false

def expect (token : Token) : NodeReader Unit := do
  unless ← skipIf token do failure

def comes (tokens : List Token) : NodeReader Bool := do
  return (← peek?).all tokens.contains

/--
The number of a new anchor: as many as there are names so far, so that a name
that comes again may share its number with the name after it.
-/
def number (name : String) : NodeReader Nat := do
  let s ← get
  let n := s.anchors.length
  set { s with anchors := s.anchors.insert name n }
  return n

def anchorName? : NodeReader (Option String) := do
  match ← peek? with
  | some (.anchor name) =>
    skip
    return some name
  | _ => return none

/-- The octets of a tag, with those of its handle in front. -/
def tag? (handles : Members Octets) : NodeReader (Option Octets) := do
  match ← peek? with
  | some (.tag none suffix) =>
    skip
    return some suffix
  | some (.tag (some handle) suffix) =>
    skip
    return some ((← handles.get? handle) ++ suffix)
  | _ => return none

/-- The anchor and the tag of a node, which stand in either order. -/
def properties (handles : Members Octets) : NodeReader (Option String × Option Octets) := do
  match ← anchorName? with
  | some name => return (some name, ← tag? handles)
  | none =>
    let tag? ← tag? handles
    return (← if tag?.isSome then anchorName? else pure none, tag?)

/-- Where a node stands: in a block or not, and whether entries need no block of their own. -/
structure Site where
  inBlock : Bool
  bareEntries : Bool

def inFlow : Site := ⟨false, false⟩
def inEntry : Site := ⟨true, false⟩
def inMember : Site := ⟨true, true⟩

mutual

/-- Reads a node; the count bounds how many readers are nested. -/
def node (handles : Members Octets) (site : Site) : Nat → NodeReader Node
  | 0 => failure
  | count + 1 => do
    if let some (.alias name) ← peek? then
      skip
      return .alias (← (← get).anchors.get? name)
    let (name?, tag?) ← properties handles
    let anchor? ← name?.mapM number
    match ← peek? with
    | some (.scalar style text) =>
      skip
      return .scalar anchor? ⟨tag?, style, text⟩
    | some .flowSequence =>
      skip
      return .sequence anchor? tag? (← flowItems handles true count)
    | some .flowMapping =>
      skip
      return .mapping anchor? tag? (← flowMembers handles true count)
    | token? =>
      if token? = some .entry ∧ site.bareEntries then
        return .sequence anchor? tag? (← bareItems handles count)
      else if token? = some .blockSequence ∧ site.inBlock then
        skip
        return .sequence anchor? tag? (← blockItems handles count)
      else if token? = some .blockMapping ∧ site.inBlock then
        skip
        return .mapping anchor? tag? (← blockMembers handles count)
      else if name?.isSome || tag?.isSome then
        return .scalar anchor? ⟨tag?, .plain, ""⟩
      else failure

def nodeUnless (handles : Members Octets) (site : Site) (ends : List Token) :
    Nat → NodeReader Node
  | 0 => failure
  | count + 1 => do
    if ← comes ends then return .empty
    else node handles site count

def blockItems (handles : Members Octets) : Nat → NodeReader (List Node)
  | 0 => failure
  | count + 1 => do
    if ← skipIf .entry then
      let item ← nodeUnless handles inEntry [.entry, .blockEnd] count
      return item :: (← blockItems handles count)
    else
      expect .blockEnd
      return []

/-- Reads the entries that stand in the block of the mapping around them. -/
def bareItems (handles : Members Octets) : Nat → NodeReader (List Node)
  | 0 => failure
  | count + 1 => do
    if ← skipIf .entry then
      let item ← nodeUnless handles inEntry [.entry, .key, .value, .blockEnd] count
      return item :: (← bareItems handles count)
    else return []

def blockMembers (handles : Members Octets) : Nat → NodeReader (List (Node × Node))
  | 0 => failure
  | count + 1 => do
    if ← skipIf .key then
      let key ← nodeUnless handles inMember [.key, .value, .blockEnd] count
      let value ←
        if ← skipIf .value then nodeUnless handles inMember [.key, .value, .blockEnd] count
        else pure .empty
      return (key, value) :: (← blockMembers handles count)
    else
      expect .blockEnd
      return []

def flowItems (handles : Members Octets) (isFirst : Bool) : Nat → NodeReader (List Node)
  | 0 => failure
  | count + 1 => do
    if ← skipIf .flowSequenceEnd then return []
    unless isFirst do expect .comma
    if ← skipIf .key then
      let pair ← flowPair handles count
      return .mapping none none [pair] :: (← flowItems handles false count)
    else if ← skipIf .flowSequenceEnd then return []
    else
      let item ← node handles inFlow count
      return item :: (← flowItems handles false count)

/--
Reads the single member of a mapping that is an item without braces. Where
its key is missing, the token in its place is taken for it.
-/
def flowPair (handles : Members Octets) : Nat → NodeReader (Node × Node)
  | 0 => failure
  | count + 1 => do
    let ends := [Token.comma, .flowSequenceEnd]
    let key ←
      if ← comes (.value :: ends) then do
        skip
        pure .empty
      else node handles inFlow count
    let value ←
      if ← skipIf .value then nodeUnless handles inFlow ends count
      else pure .empty
    return (key, value)

def flowMembers (handles : Members Octets) (isFirst : Bool) :
    Nat → NodeReader (List (Node × Node))
  | 0 => failure
  | count + 1 => do
    if ← skipIf .flowMappingEnd then return []
    unless isFirst do expect .comma
    let ends := [Token.comma, .flowMappingEnd]
    if ← skipIf .key then
      let key ← nodeUnless handles inFlow (.value :: ends) count
      let value ←
        if ← skipIf .value then nodeUnless handles inFlow ends count
        else pure .empty
      return (key, value) :: (← flowMembers handles false count)
    else if ← skipIf .flowMappingEnd then return []
    else
      let key ← node handles inFlow count
      return (key, .empty) :: (← flowMembers handles false count)

end

/-- Reads directives; each handle, and the version, is declared once. -/
def directives (hasVersion : Bool) (handles : Members Octets) :
    List Token → Option (Bool × Members Octets × List Token)
  | .version major minor :: rest =>
    if hasVersion || major ≠ 1 || !(minor = 1 || minor = 2) then none
    else directives true handles rest
  | .handle name octets :: rest =>
    if (handles.get? name).isSome then none
    else directives hasVersion (handles ++ [(name, octets)]) rest
  | rest => some (hasVersion, handles, rest)

/-- Reads a document: after directives its start is marked. -/
def document : NodeReader Node := do
  let (hasVersion, handles, rest) ← directives false [] (← get).tokens
  modify fun s => { s with tokens := rest }
  let isMarked ← skipIf .documentStart
  if !isMarked && (hasVersion || !handles.isEmpty) then failure
  let handles := handles ++ Tag.standardHandles
  -- from one token to the next, at most three readers call each other
  let count := 3 * rest.length + 3
  if isMarked then
    nodeUnless handles inEntry [.documentEnd] count
  else node handles inEntry count

/-- Reads the only document of a text; an empty text is an empty scalar. -/
def all : NodeReader Node := do
  if (← get).tokens.isEmpty then return .empty
  let root ← document
  modify fun s => { s with tokens := s.tokens.dropWhile (· = .documentEnd) }
  if (← get).tokens.isEmpty then return root else failure

end NodeReader

def Document.ofText? (text : String) : Option Document := do
  let tokens ← Token.ofText? text
  let (root, _) ← NodeReader.all ⟨tokens, []⟩
  return .ofRoot root

end ResourceTypes.Yaml
