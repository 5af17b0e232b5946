import ResourceTypes.Text.Digits
import ResourceTypes.Yaml.Cursor
import ResourceTypes.Yaml.Token

/-!
Tags, which say what a node is. A tag is written in full, or as a handle and
a suffix; a handle stands for the octets that the suffix is appended to.
-/

namespace ResourceTypes.Yaml.Tag

def octets (text : String) : Octets := text.toUTF8.toList

def common (name : String) : Octets := octets ("tag:yaml.org,2002:" ++ name)

/-- Whether a tag belongs to its document alone. -/
def isLocal (tag : Octets) : Bool :=
  tag.head? = some 33 && (String.fromUTF8? ⟨tag.toArray⟩).isSome

/-- The octets that handles stand for unless a document says otherwise. -/
def standardHandles : List (String × Octets) := [("!", octets "!"), ("!!", common "")]

/-- The characters of a tag; the marks of flow sequences only where it is written in full. -/
def isTagChar (full : Bool) (c : Char) : Bool :=
  isWordChar c || ";/?:@&=+$.!~*'()".toList.contains c || (full && (c = ',' || c = '[' || c = ']'))

/-- How many octets an encoded character has, by the first of them. -/
def encodedLength? (octet : Nat) : Option Nat :=
  if octet < 0x80 then some 1
  else if octet < 0xC0 then none
  else if octet < 0xE0 then some 2
  else if octet < 0xF0 then some 3
  else if octet < 0xF8 then some 4
  else none

/-- How many octets of a character are still due behind an octet. -/
def dueBehind? (due octet : Nat) : Option Nat :=
  if due = 0 then (encodedLength? octet).map (· - 1)
  else if 0x80 ≤ octet ∧ octet < 0xC0 then some (due - 1)
  else none

/-- Reads octets as far as they go, some of which must follow as escapes. -/
def readOctets (full : Bool) : Nat → List Char → Option (Octets × List Char)
  | due, '%' :: a :: b :: rest => do
    let octet ← Text.number? 16 [a, b]
    let (octets, rest) ← readOctets full (← dueBehind? due octet) rest
    return (.ofNat octet :: octets, rest)
  | 0, c :: rest =>
    if c = '%' then none
    else if isTagChar full c then
      (readOctets full 0 rest).map fun (octets, rest) => (.ofNat c.toNat :: octets, rest)
    else some ([], c :: rest)
  | 0, [] => some ([], [])
  | _, _ => none

/-- Reads some octets, at least one; a tag ends in front of its first zero octet. -/
def readSuffix (full : Bool) (input : List Char) : Option (Octets × List Char) := do
  let (octets, rest) ← readOctets full 0 input
  if octets.isEmpty then none else some (octets.takeWhile (· ≠ 0), rest)

/-- Splits off a handle: a mark, a word and a mark, the last of which may be absent. -/
def splitHandle (input : List Char) : String × List Char :=
  let word := input.tail.takeWhile isWordChar
  match input.tail.dropWhile isWordChar with
  | '!' :: rest => (String.ofList ('!' :: word ++ ['!']), rest)
  | rest => (String.ofList ('!' :: word), rest)

/-- The token of a tag with the primary handle; the mark alone is a tag in full. -/
def primary (suffix : Octets) : Token :=
  if suffix.isEmpty then .tag none (octets "!") else .tag (some "!") suffix

def readTag (input : List Char) : Option (Token × List Char) :=
  match input with
  | '!' :: '<' :: rest => do
    let (suffix, rest) ← readSuffix true rest
    match rest with
    | '>' :: rest => some (.tag none suffix, rest)
    | _ => none
  | _ =>
    let (handle, rest) := splitHandle input
    if handle.length > 1 ∧ handle.toList.getLast? = some '!' then do
      let (suffix, rest) ← readSuffix false rest
      some (.tag (some handle) suffix, rest)
    else do
      let (suffix, rest) ← readOctets false 0 input.tail
      some (primary (suffix.takeWhile (· ≠ 0)), rest)

end ResourceTypes.Yaml.Tag
