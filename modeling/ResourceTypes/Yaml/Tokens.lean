import ResourceTypes.Yaml.Block
import ResourceTypes.Yaml.Directive
import ResourceTypes.Yaml.Plain
import ResourceTypes.Yaml.Quoted

/-!
The tokens of a text. A key is known as one only at the colon behind it, so
the reader remembers where a key may have begun, and puts the key's token
there when the colon comes.
-/

namespace ResourceTypes.Yaml

/-- A place where a key may have begun, which ends on the same line. -/
structure PossibleKey where
  /-- How many tokens stand in front of the key. -/
  position : Nat
  place : Place
  /-- Whether nothing but a key may stand there. -/
  required : Bool

/-- The greatest number of octets from the start of a key to its colon. -/
def PossibleKey.maxLength : Nat := 1024

/-- Whether a key that began there cannot end here any more. -/
def PossibleKey.isPast (key : PossibleKey) (place : Place) : Bool :=
  key.place.line < place.line || key.place.octets + maxLength < place.octets

structure TokenReader where
  cursor : Cursor
  /-- The tokens so far, the last one first. -/
  tokens : List Token
  count : Nat
  /-- The columns of the open blocks, the innermost first. -/
  indents : List Nat
  /-- The possible key of the innermost flow collection, or else of the blocks. -/
  key? : Option PossibleKey
  /-- Those of the collections around it. -/
  outerKeys : List (Option PossibleKey)
  keyAllowed : Bool

namespace TokenReader

def start (input : List Char) : TokenReader :=
  ⟨.start input, [], 0, [], none, [], true⟩

def inFlow (r : TokenReader) : Bool := !r.outerKeys.isEmpty

def column (r : TokenReader) : Nat := r.cursor.place.column

/-- The least column of what the innermost block holds. -/
def margin (r : TokenReader) : Nat := r.indents.head?.elim 0 (· + 1)

def emit (r : TokenReader) (token : Token) (cursor : Cursor) : TokenReader :=
  { r with tokens := token :: r.tokens, count := r.count + 1, cursor := cursor }

def emitMark (r : TokenReader) (token : Token) (length : Nat) : TokenReader :=
  r.emit token (r.cursor.skip length)

/-- Puts a token behind the first tokens, as many as the position says. -/
def insert (r : TokenReader) (position : Nat) (token : Token) : TokenReader :=
  { r with tokens := r.tokens.insertIdx (r.count - position) token, count := r.count + 1 }

def allowKey (r : TokenReader) (allowed : Bool) : TokenReader := { r with keyAllowed := allowed }

/-- Gives up a possible key, which no required one may be. -/
def withoutKey (key? : Option PossibleKey) : Option (Option PossibleKey) :=
  if key?.any (·.required) then none else some none

def dropKey (r : TokenReader) : Option TokenReader :=
  (withoutKey r.key?).map fun key? => { r with key? := key? }

def saveKey (r : TokenReader) : Option TokenReader :=
  if r.keyAllowed then
    let required := !r.inFlow && r.indents.head? = some r.column
    r.dropKey.map fun r =>
      { r with key? := some ⟨r.count, r.cursor.place, required⟩ }
  else some r

def dropPastKeys (r : TokenReader) : Option TokenReader := do
  let keep (key? : Option PossibleKey) : Option (Option PossibleKey) :=
    if key?.any (·.isPast r.cursor.place) then withoutKey key? else some key?
  return { r with key? := ← keep r.key?, outerKeys := ← r.outerKeys.mapM keep }

/-- Opens a block in a column, unless one is open there; its token goes to a position. -/
def openBlock (r : TokenReader) (column position : Nat) (token : Token) : TokenReader :=
  if r.inFlow || r.indents.head?.any (column ≤ ·) then r
  else { r.insert position token with indents := column :: r.indents }

def openBlockHere (r : TokenReader) (token : Token) : TokenReader :=
  r.openBlock r.column r.count token

def closeBlocks (r : TokenReader) (isDeeper : Nat → Bool) : TokenReader :=
  if r.inFlow then r
  else
    let closed := r.indents.takeWhile isDeeper
    { r with
      tokens := List.replicate closed.length Token.blockEnd ++ r.tokens
      count := r.count + closed.length
      indents := r.indents.dropWhile isDeeper }

def closeAllBlocks (r : TokenReader) : TokenReader := r.closeBlocks fun _ => true

/--
Skips blanks, comments, line breaks, and a byte order mark in front of a line.
Behind a line break a key may begin, but a tab then does not count as a blank,
except in flow collections.
-/
def skipSpacing (inFlow : Bool) (inComment keyAllowed : Bool) :
    List Char → Place → Bool × Cursor
  | [], place => (keyAllowed, ⟨[], place⟩)
  | c :: rest, place =>
    if isBreak c then
      skipSpacing inFlow false (keyAllowed || !inFlow) rest (place.after c)
    else if inComment || c = ' ' || (c = '\t' && (inFlow || !keyAllowed)) then
      skipSpacing inFlow inComment keyAllowed rest (place.after c)
    else if isByteOrderMark c && place.column = 0 then
      skipSpacing inFlow inComment keyAllowed rest (place.after c)
    else if c = '#' then skipSpacing inFlow true keyAllowed rest (place.after c)
    else (keyAllowed, ⟨c :: rest, place⟩)

/-- Goes to the next token, and closes what cannot reach as far. -/
def advance (r : TokenReader) : Option TokenReader := do
  let (keyAllowed, cursor) :=
    skipSpacing r.inFlow false r.keyAllowed r.cursor.rest r.cursor.place
  let r ← dropPastKeys { r with keyAllowed, cursor }
  return r.closeBlocks (r.column < ·)

/-- Reads what stands between documents, which closes all blocks. -/
def readBoundary (r : TokenReader) (token : Token) (cursor : Cursor) : Option TokenReader := do
  let r ← r.closeAllBlocks.dropKey
  return (r.allowKey false).emit token cursor

def readDirective (r : TokenReader) : Option TokenReader := do
  let (token, rest) ← Directive.read (r.cursor.rest.drop 1)
  r.readBoundary token (r.cursor.leaving rest)

def openFlow (r : TokenReader) (token : Token) : Option TokenReader := do
  let r ← r.saveKey
  return { (r.allowKey true).emitMark token 1 with
    key? := none, outerKeys := r.key? :: r.outerKeys }

/-- Closes a flow collection; without an open one the mark is left to stand there. -/
def closeFlow (r : TokenReader) (token : Token) : Option TokenReader := do
  let r ← r.dropKey
  return { (r.allowKey false).emitMark token 1 with
    key? := r.outerKeys.head?.join, outerKeys := r.outerKeys.tail }

def readComma (r : TokenReader) : Option TokenReader := do
  let r ← r.dropKey
  return (r.allowKey true).emitMark .comma 1

/-- Reads an indicator that may open a block only where a key may begin. -/
def readIndicator (r : TokenReader) (block token : Token) : Option TokenReader := do
  if !r.inFlow && !r.keyAllowed then none
  return (← (r.openBlockHere block).dropKey).emitMark token 1

def readEntry (r : TokenReader) : Option TokenReader :=
  (r.readIndicator .blockSequence .entry).map (·.allowKey true)

def readKey (r : TokenReader) : Option TokenReader :=
  (r.readIndicator .blockMapping .key).map (·.allowKey !r.inFlow)

/-- Reads the colon in front of a value; the key behind it gets its token now. -/
def readValue (r : TokenReader) : Option TokenReader :=
  match r.key? with
  | some key =>
    -- what stood before the colon turns out to be a key, which may open a mapping
    let r := (r.insert key.position .key).openBlock key.place.column key.position .blockMapping
    some ({ r with key? := none, keyAllowed := false }.emitMark .value 1)
  | none => (r.readIndicator .blockMapping .value).map (·.allowKey !r.inFlow)

def readName (r : TokenReader) (token : String → Token) : Option TokenReader := do
  let name := r.cursor.rest.tail.takeWhile isWordChar
  let rest := r.cursor.rest.tail.dropWhile isWordChar
  if name.isEmpty || !(endsWord rest || rest.head?.any "?:,]\x7d%@\x60".toList.contains) then none
  let r ← r.saveKey
  return (r.allowKey false).emit (token (String.ofList name)) (r.cursor.skip (name.length + 1))

def readTag (r : TokenReader) : Option TokenReader := do
  let (token, rest) ← Tag.readTag r.cursor.rest
  if !(endsWord rest || (r.inFlow && rest.head? = some ',')) then none
  let r ← r.saveKey
  return (r.allowKey false).emit token (r.cursor.leaving rest)

def readBlockScalar (r : TokenReader) (folded : Bool) : Option TokenReader := do
  let r ← r.dropKey
  let (text, cursor) ← Block.read folded r.indents.head? (r.cursor.skip 1)
  return (r.allowKey true).emit (.scalar (if folded then .folded else .literal) text) cursor

def readQuoted (r : TokenReader) (double : Bool) : Option TokenReader := do
  let r ← r.saveKey
  let (text, cursor) ←
    Quoted.read double (.text [] .empty) (r.cursor.skip 1).rest (r.cursor.skip 1).place
  return (r.allowKey false).emit (.scalar .quoted text) cursor

def readPlain (r : TokenReader) : Option TokenReader := do
  let r ← r.saveKey
  let scalar ← Plain.read ⟨r.inFlow, r.margin⟩ [] .empty r.cursor.rest r.cursor.place
  return (r.allowKey scalar.newLine).emit (.scalar .plain scalar.text) scalar.cursor

def readToken (r : TokenReader) (c : Char) (rest : List Char) : Option TokenReader :=
  let atLineStart := r.column = 0
  if atLineStart && c = '%' then r.readDirective
  else if atLineStart && isDocumentMark (c :: rest) then
    r.readBoundary (if c = '-' then .documentStart else .documentEnd) (r.cursor.skip 3)
  else
    match c with
    | '[' => r.openFlow .flowSequence
    | '\x7b' => r.openFlow .flowMapping
    | ']' => r.closeFlow .flowSequenceEnd
    | '\x7d' => r.closeFlow .flowMappingEnd
    | ',' => r.readComma
    | '-' => if endsWord rest then r.readEntry else r.readPlain
    | '?' => if r.inFlow || endsWord rest then r.readKey else r.readPlain
    | ':' => if r.inFlow || endsWord rest then r.readValue else r.readPlain
    | '*' => r.readName .alias
    | '&' => r.readName .anchor
    | '!' => r.readTag
    | '|' => if r.inFlow then none else r.readBlockScalar false
    | '>' => if r.inFlow then none else r.readBlockScalar true
    | '\'' => r.readQuoted false
    | '"' => r.readQuoted true
    | '%' | '@' | '\x60' | '\t' => none
    | _ => r.readPlain

def finish (r : TokenReader) : Option TokenReader := r.closeAllBlocks.dropKey

/-- Reads the rest of a text; each token takes at least one character. -/
def readAll : Nat → TokenReader → Option TokenReader
  | 0, _ => none
  | count + 1, r => do
    let r ← r.advance
    match r.cursor.rest with
    | [] => r.finish
    | c :: rest => readAll count (← r.readToken c rest)

end TokenReader

def Token.ofText? (text : String) : Option (List Token) := do
  let input ← characters? text
  let r ← TokenReader.readAll (input.length + 1) (.start input)
  return r.tokens.reverse

end ResourceTypes.Yaml
