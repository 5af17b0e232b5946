import ResourceTypes.Yaml.Cursor
import ResourceTypes.Yaml.Token

/-!
Block scalars: indented lines below a header. Literal ones keep their line
breaks; folded ones join a line to the next, unless one of them begins with a
blank or there are empty lines between them.
-/

namespace ResourceTypes.Yaml.Block

inductive Chomping where
  | strip | clip | keep
deriving DecidableEq, Repr

structure Header where
  chomping : Chomping
  /-- How much deeper than its parent the scalar is indented, if that is written. -/
  increment? : Option Nat

def chomping? (c : Char) : Option Chomping :=
  match c with
  | '-' => some .strip
  | '+' => some .keep
  | _ => none

def readIncrement : List Char → Option (Option Nat × List Char)
  | c :: rest =>
    if !c.isDigit then some (none, c :: rest)
    else if c = '0' then none
    else some (some (c.toNat - '0'.toNat), rest)
  | [] => some (none, [])

def readChomping : List Char → Chomping × List Char
  | c :: rest =>
    match chomping? c with
    | some chomping => (chomping, rest)
    | none => (.clip, c :: rest)
  | [] => (.clip, [])

/-- Reads the two indicators of a header, which stand in either order. -/
def readIndicators (input : List Char) : Option (Header × List Char) := do
  match input.head?.bind chomping? with
  | some chomping =>
    let (increment?, rest) ← readIncrement (input.drop 1)
    return (⟨chomping, increment?⟩, rest)
  | none =>
    let (increment?, rest) ← readIncrement input
    let (chomping, rest) := if increment?.isSome then readChomping rest else (.clip, rest)
    return (⟨chomping, increment?⟩, rest)

def dropComment (input : List Char) : List Char :=
  match input.dropWhile isBlank with
  | '#' :: rest => rest.dropWhile fun c => !isBreak c
  | rest => rest

/-- The lines of a scalar that have been read, each part with the last character first. -/
structure Lines where
  folded : Bool
  /-- The column of the scalar's lines, once it is known. -/
  indent? : Option Nat
  /-- The least column that the lines may have. -/
  margin : Nat
  /-- The farthest column that a leading empty line has reached. -/
  widest : Nat
  text : List Char
  /-- The break that ends the last line. -/
  lineEnd : List Char
  /-- The breaks of the empty lines behind it. -/
  breaks : List Char
  /-- Whether the last line begins with a blank. -/
  indented : Bool

namespace Lines

/-- The column of the scalar's lines; by default that of the widest leading line. -/
def indent (lines : Lines) (column : Nat) : Nat :=
  lines.indent?.getD (max (max lines.widest column) (max lines.margin 1))

def isIndentation (lines : Lines) (column : Nat) : Bool :=
  lines.indent?.all (column < ·)

def addEmpty (lines : Lines) (c : Char) (column : Nat) : Lines :=
  { lines with breaks := c :: lines.breaks, widest := max lines.widest column }

/-- What stands between the last line and a new one. -/
def joint (lines : Lines) (indented : Bool) : List Char :=
  if lines.folded && lines.lineEnd = ['\n'] && !lines.indented && !indented then
    if lines.breaks.isEmpty then [' '] else lines.breaks
  else lines.breaks ++ lines.lineEnd

def begin (lines : Lines) (c : Char) (column : Nat) : Lines :=
  { lines with
    indent? := some (lines.indent column)
    text := c :: (lines.joint (isBlank c) ++ lines.text)
    lineEnd := []
    breaks := []
    indented := isBlank c }

def finish (lines : Lines) (chomping : Chomping) : String :=
  String.ofList <| List.reverse <| match chomping with
    | .strip => lines.text
    | .clip => lines.lineEnd ++ lines.text
    | .keep => lines.breaks ++ lines.lineEnd ++ lines.text

mutual

def readIndentation (lines : Lines) : List Char → Place → Option (Lines × Cursor)
  | [], place => some (lines, ⟨[], place⟩)
  | c :: rest, place =>
    if c = ' ' ∧ lines.isIndentation place.column then
      readIndentation lines rest (place.after c)
    else if c = '\t' ∧ lines.isIndentation place.column then none
    else if isBreak c then
      readIndentation (lines.addEmpty c place.column) rest (place.after c)
    else if place.column = lines.indent place.column then
      readLine (lines.begin c place.column) rest (place.after c)
    else some (lines, ⟨c :: rest, place⟩)

def readLine (lines : Lines) : List Char → Place → Option (Lines × Cursor)
  | [], place => some (lines, ⟨[], place⟩)
  | c :: rest, place =>
    if isBreak c then readIndentation { lines with lineEnd := [c] } rest (place.after c)
    else readLine { lines with text := c :: lines.text } rest (place.after c)

end

end Lines

/--
Reads a block scalar behind its indicator; `parent?` is the column of the
enclosing block.
-/
def read (folded : Bool) (parent? : Option Nat) (cursor : Cursor) : Option (String × Cursor) := do
  let (header, rest) ← readIndicators cursor.rest
  let (rest, place) ← match dropComment rest with
    | [] => some ([], cursor.place)
    | c :: rest => if isBreak c then some (rest, cursor.place.after c) else none
  let indent? := header.increment?.map (parent?.getD 0 + ·)
  let margin := parent?.elim 0 (· + 1)
  let (lines, cursor) ← Lines.readIndentation
    ⟨folded, indent?, margin, 0, [], [], [], false⟩ rest place
  return (lines.finish header.chomping, cursor)

end ResourceTypes.Yaml.Block
