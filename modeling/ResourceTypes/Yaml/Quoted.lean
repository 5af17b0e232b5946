import ResourceTypes.Text.Digits
import ResourceTypes.Yaml.Gap

/-!
Scalars between quotes. Between single quotes only a quote is escaped, by
being written twice; between double quotes a backslash begins an escape.
-/

namespace ResourceTypes.Yaml.Quoted

def escaped? (c : Char) : Option Char :=
  match c with
  | '0' => some '\x00'
  | 'a' => some '\x07'
  | 'b' => some '\x08'
  | 't' | '\t' => some '\t'
  | 'n' => some '\n'
  | 'v' => some '\x0b'
  | 'f' => some '\x0c'
  | 'r' => some '\r'
  | 'e' => some '\x1b'
  | ' ' | '"' | '/' | '\\' => some c
  | 'N' => some '\u0085'
  | '_' => some '\u00a0'
  | 'L' => some '\u2028'
  | 'P' => some '\u2029'
  | _ => none

/-- How many hexadecimal digits follow the letter of a numbered escape. -/
def numberLength? (c : Char) : Option Nat :=
  match c with
  | 'x' => some 2
  | 'u' => some 4
  | 'U' => some 8
  | _ => none

/-- The character of a number; half a surrogate pair is none. -/
def numbered? (digits : List Char) : Option Char := do
  let n ← Text.number? 16 digits
  if n.isValidChar then some (Char.ofNat n) else none

/-- Where the reader of a scalar is; parts so far have the last character first. -/
inductive Position where
  /-- Between characters, behind some text and a gap. -/
  | text (text : List Char) (gap : Gap)
  | escape (text : List Char)
  /-- In the digits of a numbered escape, of which some are still due. -/
  | number (text digits : List Char) (due : Nat)
  /-- Behind a single quote that ends the scalar unless it is doubled. -/
  | quote (text : List Char)

def read (double : Bool) : Position → List Char → Place → Option (String × Cursor)
  | .text text gap, c :: rest, place =>
    if isSpacing c then read double (.text text (gap.add c)) rest (place.after c)
    -- no scalar runs on behind the end of its document
    else if place.column = 0 && isDocumentMark (c :: rest) then none
    else
      let text := gap.folded ++ text
      if double && c = '"' then some (String.ofList text.reverse, ⟨rest, place.after c⟩)
      else if double && c = '\\' then read double (.escape text) rest (place.after c)
      else if !double && c = '\'' then read double (.quote text) rest (place.after c)
      else read double (.text (c :: text) .empty) rest (place.after c)
  | .escape text, c :: rest, place =>
    if isBreak c then read double (.text text .continuation) rest (place.after c)
    else
      match numberLength? c with
      | some length => read double (.number text [] length) rest (place.after c)
      | none =>
        match escaped? c with
        | some e => read double (.text (e :: text) .empty) rest (place.after c)
        | none => none
  | .number text digits due, c :: rest, place =>
    if 1 < due then read double (.number text (c :: digits) (due - 1)) rest (place.after c)
    else
      match numbered? (c :: digits).reverse with
      | some e => read double (.text (e :: text) .empty) rest (place.after c)
      | none => none
  | .quote text, c :: rest, place =>
    if c = '\'' then read double (.text ('\'' :: text) .empty) rest (place.after c)
    else some (String.ofList text.reverse, ⟨c :: rest, place⟩)
  | .quote text, [], place => some (String.ofList text.reverse, ⟨[], place⟩)
  | _, [], _ => none

end ResourceTypes.Yaml.Quoted
