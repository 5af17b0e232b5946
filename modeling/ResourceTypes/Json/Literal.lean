import ResourceTypes.Decimal.Scaled
import ResourceTypes.Json
import ResourceTypes.Text.Digits

/-!
JSON texts as they are written, before they become values: members may be
repeated, and a number or string that no value can hold is kept as a scalar
without a value, so that it may be skipped but not read.
-/

namespace ResourceTypes.Json

inductive Literal where
  | scalar (value? : Option Json)
  | array (items : List Literal)
  | object (members : List (Option String × Literal))
deriving Inhabited

namespace Literal

open Decimal (digitsValue readDigits readExponent scaled?)

mutual

/-- How many arrays and objects are open at the deepest place. -/
def depth : Literal → Nat
  | .scalar _ => 0
  | .array items => depthItems items + 1
  | .object members => depthMembers members + 1

def depthItems : List Literal → Nat
  | [] => 0
  | item :: rest => max item.depth (depthItems rest)

def depthMembers : List (Option String × Literal) → Nat
  | [] => 0
  | (_, value) :: rest => max value.depth (depthMembers rest)

end

mutual

/-- The value of a text; a member written again takes its last value. -/
def toJson? : Literal → Option Json
  | .scalar value? => value?
  | .array items => (itemsToJson? items).map .array
  | .object members => (membersToJson? members).map Json.ofPairs

def itemsToJson? : List Literal → Option (List Json)
  | [] => some []
  | item :: rest => do return (← item.toJson?) :: (← itemsToJson? rest)

def membersToJson? : List (Option String × Literal) → Option (List (String × Json))
  | [] => some []
  | (name?, value) :: rest => do
    return (← name?, ← value.toJson?) :: (← membersToJson? rest)

end

def skipBlanks : List Char → List Char :=
  List.dropWhile fun c => c = ' ' || c = '\t' || c = '\n' || c = '\r'

/-- The part of a string that has been read, the last character first. -/
structure Partial where
  chars : List Char
  /-- The first half of a surrogate pair whose second half must follow. -/
  half? : Option Nat
  /-- Whether each surrogate so far was half of a pair. -/
  readable : Bool

namespace Partial

def empty : Partial := ⟨[], none, true⟩

/-- Whether what has been read is a string as far as it goes. -/
def isWhole (p : Partial) : Bool :=
  match p.half? with
  | none => p.readable
  | some _ => false

def push (p : Partial) (c : Char) : Partial := ⟨c :: p.chars, none, p.isWhole⟩

/-- Adds one unit of sixteen bits; the two halves of a pair make a character. -/
def pushUnit (p : Partial) (unit : Nat) : Partial :=
  let isFirst := 0xD800 ≤ unit && unit < 0xDC00
  let isSecond := 0xDC00 ≤ unit && unit < 0xE000
  match p.half? with
  | some first =>
    if isSecond then
      ⟨Char.ofNat (0x10000 + (first - 0xD800) * 0x400 + (unit - 0xDC00)) :: p.chars, none,
        p.readable⟩
    else ⟨p.chars, none, false⟩
  | none =>
    if isFirst then ⟨p.chars, some unit, p.readable⟩
    else if isSecond then ⟨p.chars, none, false⟩
    else p.push (Char.ofNat unit)

def string? (p : Partial) : Option String :=
  if p.isWhole then some (String.ofList p.chars.reverse) else none

end Partial

/-- The character that a letter after a backslash stands for. -/
def escaped? (c : Char) : Option Char :=
  match c with
  | '"' | '\\' | '/' => some c
  | 'b' => some (Char.ofNat 8)
  | 'f' => some (Char.ofNat 12)
  | 'n' => some '\n'
  | 'r' => some '\r'
  | 't' => some '\t'
  | _ => none

def readString : Partial → List Char → Option (Option String × List Char)
  | p, '"' :: rest => some (p.string?, rest)
  | p, '\\' :: 'u' :: a :: b :: c :: d :: rest => do
    readString (p.pushUnit (← Text.number? 16 [a, b, c, d])) rest
  | p, '\\' :: c :: rest => do readString (p.push (← escaped? c)) rest
  | p, c :: rest => if c.toNat < 32 then none else readString (p.push c) rest
  | _, [] => none

def readFraction : List Char → Option (List Char × List Char)
  | '.' :: rest => readDigits rest
  | rest => some ([], rest)

/--
The value of a number without point and exponent: whole if 64 bits hold it.
A negative zero keeps its sign only as a binary64 number.
-/
def wholeNumber? (negative : Bool) (digits : List Char) : Option Json :=
  let size := digitsValue digits
  let n : Int := if negative then -size else size
  if FitsInt n ∧ ¬(negative ∧ size = 0) then some (.int n)
  else (scaled? negative digits [] 0).map .float

/-- Reads a number after its sign; no zero stands in front of other digits. -/
def readNumber (negative : Bool) (input : List Char) : Option (Option Json × List Char) := do
  let (whole, rest) ← readDigits input
  if whole.head? = some '0' ∧ 1 < whole.length then none
  let (fraction, rest) ← readFraction rest
  let (exponent?, rest) ← readExponent rest
  if fraction.isEmpty ∧ exponent?.isNone then
    return (wholeNumber? negative whole, rest)
  else return ((scaled? negative whole fraction (exponent?.getD 0)).map .float, rest)

/-- Reads a value that holds no other. -/
def readScalar : List Char → Option (Option Json × List Char)
  | 'n' :: 'u' :: 'l' :: 'l' :: rest => some (some .null, rest)
  | 't' :: 'r' :: 'u' :: 'e' :: rest => some (some (.bool true), rest)
  | 'f' :: 'a' :: 'l' :: 's' :: 'e' :: rest => some (some (.bool false), rest)
  | '"' :: rest => (readString .empty rest).map fun (s?, rest) => (s?.map .string, rest)
  | '-' :: rest => readNumber true rest
  | rest => readNumber false rest

/-- Reads a member's name, which is a string, and the colon behind it. -/
def readName : List Char → Option (Option String × List Char)
  | '"' :: rest => do
    let (name?, rest) ← readString .empty rest
    match skipBlanks rest with
    | ':' :: rest => some (name?, rest)
    | _ => none
  | _ => none

mutual

/-- Reads a value; every second step down has read a character. -/
def readValue : Nat → List Char → Option (Literal × List Char)
  | 0, _ => none
  | fuel + 1, input =>
    match skipBlanks input with
    | '[' :: rest =>
      match skipBlanks rest with
      | ']' :: rest => some (.array [], rest)
      | rest => (readItems fuel rest).map fun (items, rest) => (.array items, rest)
    | '\x7b' :: rest =>
      match skipBlanks rest with
      | '\x7d' :: rest => some (.object [], rest)
      | rest => (readMembers fuel rest).map fun (members, rest) => (.object members, rest)
    | rest => (readScalar rest).map fun (value?, rest) => (.scalar value?, rest)

def readItems : Nat → List Char → Option (List Literal × List Char)
  | 0, _ => none
  | fuel + 1, input => do
    let (item, rest) ← readValue fuel input
    match skipBlanks rest with
    | ']' :: rest => some ([item], rest)
    | ',' :: rest =>
      let (items, rest) ← readItems fuel rest
      some (item :: items, rest)
    | _ => none

def readMembers : Nat → List Char → Option (List (Option String × Literal) × List Char)
  | 0, _ => none
  | fuel + 1, input => do
    let (name?, rest) ← readName (skipBlanks input)
    let (value, rest) ← readValue fuel rest
    match skipBlanks rest with
    | '\x7d' :: rest => some ([(name?, value)], rest)
    | ',' :: rest =>
      let (members, rest) ← readMembers fuel rest
      some ((name?, value) :: members, rest)
    | _ => none

end

def ofText? (text : String) : Option Literal := do
  let input := text.toList
  let (literal, rest) ← readValue (2 * input.length + 2) input
  if (skipBlanks rest).isEmpty then some literal else none

end Literal

def ofText? (text : String) : Option Json := (Literal.ofText? text).bind Literal.toJson?

end ResourceTypes.Json
