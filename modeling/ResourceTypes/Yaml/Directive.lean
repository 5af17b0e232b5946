import ResourceTypes.Decimal.Notation
import ResourceTypes.Yaml.Block
import ResourceTypes.Yaml.Tag

/-!
Directives, which stand on lines of their own in front of a document: the
version of the language, and what a tag handle stands for.
-/

namespace ResourceTypes.Yaml.Directive

def readNumber (input : List Char) : Option (Nat × List Char) := do
  let (digits, rest) ← Decimal.readDigits input
  if digits.length ≤ 9 then some (Decimal.digitsValue digits, rest) else none

def readVersion (input : List Char) : Option (Token × List Char) := do
  let (major, rest) ← readNumber (input.dropWhile isBlank)
  match rest with
  | '.' :: rest =>
    let (minor, rest) ← readNumber rest
    some (.version major minor, rest)
  | _ => none

/-- Reads a handle, which ends in a mark, and the octets that it stands for. -/
def readHandle (input : List Char) : Option (Token × List Char) :=
  let input := input.dropWhile isBlank
  let (handle, rest) := Tag.splitHandle input
  if input.head? = some '!' ∧ handle.toList.getLast? = some '!' ∧ rest.head?.any isBlank then do
    let (octets, rest) ← Tag.readSuffix true (rest.dropWhile isBlank)
    if endsWord rest then some (.handle handle octets, rest) else none
  else none

/-- Reads a directive from behind its mark to the end of its line. -/
def read (input : List Char) : Option (Token × List Char) := do
  let name := input.takeWhile isWordChar
  let rest := input.dropWhile isWordChar
  if !endsWord rest then none
  let (token, rest) ← match String.ofList name with
    | "YAML" => readVersion rest
    | "TAG" => readHandle rest
    | _ => none
  match Block.dropComment rest with
  | [] => some (token, [])
  | c :: rest => if isBreak c then some (token, c :: rest) else none

end ResourceTypes.Yaml.Directive
