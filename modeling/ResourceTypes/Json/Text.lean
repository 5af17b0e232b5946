import ResourceTypes.Json
import ResourceTypes.Json.Number

/-!
The text of a JSON value: on one line without blanks, or indented by two
blanks a level.
-/

namespace ResourceTypes.Json

/-- Four hexadecimal digits in lower case. -/
def unitText (n : Nat) : String :=
  let digits := Nat.toDigits 16 n
  String.ofList (List.replicate (4 - digits.length) '0' ++ digits)

/-- Only quotes, backslashes and the controls below the blank are escaped. -/
def escapeChar (c : Char) : String :=
  if c = '"' then "\\\""
  else if c = '\\' then "\\\\"
  else if c = '\n' then "\\n"
  else if c = '\r' then "\\r"
  else if c = '\t' then "\\t"
  else if c.toNat = 8 then "\\b"
  else if c.toNat = 12 then "\\f"
  else if c.toNat < 32 then "\\u" ++ unitText c.toNat
  else c.toString

def stringText (s : String) : String :=
  s.toList.foldl (fun text c => text ++ escapeChar c) "\"" ++ "\""

mutual

/-- The text on one line, without blanks. -/
def text : Json → String
  | .null => "null"
  | .bool value => if value then "true" else "false"
  | .int value => toString value
  | .float value => Number.text value
  | .string value => stringText value
  | .array items => "[" ++ ",".intercalate (itemTexts items) ++ "]"
  | .object members => "\x7b" ++ ",".intercalate (memberTexts members) ++ "\x7d"

def itemTexts : List Json → List String
  | [] => []
  | item :: rest => item.text :: itemTexts rest

def memberTexts : List (String × Json) → List String
  | [] => []
  | (name, value) :: rest => (stringText name ++ ":" ++ value.text) :: memberTexts rest

end

/-- Lines between brackets, each one level deeper than the brackets. -/
def block (opening closing : String) (level : Nat) (lines : List String) : String :=
  if lines.isEmpty then opening ++ closing
  else
    let margin := "\n" ++ String.ofList (List.replicate (2 * level) ' ')
    opening ++ margin ++ "  " ++ ("," ++ margin ++ "  ").intercalate lines ++ margin ++ closing

mutual

/-- The text over several lines, the first of which stands at a given level. -/
def indented (level : Nat) : Json → String
  | .array items => block "[" "]" level (itemLines (level + 1) items)
  | .object members => block "\x7b" "\x7d" level (memberLines (level + 1) members)
  | scalar => scalar.text

def itemLines (level : Nat) : List Json → List String
  | [] => []
  | item :: rest => item.indented level :: itemLines level rest

def memberLines (level : Nat) : List (String × Json) → List String
  | [] => []
  | (name, value) :: rest =>
    (stringText name ++ ": " ++ value.indented level) :: memberLines level rest

end

def prettyText (value : Json) : String := value.indented 0

end ResourceTypes.Json
