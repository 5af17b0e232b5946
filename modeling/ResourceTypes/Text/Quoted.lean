import ResourceTypes.Text.Printable

/-!
Texts between double quotes. A quote, a backslash and the common controls are
written after a backslash, and hidden characters by their number in braces.
-/

namespace ResourceTypes.Text

/-- A character by its number, such as the one numbered 27 by `1b` in braces. -/
def numbered (c : Char) : List Char :=
  ['\\', 'u', '\x7b'] ++ Nat.toDigits 16 c.toNat ++ ['\x7d']

/-- How a character is written between quotes, given which ones are hidden. -/
def quoteChar (hidden : Char → Bool) (c : Char) : List Char :=
  if c = '"' then ['\\', '"']
  else if c = '\\' then ['\\', '\\']
  else if c = '\n' then ['\\', 'n']
  else if c = '\t' then ['\\', 't']
  else if c = '\r' then ['\\', 'r']
  else if c = '\x00' then ['\\', '0']
  else if hidden c then numbered c
  else [c]

def quote (hidden : Char → Bool) (s : String) : String :=
  String.ofList ('"' :: s.toList.flatMap (quoteChar hidden) ++ ['"'])

end ResourceTypes.Text
