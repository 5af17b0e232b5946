/-!
Whole numbers written in a base up to sixteen, with digits of either case
after the nine.
-/

namespace ResourceTypes.Text

/-- What a hexadecimal digit counts. -/
def digit? (c : Char) : Option Nat :=
  if '0' ≤ c ∧ c ≤ '9' then some (c.toNat - '0'.toNat)
  else if 'a' ≤ c ∧ c ≤ 'f' then some (c.toNat - 'a'.toNat + 10)
  else if 'A' ≤ c ∧ c ≤ 'F' then some (c.toNat - 'A'.toNat + 10)
  else none

def appendDigit? (base n : Nat) (c : Char) : Option Nat := do
  let d ← digit? c
  if d < base then some (base * n + d) else none

/-- The number of some digits, of which there is at least one. -/
def number? (base : Nat) (digits : List Char) : Option Nat :=
  if digits.isEmpty then none else digits.foldlM (appendDigit? base) 0

end ResourceTypes.Text
