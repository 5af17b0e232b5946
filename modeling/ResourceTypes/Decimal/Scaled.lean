import ResourceTypes.Decimal.Notation

/-!
Binary64 numbers from a significand that 64 bits hold and a power of ten. The
significand, the power and their product or quotient are rounded one after the
other, so the number may lie one step off the nearest one.
-/

namespace ResourceTypes

namespace Binary64

def mul? (x y : Binary64) : Option Binary64 :=
  ofUnits? (x.negative != y.negative) (x.units * y.units) (Nat.pow 2 1074)

def div? (x y : Binary64) : Option Binary64 :=
  ofUnits? (x.negative != y.negative) (x.units * Nat.pow 2 1074) y.units

def greatestPower : Nat := 308

def powerOfTen? (exponent : Nat) : Option Binary64 := ofDecimal? false 1 exponent

/--
A number times a power of ten. Powers beyond the greatest overflow, but for
zero, and below its inverse the number is divided by it until it is zero or
the rest of the power is at hand.
-/
def scaleByTen? (x : Binary64) (exponent : Int) : Option Binary64 :=
  if exponent.natAbs ≤ greatestPower then do
    let power ← powerOfTen? exponent.natAbs
    if 0 ≤ exponent then x.mul? power else x.div? power
  else if x.magnitude = 0 then some x
  else if 0 ≤ exponent then none
  else do
    let x ← x.div? (← powerOfTen? greatestPower)
    x.scaleByTen? (exponent + greatestPower)
termination_by exponent.natAbs
decreasing_by simp only [greatestPower] at *; omega

end Binary64

namespace Decimal

/-- Appends digits to a number as long as 64 bits hold it, and returns those left over. -/
def significand : Nat → List Char → Nat × List Char
  | n, [] => (n, [])
  | n, c :: rest =>
    let next := 10 * n + (c.toNat - '0'.toNat)
    if next < Nat.pow 2 64 then significand next rest else (n, c :: rest)

/--
The number that digits, a fraction and an exponent are read as. Digits that
the significand has no room for count as zeros before the point, and not at
all behind it.
-/
def scaled? (negative : Bool) (whole fraction : List Char) (exponent : Int) : Option Binary64 := do
  let (n, uncounted) := significand 0 whole
  let (n, unread) := significand n fraction
  let places : Int := fraction.length - unread.length
  (← Binary64.ofDecimal? negative n 0).scaleByTen? (uncounted.length - places + exponent)

end Decimal

end ResourceTypes
