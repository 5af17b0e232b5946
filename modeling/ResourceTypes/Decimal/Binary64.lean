/-!
Finite binary64 numbers, held as a sign and the 63 lower bits of the usual
encoding, which sort the magnitudes. A decimal literal is rounded to the
nearest of them, and a half goes to the even neighbour.
-/

namespace ResourceTypes

/-- Magnitudes are counted in `2 ^ 52` steps for each power of two. -/
def Binary64.stepsPerBinade : Nat := Nat.pow 2 52

/-- The encoding of infinity; every finite magnitude lies below it. -/
def Binary64.infinity : Nat := 2047 * Nat.pow 2 52

/-- A finite number; both zeros are present and differ in the sign only. -/
structure Binary64 where
  negative : Bool
  magnitude : Nat
  finite : magnitude < Binary64.infinity
deriving DecidableEq, Repr

namespace Binary64

/-- How many doublings the unit `2 ^ -1074` has gone through. -/
def scale (x : Binary64) : Nat := x.magnitude / stepsPerBinade - 1

/-- The whole number that `2 ^ scale` units are multiplied by. -/
def significand (x : Binary64) : Nat :=
  if x.magnitude < stepsPerBinade then x.magnitude
  else stepsPerBinade + x.magnitude % stepsPerBinade

/-- The exact magnitude in units of `2 ^ -1074`. -/
def units (x : Binary64) : Nat := x.significand * Nat.pow 2 x.scale

/-- Equality of numbers, for which the two zeros are one. -/
def same (x y : Binary64) : Bool :=
  x.magnitude == y.magnitude && (x.magnitude == 0 || x.negative == y.negative)

def zero (negative : Bool) : Binary64 := ⟨negative, 0, by decide⟩

def nearestQuotient (numerator denominator : Nat) : Nat :=
  let quotient := numerator / denominator
  let twice := 2 * (numerator % denominator)
  if twice < denominator then quotient
  else if denominator < twice then quotient + 1
  else quotient + quotient % 2

/--
The magnitude nearest to a positive quotient of units. A significand that
rounds up to the next power of two carries into the scale by itself.
-/
def nearestMagnitude (numerator denominator : Nat) : Nat :=
  let shift := Nat.log2 (numerator / denominator) - 52
  shift * stepsPerBinade + nearestQuotient numerator (denominator * Nat.pow 2 shift)

def ofUnits? (negative : Bool) (numerator denominator : Nat) : Option Binary64 :=
  let magnitude := nearestMagnitude numerator denominator
  if h : magnitude < infinity then some ⟨negative, magnitude, h⟩ else none

/-- Decimal exponents from which every number is infinite, or rounds to zero. -/
def overflowsFrom : Int := 400
def vanishesUpTo : Int := -400

/--
The number nearest to `digits * 10 ^ exponent`, or nothing if that overflows.
-/
def ofDecimal? (negative : Bool) (digits : Nat) (exponent : Int) : Option Binary64 :=
  let size := (Nat.toDigits 10 digits).length + exponent
  if digits = 0 ∨ size ≤ vanishesUpTo then some (zero negative)
  else if overflowsFrom ≤ size then none
  else
    ofUnits? negative (digits * Nat.pow 10 exponent.toNat * Nat.pow 2 1074)
      (Nat.pow 10 (-exponent).toNat)

end Binary64

end ResourceTypes
