import ResourceTypes.Decimal.Binary64

/-!
The shortest decimal of a binary64 number: of all decimals that round to the
number, those with the fewest digits, and of these the nearest.
-/

namespace ResourceTypes

/-- The number `digits * 10 ^ exponent`. -/
structure Decimal where
  digits : Nat
  exponent : Int
deriving DecidableEq, Repr

namespace Decimal

/-- The power of ten of the first digit. -/
def magnitude (d : Decimal) : Int :=
  (Nat.toDigits 10 d.digits).length - 1 + d.exponent

end Decimal

namespace Binary64

/--
The decimals that read back as a number, as an interval of quarter units
around it. A power of two has half the room below it, and the ends belong to
the interval if the significand is even.
-/
structure Neighbourhood where
  centre : Nat
  low : Nat
  high : Nat
  closed : Bool

def neighbourhood (x : Binary64) : Neighbourhood :=
  let step := Nat.pow 2 x.scale
  let below := if x.significand = stepsPerBinade ∧ 0 < x.scale then step else 2 * step
  ⟨4 * x.units, 4 * x.units - below, 4 * x.units + 2 * step, x.significand % 2 == 0⟩

def Neighbourhood.contains (n : Neighbourhood) (numerator denominator : Nat) : Bool :=
  if n.closed then
    n.low * denominator ≤ numerator && numerator ≤ n.high * denominator
  else
    n.low * denominator < numerator && numerator < n.high * denominator

/-- `quarters * 2 ^ -1076` as a multiple of `10 ^ exponent`, rounded down. -/
def gridFloor (quarters : Nat) (exponent : Int) : Nat :=
  quarters * Nat.pow 10 (-exponent).toNat / (Nat.pow 2 1076 * Nat.pow 10 exponent.toNat)

/--
The nearer of the two neighbours on the grid of multiples of `10 ^ exponent`
that read back; a tie goes to the even one.
-/
def onGrid? (n : Neighbourhood) (exponent : Int) : Option Decimal :=
  let up := Nat.pow 2 1076 * Nat.pow 10 exponent.toNat
  let down := Nat.pow 10 (-exponent).toNat
  let below := gridFloor n.centre exponent
  let above := below + 1
  let belowHits := 0 < below && n.contains (below * up) down
  let aboveHits := n.contains (above * up) down
  if belowHits && aboveHits then
    let toBelow := n.centre * down - below * up
    let toAbove := above * up - n.centre * down
    if toBelow < toAbove ∨ (toBelow = toAbove ∧ below % 2 = 0) then some ⟨below, exponent⟩
    else some ⟨above, exponent⟩
  else if belowHits then some ⟨below, exponent⟩
  else if aboveHits then some ⟨above, exponent⟩
  else none

def firstPlace (quarters : Nat) : Int :=
  let whole := quarters / Nat.pow 2 1076
  if 0 < whole then (Nat.toDigits 10 whole).length - 1
  else
    let scaled := quarters * Nat.pow 10 400 / Nat.pow 2 1076
    (Nat.toDigits 10 scaled).length - 1 - 400

/--
The grids of no digit, of one, and so on to seventeen, coarsest first. On the
first of them the power of ten above the number is the only neighbour.
-/
def grids (quarters : Nat) : List Int :=
  (List.range 18).map fun n : Nat => firstPlace quarters + 1 - (n : Int)

def shortest (x : Binary64) : Decimal :=
  if x.magnitude = 0 then ⟨0, 0⟩
  else ((grids (4 * x.units)).findSome? (onGrid? x.neighbourhood)).getD ⟨0, 0⟩

end Binary64

end ResourceTypes
