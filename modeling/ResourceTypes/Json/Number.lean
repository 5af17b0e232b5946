import ResourceTypes.Decimal.Shortest

/-!
The text of binary64 numbers in JSON: their shortest decimal, positional near
one and with an exponent elsewhere.
-/

namespace ResourceTypes.Json.Number

/-- Which powers of ten of the first digit are written without an exponent. -/
structure Style where
  leastPositional : Int
  greatestPositional : Int

/-- Positional from `0.00001` up to sixteen digits before the point. -/
def style : Style := ⟨-5, 15⟩

def digitText (n : Nat) : String := String.ofList (Nat.toDigits 10 n)

def zeros (n : Nat) : String := String.ofList (List.replicate n '0')

/-- All digits in place, and always a point with a digit on both sides. -/
def positional (d : Decimal) : String :=
  let digits := Nat.toDigits 10 d.digits
  if 0 ≤ d.exponent then digitText d.digits ++ zeros d.exponent.toNat ++ ".0"
  else
    let places := (-d.exponent).toNat
    if places < digits.length then
      String.ofList (digits.take (digits.length - places)) ++ "." ++
        String.ofList (digits.drop (digits.length - places))
    else "0." ++ zeros (places - digits.length) ++ digitText d.digits

/-- One digit, a point if more follow, and the exponent with its sign. -/
def scientific (d : Decimal) : String :=
  let digits := Nat.toDigits 10 d.digits
  let tail := if digits.length ≤ 1 then "" else "." ++ String.ofList (digits.drop 1)
  let sign := if d.magnitude < 0 then "e-" else "e+"
  String.ofList (digits.take 1) ++ tail ++ sign ++ digitText d.magnitude.natAbs

def text (x : Binary64) : String :=
  let d := x.shortest
  let magnitude :=
    if style.leastPositional ≤ d.magnitude ∧ d.magnitude ≤ style.greatestPositional then
      positional d
    else scientific d
  if x.negative then "-" ++ magnitude else magnitude

end ResourceTypes.Json.Number
