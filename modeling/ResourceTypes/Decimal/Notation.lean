import ResourceTypes.Decimal.Binary64

/-!
Numbers in decimal notation, as far as formats agree on it: digits, a
fraction behind a point, and an exponent.
-/

namespace ResourceTypes.Decimal

def splitDigits (input : List Char) : List Char × List Char :=
  (input.takeWhile Char.isDigit, input.dropWhile Char.isDigit)

def readDigits (input : List Char) : Option (List Char × List Char) :=
  let (digits, rest) := splitDigits input
  if digits.isEmpty then none else some (digits, rest)

def digitsValue (digits : List Char) : Nat :=
  digits.foldl (fun n c => 10 * n + (c.toNat - '0'.toNat)) 0

def readExponent : List Char → Option (Option Int × List Char)
  | c :: rest =>
    if c = 'e' ∨ c = 'E' then do
      let (negative, rest) := match rest with
        | '-' :: rest => (true, rest)
        | '+' :: rest => (false, rest)
        | rest => (false, rest)
      let (digits, rest) ← readDigits rest
      let size : Int := digitsValue digits
      return (some (if negative then -size else size), rest)
    else some (none, c :: rest)
  | [] => some (none, [])

def binary64? (negative : Bool) (whole fraction : List Char) (exponent : Int) :
    Option Binary64 :=
  Binary64.ofDecimal? negative (digitsValue (whole ++ fraction)) (exponent - fraction.length)

end ResourceTypes.Decimal
