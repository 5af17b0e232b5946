import ResourceTypes.Decimal.Notation
import ResourceTypes.Json
import ResourceTypes.Text.Digits
import ResourceTypes.Yaml.Node

/-!
What scalars stand for. Without a tag only plain scalars are more than their
text: the words for nothing, truth values, whole numbers and others.
-/

namespace ResourceTypes.Yaml

def isNullWord (text : String) : Bool := ["null", "Null", "NULL", "~"].contains text

def bool? (text : String) : Option Bool :=
  if ["true", "True", "TRUE"].contains text then some true
  else if ["false", "False", "FALSE"].contains text then some false
  else none

/-- Whether a zero stands in front of other digits; such digits are no number. -/
def hasLeadingZero : List Char → Bool
  | '0' :: c :: rest => (c :: rest).all Char.isDigit
  | _ => false

/-- A whole number without a sign, in base ten unless it says otherwise. -/
def magnitude? : List Char → Option Nat
  | '0' :: 'x' :: digits => Text.number? 16 digits
  | '0' :: 'o' :: digits => Text.number? 8 digits
  | '0' :: 'b' :: digits => Text.number? 2 digits
  | digits =>
    if hasLeadingZero digits || !digits.all Char.isDigit then none else Text.number? 10 digits

def whole? : List Char → Option Int
  | '+' :: digits => (magnitude? digits).map Int.ofNat
  | '-' :: digits => (magnitude? digits).map fun n => -Int.ofNat n
  | digits => (magnitude? digits).map Int.ofNat

/-- Whether a whole number is one of 128 bits, signed or not. -/
def IsWide (n : Int) : Prop :=
  -170141183460469231731687303715884105728 ≤ n ∧ n < 340282366920938463463374607431768211456

instance (n : Int) : Decidable (IsWide n) := inferInstanceAs (Decidable (_ ∧ _))

/-- A number without a sign that has digits on one side of its point at least. -/
def decimal? (negative : Bool) (input : List Char) : Option Binary64 := do
  let (whole, rest) := Decimal.splitDigits input
  let (fraction, rest) := match rest with
    | '.' :: rest => Decimal.splitDigits rest
    | rest => ([], rest)
  let (exponent?, rest) ← Decimal.readExponent rest
  if (whole.isEmpty && fraction.isEmpty) || !rest.isEmpty then none
  else Decimal.binary64? negative whole fraction (exponent?.getD 0)

/-- The words for what no value holds: infinity of either sign, and no number. -/
def isUnboundedWord (text : String) : Bool :=
  [".inf", ".Inf", ".INF", "+.inf", "+.Inf", "+.INF", "-.inf", "-.Inf", "-.INF",
    ".nan", ".NaN", ".NAN"].contains text

/-- The value of a finite number; the words for others have the null value. -/
def number? (text : String) : Option Json :=
  if isUnboundedWord text then some .null
  else (match text.toList with
    | '+' :: input => decimal? false input
    | '-' :: input => decimal? true input
    | input => decimal? false input).map .float

/-- Digits, with or without a sign, that are no number since a zero leads them. -/
def isZeroLed (text : String) : Bool :=
  match text.toList with
  | '+' :: digits | '-' :: digits => hasLeadingZero digits
  | digits => hasLeadingZero digits

/-- The value of a text that is no whole number. -/
def otherValue (text : String) : Json :=
  if isZeroLed text then .string text else (number? text).getD (.string text)

/--
The value of a plain scalar without a tag. Whole numbers that 64 bits cannot
hold have no value, unless they are wider still and count as numbers.
-/
def plainValue? (text : String) : Option Json :=
  if text.isEmpty || isNullWord text then some .null
  else
    match bool? text, whole? text.toList with
    | some value, _ => some (.bool value)
    | none, some n =>
      if Json.FitsInt n then some (.int n)
      else if IsWide n then none
      else some (otherValue text)
    | none, none => some (otherValue text)

namespace Scalar

/-- Whether nothing is written where the scalar stands. -/
def isOmitted (s : Scalar) : Bool := s.style = .plain && s.text.isEmpty

/-- Whether the scalar may be read as something of a common type. -/
def isBare (s : Scalar) (type : String) : Bool :=
  s.style = .plain || (s.style = .literal && s.tag? = some (Tag.common type))

def flag? (s : Scalar) : Option Bool := if s.isBare "bool" then bool? s.text else none

/-- A whole number of 64 bits without a minus. -/
def size? (s : Scalar) : Option Nat := do
  if !s.isBare "int" then none
  let n ← match s.text.toList with
    | '+' :: digits => magnitude? digits
    | digits => magnitude? digits
  if n < 18446744073709551616 then some n else none

/-- Whether the scalar stands for something rather than nothing. -/
def isPresent? (s : Scalar) : Option Bool :=
  if s.style ≠ .plain then some true
  else
    match s.tag? with
    | none => some !(s.text.isEmpty || isNullWord s.text)
    | some tag =>
      if tag ≠ Tag.common "null" then some true
      else if isNullWord s.text then some false
      else none

/-- The value of a scalar; a tag of a common type decides how it is read. -/
def value? (s : Scalar) : Option Json :=
  match s.tag? with
  | none => if s.style = .plain then plainValue? s.text else some (.string s.text)
  | some tag =>
    if Tag.isLocal tag then none
    else if tag = Tag.common "bool" then (bool? s.text).map .bool
    else if tag = Tag.common "int" then
      (whole? s.text.toList).bind fun n => if Json.FitsInt n then some (.int n) else none
    else if tag = Tag.common "float" then number? s.text
    else if tag = Tag.common "null" then if isNullWord s.text then some .null else none
    else if tag.head? = some 33 ∧ s.style = .plain then plainValue? s.text
    else some (.string s.text)

end Scalar

end ResourceTypes.Yaml
