import ResourceTypes.Decimal.Binary64
import ResourceTypes.Members

/-!
JSON values. Objects keep the order of their members; `Json.same` compares
values without it. Whole numbers and binary64 numbers are never the same.
-/

namespace ResourceTypes

inductive Json where
  | null
  | bool (value : Bool)
  | int (value : Int)
  | float (value : Binary64)
  | string (value : String)
  | array (items : List Json)
  | object (members : List (String × Json))
deriving Inhabited, Repr

namespace Json

/-- The whole numbers that a value holds: those of 64 bits, signed or not. -/
def FitsInt (n : Int) : Prop := -9223372036854775808 ≤ n ∧ n < 18446744073709551616

instance (n : Int) : Decidable (FitsInt n) := inferInstanceAs (Decidable (_ ∧ _))

/-- What a message calls a value of this type. -/
def typeName : Json → String
  | .null => "null"
  | .bool _ => "a boolean"
  | .int _ | .float _ => "a number"
  | .string _ => "a string"
  | .array _ => "a list"
  | .object _ => "an object"

def text? : Json → Option String
  | .string text => some text
  | _ => none

def flag? : Json → Option Bool
  | .bool flag => some flag
  | _ => none

def items? : Json → Option (List Json)
  | .array items => some items
  | _ => none

theorem text?_eq_some_iff {value : Json} {text : String} :
    value.text? = some text ↔ value = .string text := by
  cases value <;> simp [text?]

theorem flag?_eq_some_iff {value : Json} {flag : Bool} :
    value.flag? = some flag ↔ value = .bool flag := by
  cases value <;> simp [flag?]

theorem items?_eq_some_iff {value : Json} {items : List Json} :
    value.items? = some items ↔ value = .array items := by
  cases value <;> simp [items?]

/-- The object with these members, written one after another. -/
def ofPairs (pairs : List (String × Json)) : Json := .object (Members.ofList pairs)

mutual

/-- Equality of values, for which the order of an object's members is open. -/
def same : Json → Json → Bool
  | .null, .null => true
  | .bool a, .bool b => a == b
  | .int a, .int b => a == b
  | .float a, .float b => a.same b
  | .string a, .string b => a == b
  | .array as, .array bs => sameItems as bs
  | .object as, .object bs => as.length == bs.length && sameMembers as bs
  | _, _ => false

def sameItems : List Json → List Json → Bool
  | [], [] => true
  | a :: as, b :: bs => a.same b && sameItems as bs
  | _, _ => false

/-- Each member on the left has a member of its name and value on the right. -/
def sameMembers : List (String × Json) → List (String × Json) → Bool
  | [], _ => true
  | (name, a) :: as, bs =>
    (match Members.get? bs name with
      | some b => a.same b
      | none => false) && sameMembers as bs

end

mutual

/-- No object, at any depth, has two members of one name. -/
def Proper : Json → Prop
  | .array items => ProperItems items
  | .object members => (Members.names members).Nodup ∧ ProperMembers members
  | _ => True

def ProperItems : List Json → Prop
  | [] => True
  | item :: rest => item.Proper ∧ ProperItems rest

def ProperMembers : List (String × Json) → Prop
  | [] => True
  | (_, value) :: rest => value.Proper ∧ ProperMembers rest

end

end Json

end ResourceTypes
