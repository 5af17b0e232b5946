import ResourceTypes.Decoding
import ResourceTypes.Json.Literal

/-!
Decoding from JSON texts. A list may stand for a record, with the values of
the fields in order; what is skipped is not looked into.
-/

namespace ResourceTypes.Json

/-- A literal together with how many arrays and objects may still be opened. -/
structure Slot where
  literal : Literal
  room : Nat

namespace Slot

def fullRoom : Nat := 127

/-- What a value must be to be opened: its parts then have less room. -/
def inner (slot : Slot) : Option Nat := if slot.room = 0 then none else some (slot.room - 1)

def scalar? (slot : Slot) : Option Json :=
  match slot.literal with
  | .scalar value? => value?
  | _ => none

def text? (slot : Slot) : Option String := slot.scalar?.bind Json.text?

def flag? (slot : Slot) : Option Bool := slot.scalar?.bind Json.flag?

def size? (slot : Slot) : Option Nat :=
  match slot.scalar? with
  | some (.int n) => if 0 ≤ n then some n.toNat else none
  | _ => none

def value? (slot : Slot) : Option Json :=
  if slot.literal.depth ≤ slot.room then slot.literal.toJson? else none

def items? (slot : Slot) : Option (List Slot) := do
  let room ← slot.inner
  match slot.literal with
  | .array items => some (items.map (⟨·, room⟩))
  | _ => none

def entries (slot : Slot) : Decoder (List (String × Slot)) := do
  let room ← slot.inner
  match slot.literal with
  | .object members => members.mapM fun (name?, value) => do return (← name?, ⟨value, room⟩)
  | _ => failure

/-- The fields of a record, or the items of a list that is not longer. -/
def fields (names : List String) (slot : Slot) : Decoder (Members Slot) := do
  match slot.literal with
  | .array _ =>
    let items ← slot.items?
    if items.length ≤ names.length then return names.zip items else failure
  | _ =>
    let known := (← slot.entries).filter fun (name, _) => names.contains name
    if (Members.names known).Nodup then return known else failure

def present? (slot : Slot) : Option Slot :=
  match slot.literal with
  | .scalar (some .null) => none
  | _ => some slot

instance : Source Slot where
  text slot := slot.text?
  flag slot := slot.flag?
  size slot := slot.size?
  value slot := slot.value?
  items slot := slot.items?
  entries := entries
  fields := fields
  present? slot := pure slot.present?

end Slot

end ResourceTypes.Json
