import ResourceTypes.Proofs.Json.Same
import ResourceTypes.Proofs.TypeGraph

/-!
Equality of types, taken apart: two types are the same if they agree part by
part. Each type is the same as itself, since no attribute is written twice.
-/

namespace ResourceTypes

/-- Properties that agree in everything, with types that are the same. -/
structure Property.Matches (a b : Property) : Prop where
  name : a.name = b.name
  type : a.type.same b.type = true
  required : a.required = b.required
  readOnly : a.readOnly = b.readOnly
  description : a.description = b.description

/-- Property lists are the same if they match one by one, in order. -/
theorem listSame_iff {as bs : List Property} :
    Property.listSame as bs = true ↔ List.Forall₂ Property.Matches as bs := by
  induction as generalizing bs with
  | nil => cases bs <;> simp [Property.listSame]
  | cons a as ih =>
      cases bs with
      | nil => simp [Property.listSame]
      | cons b bs =>
          obtain ⟨name, type, required, readOnly, description⟩ := a
          simp only [Property.listSame, Bool.and_eq_true, beq_iff_eq, ih, List.forall₂_cons]
          refine and_congr_left fun _ => ⟨?_, ?_⟩
          · rintro ⟨⟨⟨⟨hname, htype⟩, hrequired⟩, hreadOnly⟩, hdescription⟩
            exact ⟨hname, htype, hrequired, hreadOnly, hdescription⟩
          · rintro ⟨hname, htype, hrequired, hreadOnly, hdescription⟩
            exact ⟨⟨⟨⟨hname, htype⟩, hrequired⟩, hreadOnly⟩, hdescription⟩

theorem TypeHandle.same_authored (a b : TypeDescriptor) :
    (TypeHandle.authored a).same (.authored b) = a.same b := by
  rw [TypeHandle.same]

theorem TypeHandle.same_referenced_iff {id id' : String} {target target' : TypeDescriptor}
    {description description' : Option String} {readOnly readOnly' : Bool} :
    (TypeHandle.referenced id target description readOnly).same
        (.referenced id' target' description' readOnly') = true ↔
      id = id' ∧ target.same target' = true ∧ description = description' ∧
        readOnly = readOnly' := by
  simp [TypeHandle.same, and_assoc]

namespace TypeDescriptor

theorem same_iff {a b : TypeDescriptor} :
    a.same b = true ↔ a.shape.same b.shape = true ∧ a.validation.same b.validation = true ∧
      a.description = b.description ∧ a.readOnly = b.readOnly := by
  obtain ⟨shape, validation, description, readOnly⟩ := a
  simp [TypeDescriptor.same, and_assoc]

/-- Types that are the same are of one kind. -/
theorem kind_eq_of_same {a b : TypeDescriptor} (h : a.same b = true) : a.kind = b.kind := by
  have hshape := (same_iff.1 h).1
  rw [kind, kind]
  cases hleft : a.shape <;> cases hright : b.shape <;> rw [hleft, hright] at hshape <;>
    simp_all [Shape.same, Shape.kind]

theorem sizeOf_handle_lt {type : TypeDescriptor} {handle : TypeHandle}
    (h : handle ∈ type.handles) : sizeOf handle.type < sizeOf type := by
  have htype : sizeOf handle.type < sizeOf handle := by
    cases handle <;> simp only [TypeHandle.type, TypeHandle.authored.sizeOf_spec,
      TypeHandle.referenced.sizeOf_spec] <;> omega
  obtain ⟨shape, validation, description, readOnly⟩ := type
  cases shape with
  | scalar kind => cases h
  | object properties =>
      rw [handles_object] at h
      obtain ⟨property, hproperty, rfl⟩ := List.mem_map.1 h
      have hlt := List.sizeOf_lt_of_mem hproperty
      obtain ⟨name, handle, required, readOnly, description⟩ := property
      simp only [mk.sizeOf_spec, Shape.object.sizeOf_spec, Property.mk.sizeOf_spec] at hlt htype ⊢
      omega
  | map value =>
      obtain rfl := List.mem_singleton.1 h
      simp only [mk.sizeOf_spec, Shape.map.sizeOf_spec]
      omega
  | array item =>
      obtain rfl := List.mem_singleton.1 h
      simp only [mk.sizeOf_spec, Shape.array.sizeOf_spec]
      omega

/-- Induction over a type: a property goes from all types inside, shared ones
too, to the whole. -/
theorem induct {P : TypeDescriptor → Prop}
    (step : ∀ type : TypeDescriptor, (∀ handle ∈ type.handles, P handle.type) → P type)
    (type : TypeDescriptor) : P type :=
  step type fun handle _ => induct step handle.type
termination_by sizeOf type
decreasing_by exact sizeOf_handle_lt ‹_›

/-- A type stands somewhere in another, at its root or further down; shared
types are entered. -/
abbrev Contains : TypeDescriptor → TypeDescriptor → Prop :=
  Relation.ReflTransGen fun outer inner => ∃ handle ∈ outer.handles, handle.type = inner

/-- No validation keyword is written twice, on no type inside, nor is a name in
the value of one. -/
def Proper (type : TypeDescriptor) : Prop :=
  ∀ inner, type.Contains inner → (Json.object inner.validation).Proper

theorem Proper.inside {type : TypeDescriptor} (h : type.Proper) {handle : TypeHandle}
    (hinside : handle ∈ type.handles) : handle.type.Proper :=
  fun inner hcontains => h inner (.head ⟨handle, hinside, rfl⟩ hcontains)

theorem same_refl {type : TypeDescriptor} (h : type.Proper) : type.same type = true := by
  induction type using induct with
  | step type ih =>
      have hhandle : ∀ handle ∈ type.handles, handle.same handle = true := by
        intro handle hinside
        have hsame := ih handle hinside (h.inside hinside)
        cases handle with
        | authored inner => exact (TypeHandle.same_authored inner inner).trans hsame
        | referenced id target description readOnly =>
            exact TypeHandle.same_referenced_iff.2 ⟨rfl, hsame, rfl, rfl⟩
      refine same_iff.2 ⟨?_, Json.same_refl (h type .refl), rfl, rfl⟩
      obtain ⟨shape, validation, description, readOnly⟩ := type
      cases shape with
      | scalar kind => simp [Shape.same]
      | object properties =>
          rw [handles_object] at hhandle
          rw [Shape.same]
          refine listSame_iff.2 (List.forall₂_same.2 fun property hproperty => ?_)
          exact ⟨rfl, hhandle _ (List.mem_map_of_mem hproperty), rfl, rfl, rfl⟩
      | map value => simpa only [Shape.same] using hhandle value (.head _)
      | array item => simpa only [Shape.same] using hhandle item (.head _)

end TypeDescriptor

/-- All types of a table are proper. -/
def TypeTable.Proper (table : TypeTable) : Prop := ∀ entry ∈ table.entries, entry.type.Proper

end ResourceTypes
