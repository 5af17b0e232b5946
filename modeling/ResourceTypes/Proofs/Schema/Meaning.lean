import Mathlib.Data.List.Forall2
import ResourceTypes.Proofs.Schema.Reading
import ResourceTypes.Proofs.Schema.Tree
import ResourceTypes.Schema.Meaning

/-!
What a schema means, one level at a time: its handle is made from its own
keywords and from the handles of the schemas directly inside it.
-/

namespace ResourceTypes

namespace Meaning

/-- The handle of a schema, told from the handles of the schemas inside it. -/
inductive Means (node : SchemaNode) : TypeHandle → Prop
  | reference {id : String} {target : TypeDescriptor}
      (bound : node.keywords.reference = some (.bound id target)) :
      Means node (.referenced id target none false)
  | scalar {kind : ScalarKind} (plain : node.keywords.reference = none)
      (declared : node.keywords.type = some (.known (.scalar kind))) :
      Means node (.authored (describe node.keywords (.scalar kind)))
  | array {items : SchemaNode} {handle : TypeHandle} (plain : node.keywords.reference = none)
      (declared : node.keywords.type = some (.known .array)) (found : node.items = some items)
      (means : handleOf items = .ok handle) :
      Means node (.authored (describe node.keywords (.array (noted items handle))))
  | map {value : SchemaNode} {handle : TypeHandle} (plain : node.keywords.reference = none)
      (declared : node.keywords.type = some (.known .object))
      (found : node.mapValue? = some value) (means : handleOf value = .ok handle) :
      Means node (.authored (describe node.keywords (.map (noted value handle))))
  | object {properties : List Property} (plain : node.keywords.reference = none)
      (declared : node.keywords.type = some (.known .object)) (closed : node.mapValue? = none)
      (means : List.Forall₂ (fun pair property => ∃ handle, handleOf pair.2 = .ok handle ∧
        property = propertyOf (node.keywords.required.getD []) pair.1 pair.2 handle)
        (node.properties.getD []) properties) :
      Means node (.authored (describe node.keywords (.object properties)))

theorem propertyList_eq_ok_iff {required : List String} {nodes : List (String × SchemaNode)}
    {properties : List Property} :
    propertyList required nodes = .ok properties ↔
      List.Forall₂ (fun pair property => ∃ handle, handleOf pair.2 = .ok handle ∧
        property = propertyOf required pair.1 pair.2 handle) nodes properties := by
  induction nodes generalizing properties with
  | nil => cases properties <;> simp [propertyList]
  | cons pair rest ih =>
      obtain ⟨name, node⟩ := pair
      rw [propertyList, bind_eq_ok_iff]
      simp only [bind_eq_ok_iff, ih]
      constructor
      · rintro ⟨handle, hhandle, others, hothers, heq⟩
        obtain rfl := Except.ok.inj heq
        exact .cons ⟨handle, hhandle, rfl⟩ hothers
      · intro h
        cases h with
        | cons hfirst hothers =>
            obtain ⟨handle, hhandle, rfl⟩ := hfirst
            exact ⟨handle, hhandle, _, hothers, rfl⟩

theorem itemType_eq_ok_iff {path : Path} {items : Option SchemaNode} {handle : TypeHandle} :
    itemType path items = .ok handle ↔
      ∃ node inner, items = some node ∧ handleOf node = .ok inner ∧ handle = noted node inner := by
  cases items with
  | none => simp [itemType]
  | some items =>
      simp only [itemType, bind_eq_ok_iff, Except.ok.injEq, Option.some.injEq]
      constructor
      · rintro ⟨inner, hinner, rfl⟩
        exact ⟨items, inner, rfl, hinner, rfl⟩
      · rintro ⟨_, inner, rfl, hinner, rfl⟩
        exact ⟨inner, hinner, rfl⟩

theorem propertiesOf_eq (required : List String)
    (properties : Option (List (String × SchemaNode))) :
    propertiesOf required properties = propertyList required (properties.getD []) := by
  cases properties <;> rfl

section Forms

variable {node : SchemaNode} {handle : TypeHandle}

theorem handleOf_bound {id : String} {target : TypeDescriptor}
    (hbound : node.keywords.reference = some (.bound id target)) :
    handleOf node = .ok (.referenced id target none false) := by
  obtain ⟨path, keywords, properties, additional, items⟩ := node
  simp only at hbound
  simp only [handleOf, hbound]

theorem handleOf_unbound {id : String} (hunbound : node.keywords.reference = some (.unbound id)) :
    handleOf node ≠ .ok handle := by
  obtain ⟨path, keywords, properties, additional, items⟩ := node
  simp only at hunbound
  simp [handleOf, hunbound]

theorem handleOf_scalar (hplain : node.keywords.reference = none) {kind : ScalarKind}
    (htype : node.keywords.type = some (.known (.scalar kind))) :
    handleOf node = .ok (.authored (describe node.keywords (.scalar kind))) := by
  obtain ⟨path, keywords, properties, additional, items⟩ := node
  simp only at hplain htype
  simp only [handleOf, hplain, htype]

theorem handleOf_array_eq_ok_iff (hplain : node.keywords.reference = none)
    (htype : node.keywords.type = some (.known .array)) :
    handleOf node = .ok handle ↔ ∃ item inner, node.items = some item ∧
      handleOf item = .ok inner ∧
        handle = .authored (describe node.keywords (.array (noted item inner))) := by
  obtain ⟨path, keywords, properties, additional, items⟩ := node
  simp only at hplain htype ⊢
  simp only [handleOf, hplain, htype, bind_eq_ok_iff, itemType_eq_ok_iff]
  constructor
  · rintro ⟨_, ⟨item, inner, hitem, hinner, rfl⟩, h⟩
    exact ⟨item, inner, hitem, hinner, (Except.ok.inj h).symm⟩
  · rintro ⟨item, inner, hitem, hinner, rfl⟩
    exact ⟨_, ⟨item, inner, hitem, hinner, rfl⟩, rfl⟩

theorem mapValue_typed {value : SchemaNode} (hvalue : node.mapValue? = some value) :
    mapValue node.additional = (do return some (noted value (← handleOf value))) := by
  obtain ⟨path, keywords, properties, additional, items⟩ := node
  rcases additional with _ | _ | other
  · cases hvalue
  · cases hvalue
  · obtain rfl := Option.some.inj hvalue
    rfl

theorem mapValue_closed (hclosed : node.mapValue? = none) :
    mapValue node.additional = .ok none := by
  obtain ⟨path, keywords, properties, additional, items⟩ := node
  rcases additional with _ | _ | value
  · rfl
  · rfl
  · cases hclosed

theorem handleOf_map_eq_ok_iff (hplain : node.keywords.reference = none)
    (htype : node.keywords.type = some (.known .object)) {value : SchemaNode}
    (hvalue : node.mapValue? = some value) :
    handleOf node = .ok handle ↔ ∃ inner, handleOf value = .ok inner ∧
      handle = .authored (describe node.keywords (.map (noted value inner))) := by
  have htyped := mapValue_typed hvalue
  obtain ⟨path, keywords, properties, additional, items⟩ := node
  simp only at hplain htype htyped ⊢
  simp only [handleOf, hplain, htype, htyped]
  cases handleOf value <;> simp [bind, Except.bind, pure, Except.pure, eq_comm]

theorem handleOf_object_eq_ok_iff (hplain : node.keywords.reference = none)
    (htype : node.keywords.type = some (.known .object)) (hclosed : node.mapValue? = none) :
    handleOf node = .ok handle ↔ ∃ properties,
      List.Forall₂ (fun pair property => ∃ handle, handleOf pair.2 = .ok handle ∧
        property = propertyOf (node.keywords.required.getD []) pair.1 pair.2 handle)
        (node.properties.getD []) properties ∧
      handle = .authored (describe node.keywords (.object properties)) := by
  have hnone := mapValue_closed hclosed
  obtain ⟨path, keywords, properties, additional, items⟩ := node
  simp only at hplain htype hnone ⊢
  simp only [handleOf, hplain, htype, hnone, bind_eq_ok_iff, Except.ok.injEq, exists_eq_left',
    propertiesOf_eq, propertyList_eq_ok_iff, @eq_comm _ _ handle]

theorem handleOf_untyped (hplain : node.keywords.reference = none)
    (htype : ∀ declared, node.keywords.type ≠ some (.known declared)) :
    handleOf node ≠ .ok handle := by
  obtain ⟨path, keywords, properties, additional, items⟩ := node
  simp only at hplain htype
  rcases hkind : keywords.type with _ | declared | value
  · simp [handleOf, hplain, hkind]
  · exact absurd hkind (htype declared)
  · simp [handleOf, hplain, hkind]

end Forms

theorem handleOf_eq_ok_iff {node : SchemaNode} {handle : TypeHandle} :
    handleOf node = .ok handle ↔ Means node handle := by
  constructor
  · intro h
    rcases hreference : node.keywords.reference with _ | ⟨id⟩ | ⟨id, target⟩
    · rcases htype : node.keywords.type with _ | ⟨_ | _ | kind⟩ | value
      · exact absurd h (handleOf_untyped hreference (by simp [htype]))
      · cases hvalue : node.mapValue? with
        | none =>
            obtain ⟨properties, hproperties, rfl⟩ :=
              (handleOf_object_eq_ok_iff hreference htype hvalue).1 h
            exact .object hreference htype hvalue hproperties
        | some value =>
            obtain ⟨inner, hinner, rfl⟩ := (handleOf_map_eq_ok_iff hreference htype hvalue).1 h
            exact .map hreference htype hvalue hinner
      · obtain ⟨item, inner, hitem, hinner, rfl⟩ :=
          (handleOf_array_eq_ok_iff hreference htype).1 h
        exact .array hreference htype hitem hinner
      · obtain rfl := Except.ok.inj ((handleOf_scalar hreference htype).symm.trans h)
        exact .scalar hreference htype
      · exact absurd h (handleOf_untyped hreference (by simp [htype]))
    · exact absurd h (handleOf_unbound hreference)
    · obtain rfl := Except.ok.inj ((handleOf_bound hreference).symm.trans h)
      exact .reference hreference
  · intro h
    cases h with
    | reference bound => exact handleOf_bound bound
    | scalar plain declared => exact handleOf_scalar plain declared
    | array plain declared found means =>
        exact (handleOf_array_eq_ok_iff plain declared).2 ⟨_, _, found, means, rfl⟩
    | map plain declared found means =>
        exact (handleOf_map_eq_ok_iff plain declared found).2 ⟨_, means, rfl⟩
    | object plain declared closed means =>
        exact (handleOf_object_eq_ok_iff plain declared closed).2 ⟨_, means, rfl⟩

theorem handleOf_authored {node : SchemaNode} (hreference : node.keywords.reference = none)
    {handle : TypeHandle} (h : handleOf node = .ok handle) :
    ∃ type, handle = .authored type := by
  cases handleOf_eq_ok_iff.1 h with
  | reference bound =>
      rw [hreference] at bound
      cases bound
  | _ => exact ⟨_, rfl⟩

/-- A document has a type if it is not a reference, and its handle is of a type written in place. -/
theorem descriptor_eq_ok_iff {root : SchemaNode} {type : TypeDescriptor} :
    descriptor root = .ok type ↔
      root.keywords.reference = none ∧ handleOf root = .ok (.authored type) := by
  unfold descriptor
  split
  · next hreference =>
    rw [Option.isSome_iff_ne_none] at hreference
    exact ⟨nofun, fun ⟨hplain, _⟩ => absurd hplain hreference⟩
  · next hplain =>
    rw [Option.not_isSome_iff_eq_none] at hplain
    cases hhandle : handleOf root with
    | error defect => exact ⟨nofun, nofun⟩
    | ok handle =>
        obtain ⟨own, rfl⟩ := handleOf_authored hplain hhandle
        simp [hplain, Except.map, TypeHandle.type]

end Meaning

end ResourceTypes
