import ResourceTypes.Proofs.Schema.Alike
import ResourceTypes.Proofs.Schema.Meaning

/-!
Types that differ in nothing but the order of properties and of keyword values.
Trees that are alike describe types that are alike.
-/

namespace ResourceTypes

mutual

/-- Types written in place with equal attributes and notes and with alike shapes. -/
inductive TypeDescriptor.Alike : TypeDescriptor → TypeDescriptor → Prop
  | mk {shape shape' : Shape} {validation validation' : Attributes}
      {description : Option String} {readOnly : Bool} (shapes : Shape.Alike shape shape')
      (attributes : validation.same validation' = true) :
      TypeDescriptor.Alike ⟨shape, validation, description, readOnly⟩
        ⟨shape', validation', description, readOnly⟩

/-- Shapes of one kind. The properties of objects are told by their names, each
of which stands on both sides, once. -/
inductive Shape.Alike : Shape → Shape → Prop
  | scalar (kind : ScalarKind) : Shape.Alike (.scalar kind) (.scalar kind)
  | object {properties properties' : List Property} (distinct : (properties.map (·.name)).Nodup)
      (names : (properties.map (·.name)).Perm (properties'.map (·.name)))
      (named : ∀ property ∈ properties, ∀ property' ∈ properties',
        property.name = property'.name → Property.Alike property property') :
      Shape.Alike (.object properties) (.object properties')
  | map {value value' : TypeHandle} (values : TypeHandle.Alike value value') :
      Shape.Alike (.map value) (.map value')
  | array {item item' : TypeHandle} (items : TypeHandle.Alike item item') :
      Shape.Alike (.array item) (.array item')

/-- One shared type with the same notes, or alike types that are written in place. -/
inductive TypeHandle.Alike : TypeHandle → TypeHandle → Prop
  | authored {type type' : TypeDescriptor} (types : TypeDescriptor.Alike type type') :
      TypeHandle.Alike (.authored type) (.authored type')
  | referenced (id : String) (target : TypeDescriptor) (description : Option String)
      (readOnly : Bool) :
      TypeHandle.Alike (.referenced id target description readOnly)
        (.referenced id target description readOnly)

inductive Property.Alike : Property → Property → Prop
  | mk {name : String} {type type' : TypeHandle} {required readOnly : Bool}
      {description : Option String} (types : TypeHandle.Alike type type') :
      Property.Alike ⟨name, type, required, readOnly, description⟩
        ⟨name, type', required, readOnly, description⟩

end

theorem TypeHandle.Alike.withNotes {handle other : TypeHandle} (h : handle.Alike other)
    (description : Option String) (readOnly : Bool) :
    (handle.withNotes description readOnly).Alike (other.withNotes description readOnly) := by
  cases h with
  | authored types => exact .authored types
  | referenced id target => exact .referenced id target description readOnly

namespace Meaning

section Level

variable {R : SchemaNode → SchemaNode → Prop} {a b : SchemaNode}

theorem describe_alike (h : a.keywords.Alike b.keywords) {shape shape' : Shape}
    (hshape : shape.Alike shape') :
    (describe a.keywords shape).Alike (describe b.keywords shape') := by
  rw [describe, describe, h.description, h.readOnly]
  have hattributes := (Json.same_object_iff h.validation.distinct h.validation.distinct').2
    h.validation
  exact .mk hshape hattributes

theorem noted_alike (h : a.Alike b) {handle other : TypeHandle} (hhandle : handle.Alike other) :
    (noted a handle).Alike (noted b other) := by
  have hkeywords := h.matches.keywords
  rw [noted, noted, hkeywords.description, hkeywords.readOnly]
  exact hhandle.withNotes _ _

theorem propertyOf_alike (h : a.Alike b) {handle other : TypeHandle}
    (hhandle : handle.Alike other) (required : List String) (name : String) :
    (propertyOf required name a handle).Alike (propertyOf required name b other) := by
  have hkeywords := h.matches.keywords
  rw [propertyOf, propertyOf, hkeywords.description, hkeywords.readOnly]
  exact .mk hhandle

theorem name_eq_of_means {required : List String} {nodes : List (String × SchemaNode)}
    {properties : List Property}
    (h : List.Forall₂ (fun pair property => ∃ handle, handleOf pair.2 = .ok handle ∧
      property = propertyOf required pair.1 pair.2 handle) nodes properties) :
    properties.map (·.name) = Members.names nodes := by
  induction h with
  | nil => rfl
  | cons hfirst _ ih =>
      obtain ⟨handle, -, rfl⟩ := hfirst
      rw [List.map_cons, Members.names_cons, ih, propertyOf]

theorem type_eq_known (h : a.keywords.Alike b.keywords) {kind : SpelledKind}
    (hkind : a.keywords.type = some (.known kind)) : b.keywords.type = some (.known kind) := by
  obtain ⟨type, htype, halike⟩ := rel_exists h.type hkind
  cases halike with
  | known kind => exact htype

/-- Schemas that are alike and of which the second has an alike handle if the first has one. -/
def Agrees (a b : SchemaNode) : Prop :=
  a.Alike b ∧ ∀ handle, handleOf a = .ok handle →
    ∃ other, handleOf b = .ok other ∧ handle.Alike other

/-- Alike schemas under the same names make alike properties, in their own order. -/
theorem properties_alike {as bs : Members SchemaNode} (h : Members.Corresponds Agrees as bs)
    {required : List String} {properties : List Property}
    (hmeans : List.Forall₂ (fun pair property => ∃ handle, handleOf pair.2 = .ok handle ∧
      property = propertyOf required pair.1 pair.2 handle) as properties) :
    ∃ others, List.Forall₂ (fun pair property => ∃ handle, handleOf pair.2 = .ok handle ∧
        property = propertyOf required pair.1 pair.2 handle) bs others ∧
      (Shape.object properties).Alike (.object others) := by
  have hexists : ∀ pair ∈ bs, ∃ property, ∃ handle, handleOf pair.2 = .ok handle ∧
      property = propertyOf required pair.1 pair.2 handle := by
    rintro ⟨name, b⟩ hb
    obtain ⟨a, ha, -, hagrees⟩ := h.exists_left hb
    obtain ⟨_, -, handle, hhandle, -⟩ := exists_mem_right hmeans ha
    obtain ⟨other, hother, -⟩ := hagrees handle hhandle
    exact ⟨_, other, hother, rfl⟩
  obtain ⟨others, hothers⟩ := exists_forall₂ hexists
  have hnames := name_eq_of_means hmeans
  have hnames' := name_eq_of_means hothers
  refine ⟨others, hothers, .object (hnames ▸ h.distinct) (hnames ▸ hnames' ▸ h.names) ?_⟩
  -- properties of one name are made from schemas of one name, and these agree
  intro property hproperty property' hproperty' hname
  obtain ⟨⟨name, a⟩, ha, handle, hhandle, rfl⟩ := exists_mem_left hmeans hproperty
  obtain ⟨⟨name', b⟩, hb, handle', hhandle', rfl⟩ := exists_mem_left hothers hproperty'
  obtain rfl : name = name' := hname
  obtain ⟨halike, hagrees⟩ := h.values name a b ha hb
  obtain ⟨other, hother, hhandles⟩ := hagrees handle hhandle
  obtain rfl := Except.ok.inj (hother.symm.trans hhandle')
  exact propertyOf_alike halike hhandles required name

/-- One level of the induction: the handle of a schema is made as that of the other. -/
theorem agrees_of_matches (h : a.Matches Agrees b) : Agrees a b := by
  have halike : a.Alike b := (h.imp fun _ _ _ _ hxy => hxy.1).alike
  have hkeywords := h.keywords
  refine ⟨halike, fun handle hhandle => ?_⟩
  simp only [handleOf_eq_ok_iff]
  cases handleOf_eq_ok_iff.1 hhandle with
  | reference bound =>
      rw [hkeywords.reference] at bound
      exact ⟨_, .reference bound, .referenced _ _ _ _⟩
  | scalar plain declared =>
      rw [hkeywords.reference] at plain
      have hdeclared := type_eq_known hkeywords declared
      exact ⟨_, .scalar plain hdeclared, .authored (describe_alike hkeywords (.scalar _))⟩
  | array plain declared found means =>
      rw [hkeywords.reference] at plain
      have hdeclared := type_eq_known hkeywords declared
      obtain ⟨items, hitems, hnode, hagrees⟩ := rel_exists h.items found
      obtain ⟨other, hother, hinner⟩ := hagrees _ means
      exact ⟨_, .array plain hdeclared hitems hother,
        .authored (describe_alike hkeywords (.array (noted_alike hnode hinner)))⟩
  | map plain declared found means =>
      rw [hkeywords.reference] at plain
      have hdeclared := type_eq_known hkeywords declared
      obtain ⟨value, hvalue, hnode, hagrees⟩ := rel_exists h.mapValue? found
      obtain ⟨other, hother, hinner⟩ := hagrees _ means
      exact ⟨_, .map plain hdeclared hvalue hother,
        .authored (describe_alike hkeywords (.map (noted_alike hnode hinner)))⟩
  | object plain declared closed means =>
      rw [hkeywords.reference] at plain
      rw [hkeywords.required] at means
      have hdeclared := type_eq_known hkeywords declared
      have hclosed : b.mapValue? = none := by
        rw [← Option.not_isSome_iff_eq_none, ← rel_isSome h.mapValue?, closed]
        simp
      obtain ⟨others, hothers, hshape⟩ := properties_alike h.schemas means
      exact ⟨_, .object plain hdeclared hclosed hothers,
        .authored (describe_alike hkeywords hshape)⟩

end Level

/-- Alike trees describe alike types, if either has a meaning at all. -/
theorem handleOf_alike {a b : SchemaNode} (h : a.Alike b) {handle : TypeHandle}
    (hhandle : handleOf a = .ok handle) : ∃ other, handleOf b = .ok other ∧ handle.Alike other :=
  (SchemaNode.Alike.induct (P := Agrees) (fun _ _ => agrees_of_matches) h).2 handle hhandle

theorem descriptor_alike {a b : SchemaNode} (h : a.Alike b) {type : TypeDescriptor}
    (htype : descriptor a = .ok type) : ∃ other, descriptor b = .ok other ∧ type.Alike other := by
  obtain ⟨hplain, hhandle⟩ := descriptor_eq_ok_iff.1 htype
  obtain ⟨_, hother, halike⟩ := handleOf_alike h hhandle
  rw [h.matches.keywords.reference] at hplain
  cases halike with
  | authored types => exact ⟨_, descriptor_eq_ok_iff.2 ⟨hplain, hother⟩, types⟩

end Meaning

end ResourceTypes
