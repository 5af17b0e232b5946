import ResourceTypes.Proofs.Schema.Grammatical
import ResourceTypes.Proofs.Schema.Meaning

/-!
Every schema that keeps to the grammar and whose references are bound has a
meaning, and its type refers to exactly the ids that the schema refers to.
-/

namespace ResourceTypes

namespace Meaning

open Grammar

theorem referenceIds_eq (node : SchemaNode) :
    node.referenceIds =
      node.keywords.reference.toList.map Reference.id ++
        node.children.flatMap SchemaNode.referenceIds := by
  rw [SchemaNode.referenceIds, SchemaNode.references_eq, List.map_append, List.map_map,
    List.map_flatMap]
  rfl

@[simp] theorem references_noted (node : SchemaNode) (handle : TypeHandle) :
    (noted node handle).references = handle.references := by
  cases handle <;> simp [noted, TypeHandle.withNotes, TypeHandle.references]

/-- A schema has a handle, which refers to what the schema refers to. -/
def Described (node : SchemaNode) : Prop :=
  ∃ handle, handleOf node = .ok handle ∧ handle.references = node.referenceIds

theorem propertyList_of_described (required : List String) {nodes : List (String × SchemaNode)}
    (h : ∀ pair ∈ nodes, Described pair.2) :
    ∃ properties, propertyList required nodes = .ok properties ∧
      Property.listReferences properties = nodes.flatMap fun pair => pair.2.referenceIds := by
  induction nodes with
  | nil => exact ⟨[], rfl, rfl⟩
  | cons pair rest ih =>
      obtain ⟨name, node⟩ := pair
      obtain ⟨handle, hhandle, hids⟩ := h (name, node) List.mem_cons_self
      obtain ⟨properties, hproperties, hrest⟩ := ih fun other hother =>
        h other (List.mem_cons_of_mem _ hother)
      refine ⟨propertyOf required name node handle :: properties, ?_, ?_⟩
      · simp [propertyList, hhandle, hproperties, bind, Except.bind]
      · simp [propertyOf, Property.listReferences, hids, hrest]

section Cases

variable {path : Path} {keywords : Keywords}

theorem described_bound {id : String} {target : TypeDescriptor}
    (hreference : keywords.reference = some (.bound id target)) :
    Described ⟨path, keywords, none, none, none⟩ := by
  refine ⟨.referenced id target none false, handleOf_eq_ok_iff.2 (.reference hreference), ?_⟩
  simp [TypeHandle.references, referenceIds_eq, hreference, SchemaNode.children,
    SchemaNode.mapValue?, Reference.id]

theorem described_scalar {kind : ScalarKind} (hreference : keywords.reference = none)
    (htype : keywords.type = some (.known (.scalar kind))) :
    Described ⟨path, keywords, none, none, none⟩ := by
  refine ⟨_, handleOf_eq_ok_iff.2 (.scalar hreference htype), ?_⟩
  simp [TypeHandle.references, TypeDescriptor.references, Shape.references, describe,
    referenceIds_eq, hreference, SchemaNode.children, SchemaNode.mapValue?]

theorem described_array {items : SchemaNode} (hreference : keywords.reference = none)
    (htype : keywords.type = some (.known .array)) (hitems : Described items) :
    Described ⟨path, keywords, none, none, some items⟩ := by
  obtain ⟨handle, hhandle, hids⟩ := hitems
  refine ⟨_, handleOf_eq_ok_iff.2 (.array hreference htype rfl hhandle), ?_⟩
  simp [TypeHandle.references, TypeDescriptor.references, Shape.references, describe, hids,
    referenceIds_eq ⟨path, keywords, none, none, some items⟩, hreference, SchemaNode.children,
    SchemaNode.mapValue?]

theorem described_map {value : SchemaNode} (hreference : keywords.reference = none)
    (htype : keywords.type = some (.known .object)) (hvalue : Described value) :
    Described ⟨path, keywords, none, some (.typed value), none⟩ := by
  obtain ⟨handle, hhandle, hids⟩ := hvalue
  refine ⟨_, handleOf_eq_ok_iff.2 (.map hreference htype rfl hhandle), ?_⟩
  simp [TypeHandle.references, TypeDescriptor.references, Shape.references, describe, hids,
    referenceIds_eq ⟨path, keywords, none, some (.typed value), none⟩, hreference,
    SchemaNode.children, SchemaNode.mapValue?]

theorem described_object {properties : Option (List (String × SchemaNode))}
    {additional : Option Additional} (hreference : keywords.reference = none)
    (htype : keywords.type = some (.known .object))
    (hadditional : ∀ value, additional ≠ some (.typed value))
    (hproperties : ∀ pair ∈ properties.getD [], Described pair.2) :
    Described ⟨path, keywords, properties, additional, none⟩ := by
  obtain ⟨list, hlist, hids⟩ :=
    propertyList_of_described (keywords.required.getD []) hproperties
  have hclosed :
      (⟨path, keywords, properties, additional, none⟩ : SchemaNode).mapValue? = none := by
    rcases additional with _ | _ | value
    · rfl
    · rfl
    · exact absurd rfl (hadditional value)
  have hmeans := propertyList_eq_ok_iff.1 hlist
  refine ⟨_, handleOf_eq_ok_iff.2 (.object hreference htype hclosed hmeans), ?_⟩
  simp [TypeHandle.references, TypeDescriptor.references, Shape.references, describe, hids,
    referenceIds_eq ⟨path, keywords, properties, additional, none⟩, hreference,
    SchemaNode.children, hclosed, List.flatMap_map]

end Cases

/-- No branch of the meaning that reports a defect is reached. -/
theorem described_of_grammatical {node : SchemaNode}
    (hgrammar : ∀ inner, node.Holds inner → checkOwn .member inner = [])
    (hbound : ∀ pair ∈ node.references, pair.2.isBound = true) : Described node := by
  induction node using SchemaNode.induct with
  | step node ih =>
      have hchild : ∀ child ∈ node.children, Described child := by
        intro child hchild
        refine ih child hchild (fun inner hinner => hgrammar inner (.head hchild hinner)) ?_
        intro pair hpair
        refine hbound pair ?_
        rw [SchemaNode.references_eq]
        exact List.mem_append_right _ (List.mem_flatMap.2 ⟨child, hchild, hpair⟩)
      have hown : ∀ reference, node.keywords.reference = some reference →
          reference.isBound = true := fun reference hreference =>
        hbound (node.path, reference) (SchemaNode.mem_references.2 ⟨node, .refl, rfl, hreference⟩)
      obtain ⟨-, -, hrules⟩ := checkOwn_eq_nil_cases.1 (hgrammar node .refl)
      obtain ⟨path, keywords, properties, additional, items⟩ := node
      simp only at hrules hown
      -- the rules leave a bare reference, or the parts that the declared kind has
      rcases hrules with ⟨hreference, hbare⟩ | ⟨hreference, declared, htype, hkind⟩
      · obtain ⟨-, rfl, rfl, rfl, -⟩ := nonReferenceKeywords_eq_nil_iff.1 hbare
        obtain ⟨reference, hreference⟩ := Option.isSome_iff_exists.1 hreference
        cases reference with
        | unbound id => simpa [Reference.isBound] using hown _ hreference
        | bound id target => exact described_bound hreference
      · obtain ⟨hplain, hitems, -, hobject⟩ := (checkKind_eq_nil_iff declared).1 hkind
        cases declared with
        | object =>
            have hnone : items = none := by simpa using hitems
            subst hnone
            have hproperties : ∀ pair ∈ properties.getD [], Described pair.2 := fun pair hpair =>
              hchild pair.2
                (List.mem_append_left _ (List.mem_append_left _ (List.mem_map_of_mem hpair)))
            obtain ⟨hshape, -, -⟩ := checkObject_eq_nil_iff.1 (hobject rfl)
            rcases additional with _ | flag | value
            · exact described_object hreference htype (by simp) hproperties
            · exact described_object hreference htype (by simp) hproperties
            · have hnone : properties = none := by
                simpa [SchemaNode.mapValue?] using hshape
              subst hnone
              exact described_map hreference htype
                (hchild value (SchemaNode.mem_children.2 (.inr (.inl rfl))))
        | array =>
            obtain ⟨rfl, rfl, -⟩ := hplain (by simp)
            obtain ⟨item, rfl⟩ := Option.isSome_iff_exists.1 (hitems.2 rfl)
            exact described_array hreference htype
              (hchild item (SchemaNode.mem_children.2 (.inr (.inr rfl))))
        | scalar kind =>
            obtain ⟨rfl, rfl, -⟩ := hplain (by simp)
            have hnone : items = none := by simpa using hitems
            subst hnone
            exact described_scalar hreference htype

end Meaning

end ResourceTypes
