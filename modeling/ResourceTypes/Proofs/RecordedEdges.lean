import ResourceTypes.Proofs.Acceptance
import ResourceTypes.Proofs.Registry.Registration

/-!
The references of a type are those of its document. Compiling a document loses
none of the ids that are written in it and makes up no others, so that what a
registry records for the type is what the document says.
-/

namespace ResourceTypes

namespace Language

/-- A schema of a document is a reference with this id. -/
def Writes (document : Json) (id : String) : Prop :=
  ∃ hops members, Stands document hops (.object members) ∧
    Members.get? members "$ref" = some (.string id)

/-- The ids of a tree that was read are those that its document writes. -/
theorem mem_referenceIds_iff {limit : Nat} {document : Json} {root : SchemaNode} {id : String}
    (hproper : document.Proper) (hread : Schema.read limit document = .ok root) :
    id ∈ root.referenceIds ↔ Writes document id := by
  rw [SchemaNode.referenceIds, List.mem_map]
  constructor
  · rintro ⟨⟨path, reference⟩, hmem, rfl⟩
    obtain ⟨node, hholds, -, hreference⟩ := SchemaNode.mem_references.1 hmem
    obtain ⟨hops, schema, hstands, place, hnode⟩ := stands_of_holds hproper hread hholds
    obtain ⟨members, rfl, -, -, hfilled⟩ := filled_of_readNode (hstands.proper hproper) hnode
    obtain ⟨id, hid, rfl⟩ := (reference_eq_some_iff hfilled).1 hreference
    exact ⟨hops, members, hstands, hid⟩
  · rintro ⟨hops, members, hstands, hid⟩
    obtain ⟨node, hholds, place, hnode⟩ := node_of_stands hproper hread hstands
    obtain ⟨_, heq, -, -, hfilled⟩ := filled_of_readNode (hstands.proper hproper) hnode
    obtain rfl := Json.object.inj heq
    have hreference := (reference_eq_some_iff hfilled).2 ⟨id, hid, rfl⟩
    exact ⟨_, SchemaNode.mem_references.2 ⟨node, hholds, rfl, hreference⟩, rfl⟩

end Language

namespace Registry

variable {registry next : Registry} {id : String} {type : TypeDescriptor}

/-- What a registration records: the new id refers to these ids and no others, in
the table and, with one edge for each, in the graph, and all other ids refer to
what they did before. -/
structure Records (registry next : Registry) (id : String) (targets : List String) : Prop where
  entry : next.table.references id = targets
  others : ∀ other, other ≠ id → next.table.references other = registry.table.references other
  edges : next.graph.edges.Perm (targets.map (id, ·) ++ registry.graph.edges)

theorem records_of_register (h : registry.register id type = .ok next) :
    Records registry next id type.directReferences := by
  obtain ⟨-, hnew, -, rfl⟩ := register_eq_ok_iff.1 h
  refine ⟨?_, fun other hother => ?_, ?_⟩
  · rw [TypeTable.references, find?_add, hnew, Option.none_or, if_pos rfl]
    rfl
  · rw [TypeTable.references, find?_add, if_neg (Ne.symm hother), Option.or_none]
    rfl
  · rw [add, ReferenceGraph.edges_foldl_addEdge]
    exact ((List.reverse_perm _).map _).append_right _

end Registry

section Compile

variable {table : TypeTable} {maxDepth : Nat} {document : Option String} {schema : Json}
  {type : TypeDescriptor}

/-- A compiled type refers to the ids of its document, each where it is first
written; these are the ids written anywhere in the document, and nothing else is
recorded when the type is registered. -/
theorem recorded_edges (hproper : schema.Proper)
    (h : compile table maxDepth document schema = .ok type) :
    ∃ root, Schema.read maxDepth schema = .ok root ∧
      type.directReferences = root.referenceIds.eraseDups ∧
      (∀ id, id ∈ root.referenceIds ↔ Language.Writes schema id) ∧
      ∀ registry next id, Registry.register registry id type = .ok next →
        Registry.Records registry next id root.referenceIds.eraseDups := by
  obtain ⟨root, hread, -⟩ := compile_eq_ok_iff.1 h
  have hreferences : type.directReferences = root.referenceIds.eraseDups := by
    rw [TypeDescriptor.directReferences, references_of_compile h hread]
  refine ⟨root, hread, hreferences, fun id => Language.mem_referenceIds_iff hproper hread, ?_⟩
  intro registry next id hregister
  rw [← hreferences]
  exact Registry.records_of_register hregister

end Compile

/-- A frame refers to its edge. -/
def frames : TypeTable :=
  ⟨["shapes#"], [⟨"shapes#Edge", .plain (.object [])⟩,
    ⟨"shapes#Frame", .plain (.object
      [⟨"edge", .referenced "shapes#Edge" default none false, false, false, none⟩])⟩]⟩

/-- A gallery has frames in two places. -/
def gallery : Json :=
  .object [("type", .string "object"), ("properties", .object [
    ("shown", .object [("type", .string "array"),
      ("items", .object [("$ref", .string "shapes#Frame")])]),
    ("spare", .object [("$ref", .string "shapes#Frame")])])]

/-- Of a gallery the frame is recorded, once, and not the edge that a frame refers to. -/
theorem recorded_edges_gallery :
    ∃ type next, gallery.Proper ∧ compile frames 64 none gallery = .ok type ∧
      Registry.register (.empty ["shapes#"]) "shapes#Gallery" type = .ok next ∧
      type.directReferences = ["shapes#Frame"] ∧
      Registry.Records (.empty ["shapes#"]) next "shapes#Gallery" ["shapes#Frame"] := by
  have hproper : gallery.Proper := by
    simp [gallery, Json.Proper, Json.ProperMembers]
  have hwalk : (frames.findCycle [] [] ["shapes#Frame"]).1 = none := by
    have hframe : frames.references "shapes#Frame" = ["shapes#Edge"] := rfl
    have hedge : frames.references "shapes#Edge" = [] := rfl
    simp [TypeTable.findCycle, hframe, hedge]
  have hbindable : Binding.Bindable ⟨frames, none⟩ "shapes#Frame" :=
    Binding.bindable_of_findCycle (by decide +kernel) (by simp) rfl hwalk
  obtain ⟨type, hcompile⟩ : ∃ type, compile frames 64 none gallery = .ok type :=
    exists_compile rfl rfl fun id hid => by
      change id ∈ ["shapes#Frame", "shapes#Frame"] at hid
      obtain rfl : id = "shapes#Frame" := by simpa using hid
      exact hbindable
  obtain ⟨root, hread, hdirect, -, hrecords⟩ := recorded_edges hproper hcompile
  have hids : root.referenceIds.eraseDups = ["shapes#Frame"] := by
    cases hread
    rfl
  rw [hids] at hdirect hrecords
  have hregister : (Registry.empty ["shapes#"]).register "shapes#Gallery" type =
      .ok ((Registry.empty ["shapes#"]).add ⟨"shapes#Gallery", type⟩) := by
    refine Registry.register_eq_ok_iff.2 ⟨by decide, rfl, fun via hvia => ?_, rfl⟩
    obtain rfl : via = "shapes#Frame" := by
      simpa [Entry.references, hdirect] using hvia
    simp [Registry.empty, ReferenceGraph.empty, ReferenceGraph.closesCycle, ReferenceGraph.search,
      ReferenceGraph.targets]
  exact ⟨type, _, hproper, hcompile, hregister, hdirect, hrecords _ _ _ hregister⟩

end ResourceTypes
