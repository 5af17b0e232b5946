import ResourceTypes.Proofs.Schema.Address
import ResourceTypes.Proofs.Schema.Recovery

/-!
Reading drops nothing. A node keeps the name of every member that its schema has,
and what it keeps besides the names tells the whole value.
-/

namespace ResourceTypes

open ResourceTypes.Language

namespace Schema

/-- Whether keywords are kept by their names alone can be seen from the tree. -/
theorem keepsAll_iff {limit : Nat} {document : Json} {root : SchemaNode}
    (hproper : document.Proper) (hread : read limit document = .ok root) :
    KeepsAll document ↔ ∀ node, root.Holds node →
      node.keywords.polymorphism = [] ∧ node.keywords.unknown = [] := by
  constructor
  · intro hkept node hnode
    obtain ⟨hops, schema, hstands, place, hschema⟩ := stands_of_holds hproper hread hnode
    obtain ⟨members, rfl, -, -, hfilled⟩ := filled_of_readNode (hstands.proper hproper) hschema
    exact (known_iff hfilled).2 (hkept hops members hstands)
  · intro hnodes hops members hstands
    obtain ⟨node, hnode, place, hschema⟩ := node_of_stands hproper hread hstands
    obtain ⟨_, hobject, -, -, hfilled⟩ :=
      filled_of_readNode (hstands.proper hproper) hschema
    obtain rfl := Json.object.inj hobject
    exact (known_iff hfilled).1 (hnodes node hnode)

/-- Each node of a tree accounts for the members at its address in the document, and
no two different documents are read to the same tree, unless they have keywords
that are kept by their names alone. -/
theorem nothing_dropped {limit : Nat} {document : Json} {root : SchemaNode}
    (hproper : document.Proper) (hread : read limit document = .ok root) :
    (∀ address node, (address, node) ∈ root.nodes → ∃ members : Members Json,
        document.schemaAt? address = some (.object members) ∧ AccountsFor node members) ∧
      ∀ (limit' : Nat) (other : Json) (root' : SchemaNode), other.Proper →
        read limit' other = .ok root' → KeepsAll document → root.same root' = true →
          document.same other = true := by
  constructor
  · intro address node hnode
    obtain ⟨members, hseated⟩ := seated_of_mem_nodes hproper hread hnode
    exact ⟨members, hseated.here, accountsFor hseated.filled hseated.proper.1⟩
  · intro limit' other root' hother hread' hkept hsame
    exact same_of_trees document other hproper hother hkept _ _ _ _ root root' hread hread' hsame

/-- A gate whose width has bounds. -/
def gate (bounds : Members Json) : Json :=
  .object [("type", .string "object"), ("properties", .object [
    ("width", .object (("type", .string "integer") :: bounds))])]

/-- What a gate is read as. -/
def gateNode (bounds : Attributes) : SchemaNode :=
  ⟨.root, { Keywords.none with type := some (.known .object) }, some [("width",
    ⟨[.key "properties", .key "width"], { Keywords.none with
      type := some (.known (.scalar .integer)), validation := bounds }, none, none, none⟩)],
    none, none⟩

theorem nothing_dropped_gate :
    (gateNode [("minimum", .int 2), ("maximum", .int 9)]).same
        (gateNode [("maximum", .int 9), ("minimum", .int 2)]) = true ∧
      (gate [("minimum", .int 2), ("maximum", .int 9)]).same
        (gate [("maximum", .int 9), ("minimum", .int 2)]) = true := by
  have hproper : (gate [("minimum", .int 2), ("maximum", .int 9)]).Proper := by
    simp [gate, Json.Proper, Json.ProperMembers]
  have hproper' : (gate [("maximum", .int 9), ("minimum", .int 2)]).Proper := by
    simp [gate, Json.Proper, Json.ProperMembers]
  have hread : read 1 (gate [("minimum", .int 2), ("maximum", .int 9)]) =
      .ok (gateNode [("minimum", .int 2), ("maximum", .int 9)]) := rfl
  have hread' : read 4 (gate [("maximum", .int 9), ("minimum", .int 2)]) =
      .ok (gateNode [("maximum", .int 9), ("minimum", .int 2)]) := rfl
  have hkept : KeepsAll (gate [("minimum", .int 2), ("maximum", .int 9)]) := by
    rw [keepsAll_iff hproper hread, SchemaNode.forall_holds_iff]
    refine ⟨⟨rfl, rfl⟩, fun child hchild => ?_⟩
    obtain rfl := List.mem_singleton.1 hchild
    rw [SchemaNode.forall_holds_iff]
    refine ⟨⟨rfl, rfl⟩, fun inner hinner => ?_⟩
    cases hinner
  have hsame : (gateNode [("minimum", .int 2), ("maximum", .int 9)]).same
      (gateNode [("maximum", .int 9), ("minimum", .int 2)]) = true := by decide +kernel
  exact ⟨hsame, (nothing_dropped hproper hread).2 4 _ _ hproper' hread' hkept hsame⟩

end Schema

end ResourceTypes
