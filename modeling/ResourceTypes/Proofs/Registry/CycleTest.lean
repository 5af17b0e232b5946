import ResourceTypes.Proofs.Registry.Acyclicity

/-!
The test that an edge undergoes before it is added. Whatever cycles a graph has
already, the test tells whether the new edge would lie on one; so the graphs
without cycles are those that grow by edges for which it answers no.
-/

namespace ResourceTypes

namespace ReferenceGraph

/-- An edge of a graph lies on a cycle: edges lead back from its target to its source. -/
structure OnCycle (graph : ReferenceGraph) (source target : String) : Prop where
  edge : graph.Edge source target
  back : graph.Leads target source

/-- A graph that has grown from the empty one, edge by edge, with the test
answering no for each edge before it was added. -/
inductive Guarded : ReferenceGraph → Prop
  | empty : Guarded .empty
  | addEdge {graph : ReferenceGraph} {source target : String} (grown : Guarded graph)
      (clear : graph.closesCycle source target = false) : Guarded (graph.addEdge source target)

section AddEdge

variable {graph : ReferenceGraph} {source target : String}

theorem edge_addEdge (graph : ReferenceGraph) (source target : String) :
    (graph.addEdge source target).Edge = WithEdges graph.Edge source (· = target) := by
  ext x y
  show (x, y) ∈ (source, target) :: graph.edges ↔ _
  rw [List.mem_cons, Prod.mk.injEq, or_comm]
  rfl

/-- A cycle through a new edge takes it once, and is closed by the old edges alone. -/
theorem onCycle_addEdge_iff :
    (graph.addEdge source target).OnCycle source target ↔ graph.Leads target source := by
  constructor
  · rintro ⟨-, hback⟩
    rw [Leads, edge_addEdge] at hback
    rcases WithEdges.split hback with hold | ⟨hsource, -⟩
    · exact hold
    · exact hsource
  · intro hleads
    constructor
    · exact List.mem_cons_self
    · rw [Leads, edge_addEdge]
      exact WithEdges.of_old hleads

/-- One more edge leaves no cycle exactly if there was none before and the test answers no. -/
theorem acyclic_addEdge_iff :
    Acyclic (graph.addEdge source target).Edge ↔
      Acyclic graph.Edge ∧ graph.closesCycle source target = false := by
  have hold (h : Acyclic (WithEdges graph.Edge source (· = target))) : Acyclic graph.Edge :=
    fun id hcycle => h id (Relation.TransGen.mono (fun _ _ => Or.inl) id id hcycle)
  have htest : graph.closesCycle source target = false ↔ ¬ graph.Leads target source := by
    rw [← closesCycle_iff, Bool.not_eq_true]
  rw [edge_addEdge, htest]
  constructor
  · intro h
    exact ⟨hold h, (acyclic_withEdges_iff (hold h)).1 h target rfl⟩
  · rintro ⟨hacyclic, hclear⟩
    rw [acyclic_withEdges_iff hacyclic]
    rintro _ rfl
    exact hclear

end AddEdge

theorem acyclic_empty : Acyclic ReferenceGraph.empty.Edge := by
  intro id hcycle
  obtain ⟨next, hedge, -⟩ := Relation.TransGen.head'_iff.1 hcycle
  exact List.not_mem_nil hedge

theorem Guarded.acyclic {graph : ReferenceGraph} (h : graph.Guarded) : Acyclic graph.Edge := by
  induction h with
  | empty => exact acyclic_empty
  | addEdge _ hclear ih => exact acyclic_addEdge_iff.2 ⟨ih, hclear⟩

/-- Each edge of a graph without cycles passed the test when it was added, since
the graph had no cycle at that time either. -/
theorem guarded_of_acyclic (edges : List (String × String))
    (h : Acyclic (ReferenceGraph.mk edges).Edge) : Guarded ⟨edges⟩ := by
  induction edges with
  | nil => exact .empty
  | cons edge rest ih =>
      obtain ⟨source, target⟩ := edge
      change Acyclic ((ReferenceGraph.mk rest).addEdge source target).Edge at h
      obtain ⟨hacyclic, hclear⟩ := acyclic_addEdge_iff.1 h
      exact .addEdge (ih hacyclic) hclear

/-- In every graph, with parallel edges, edges from an id to itself and cycles, the
test ends, and it answers yes exactly if the two ids are one or a way leads from the
target to the source, that is, if the edge would lie on a cycle after being added.
The graphs grown by edges for which it answered no are the ones without cycles. -/
theorem closesCycle_exact (graph : ReferenceGraph) :
    (∀ source target,
        (graph.closesCycle source target = true ↔
          source = target ∨ Relation.TransGen graph.Edge target source) ∧
        (graph.closesCycle source target = true ↔
          (graph.addEdge source target).OnCycle source target)) ∧
      (graph.Guarded ↔ Acyclic graph.Edge) := by
  refine ⟨fun source target => ⟨?_, ?_⟩, Guarded.acyclic, guarded_of_acyclic graph.edges⟩
  · rw [closesCycle_iff, Leads, Relation.reflTransGen_iff_eq_or_transGen]
  · rw [closesCycle_iff, onCycle_addEdge_iff]

end ReferenceGraph

end ResourceTypes
