import Mathlib.Logic.Relation
import ResourceTypes.Registry.Graph

/-!
Cycles of references and the search for them. The search ends at its goal
exactly if edges lead there, whatever cycles the graph has; and new edges that
all start at one id close a cycle exactly if one of them does so by itself.
-/

namespace ResourceTypes

namespace ReferenceGraph

/-- The graph has an edge between two ids. -/
def Edge (graph : ReferenceGraph) (source target : String) : Prop :=
  (source, target) ∈ graph.edges

/-- Edges lead from one id to another, in any number of steps. -/
abbrev Leads (graph : ReferenceGraph) : String → String → Prop :=
  Relation.ReflTransGen graph.Edge

/-- What holds at every moment of a search: the goal has not been visited, and
the edges from visited ids end at ids that are visited or pending. -/
structure Frontier (graph : ReferenceGraph) (goal : String) (pending visited : List String) :
    Prop where
  unmet : goal ∉ visited
  closed : ∀ id ∈ visited, ∀ target, graph.Edge id target → target ∈ visited ∨ target ∈ pending

section Search

variable {graph : ReferenceGraph} {goal current : String} {pending visited : List String}

theorem frontier_nil : Frontier graph goal pending [] := by
  constructor <;> simp

theorem Frontier.skip (h : Frontier graph goal (current :: pending) visited)
    (hcurrent : current ∈ visited) : Frontier graph goal pending visited := by
  refine ⟨h.unmet, fun id hid target hedge => ?_⟩
  rcases h.closed id hid target hedge with hvisited | hpending
  · exact .inl hvisited
  · rcases List.mem_cons.1 hpending with rfl | hrest
    · exact .inl hcurrent
    · exact .inr hrest

theorem Frontier.visit (h : Frontier graph goal (current :: pending) visited)
    (hcurrent : current ≠ goal) :
    Frontier graph goal (graph.targets current ++ pending) (current :: visited) := by
  constructor
  · rw [List.mem_cons, not_or]
    exact ⟨hcurrent.symm, h.unmet⟩
  · intro id hid target hedge
    rw [List.mem_cons, List.mem_append]
    rcases List.mem_cons.1 hid with rfl | hold
    · exact .inr (.inl (mem_targets.2 hedge))
    · rcases h.closed id hold target hedge with hvisited | hpending
      · exact .inl (.inr hvisited)
      · rcases List.mem_cons.1 hpending with rfl | hrest
        · exact .inl (.inl rfl)
        · exact .inr (.inr hrest)

/-- If nothing is pending any more, no edge leads out of what was visited. -/
theorem Frontier.mem_of_leads (h : Frontier graph goal [] visited) {start target : String}
    (hstart : start ∈ visited) (hleads : graph.Leads start target) : target ∈ visited := by
  induction hleads with
  | refl => exact hstart
  | tail _ hedge ih =>
      rcases h.closed _ ih _ hedge with hvisited | hpending
      · exact hvisited
      · cases hpending

/-- A search that ends at its goal has found a way to it. -/
theorem exists_leads_of_search (h : graph.search goal pending visited = true) :
    ∃ start ∈ pending, graph.Leads start goal := by
  induction pending, visited using search.induct graph goal with
  | case1 visited => simp [search] at h
  | case2 pending visited => exact ⟨goal, List.mem_cons_self, .refl⟩
  | case3 current pending visited hgoal hvisited ih =>
      rw [search, if_neg hgoal, if_pos hvisited] at h
      obtain ⟨start, hstart, hleads⟩ := ih h
      exact ⟨start, List.mem_cons_of_mem _ hstart, hleads⟩
  | case4 current pending visited hgoal hvisited ih =>
      rw [search, if_neg hgoal, if_neg hvisited] at h
      obtain ⟨start, hstart, hleads⟩ := ih h
      rcases List.mem_append.1 hstart with htarget | hrest
      · exact ⟨current, List.mem_cons_self, .head (mem_targets.1 htarget) hleads⟩
      · exact ⟨start, List.mem_cons_of_mem _ hrest, hleads⟩

/-- A search that fails leaves no way to its goal, neither from what was
pending nor from what had been visited. -/
theorem Frontier.search_of_leads (h : Frontier graph goal pending visited) {start : String}
    (hstart : start ∈ visited ∨ start ∈ pending) (hleads : graph.Leads start goal) :
    graph.search goal pending visited = true := by
  induction pending, visited using search.induct graph goal with
  | case1 visited =>
      have hvisited : start ∈ visited := hstart.resolve_right List.not_mem_nil
      exact absurd (h.mem_of_leads hvisited hleads) h.unmet
  | case2 pending visited => rw [search, if_pos rfl]
  | case3 current pending visited hgoal hvisited ih =>
      have hcurrent : current ∈ visited := List.contains_iff_mem.1 hvisited
      rw [search, if_neg hgoal, if_pos hvisited]
      refine ih (h.skip hcurrent) ?_
      rcases hstart with hold | hpending
      · exact .inl hold
      · rcases List.mem_cons.1 hpending with rfl | hrest
        · exact .inl hcurrent
        · exact .inr hrest
  | case4 current pending visited hgoal hvisited ih =>
      rw [search, if_neg hgoal, if_neg hvisited]
      refine ih (h.visit hgoal) ?_
      rw [List.mem_cons, List.mem_append]
      rcases hstart with hold | hpending
      · exact .inl (.inr hold)
      · rcases List.mem_cons.1 hpending with rfl | hrest
        · exact .inl (.inl rfl)
        · exact .inr (.inr hrest)

theorem search_eq_true_iff :
    graph.search goal pending [] = true ↔ ∃ start ∈ pending, graph.Leads start goal := by
  refine ⟨exists_leads_of_search, ?_⟩
  rintro ⟨start, hstart, hleads⟩
  exact frontier_nil.search_of_leads (.inr hstart) hleads

end Search

/-- The test answers yes exactly if edges lead from the target back to the source. -/
theorem closesCycle_iff {graph : ReferenceGraph} {source target : String} :
    graph.closesCycle source target = true ↔ graph.Leads target source := by
  rw [closesCycle, Bool.or_eq_true, beq_iff_eq, search_eq_true_iff]
  constructor
  · rintro (rfl | ⟨start, hstart, hleads⟩)
    · exact .refl
    · exact List.mem_singleton.1 hstart ▸ hleads
  · intro hleads
    exact .inr ⟨target, List.mem_singleton.2 rfl, hleads⟩

end ReferenceGraph

/-- Nothing is related to itself in one step or more. -/
def Acyclic {α : Type} (r : α → α → Prop) : Prop := ∀ x, ¬ Relation.TransGen r x x

/-- A relation with further edges, which all start at one point. -/
def WithEdges {α : Type} (r : α → α → Prop) (source : α) (targets : α → Prop) (x y : α) : Prop :=
  r x y ∨ (x = source ∧ targets y)

section WithEdges

variable {α : Type} {r : α → α → Prop} {source : α} {targets : α → Prop} {x y : α}

theorem WithEdges.of_old (h : Relation.ReflTransGen r x y) :
    Relation.ReflTransGen (WithEdges r source targets) x y :=
  Relation.ReflTransGen.mono (fun _ _ hold => Or.inl hold) x y h

/-- A way either keeps to the old edges, or comes to the source of the new
ones and goes on from the target of the last new edge that it takes. -/
theorem WithEdges.split (h : Relation.ReflTransGen (WithEdges r source targets) x y) :
    Relation.ReflTransGen r x y ∨
      Relation.ReflTransGen r x source ∧ ∃ target, targets target ∧
        Relation.ReflTransGen r target y := by
  induction h with
  | refl => exact .inl .refl
  | tail _ hstep ih =>
      rcases hstep with hold | ⟨rfl, htarget⟩
      · rcases ih with hway | ⟨hsource, target, htarget, hway⟩
        · exact .inl (hway.tail hold)
        · exact .inr ⟨hsource, target, htarget, hway.tail hold⟩
      · have hsource : Relation.ReflTransGen r x _ := ih.elim id And.left
        exact .inr ⟨hsource, _, htarget, .refl⟩

/-- New edges from one source leave an acyclic relation acyclic exactly if the
old edges lead back to the source from none of their targets. -/
theorem acyclic_withEdges_iff (h : Acyclic r) :
    Acyclic (WithEdges r source targets) ↔
      ∀ target, targets target → ¬ Relation.ReflTransGen r target source := by
  constructor
  · intro hacyclic target htarget hback
    have hedge : WithEdges r source targets source target := .inr ⟨rfl, htarget⟩
    exact hacyclic source (.head' hedge (WithEdges.of_old hback))
  · intro hnone x hcycle
    obtain ⟨y, hstep, hback⟩ := Relation.TransGen.head'_iff.1 hcycle
    have hend := WithEdges.split hback
    rcases hstep with hold | ⟨rfl, htarget⟩
    -- a cycle over old edges alone was there before
    · rcases hend with hway | ⟨hsource, target, htarget, hway⟩
      · exact h x (Relation.TransGen.head'_iff.2 ⟨y, hold, hway⟩)
      · exact hnone target htarget (hway.trans (.head hold hsource))
    · rcases hend with hway | ⟨-, target, htarget, hway⟩
      · exact hnone y htarget hway
      · exact hnone target htarget hway

end WithEdges

end ResourceTypes
