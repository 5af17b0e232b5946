/-!
Directed graphs of references between type ids, and the search that tells
whether one more edge would close a cycle.
-/

namespace ResourceTypes

/-- A count falls when a smaller set is counted that misses an element. -/
theorem countP_lt_countP {α : Type} {p q : α → Bool} {xs : List α} {x : α} (hx : x ∈ xs)
    (hp : p x = true) (hq : q x = false) (h : ∀ y, q y = true → p y = true) :
    xs.countP q < xs.countP p := by
  induction xs with
  | nil => cases hx
  | cons y ys ih =>
    have hle : ys.countP q ≤ ys.countP p := List.countP_mono_left fun z _ => h z
    rw [List.countP_cons, List.countP_cons]
    rcases List.mem_cons.1 hx with rfl | hmem
    · simp only [hp, hq, if_true]
      simpa using Nat.lt_succ_of_le hle
    · have hlt := ih hmem
      by_cases hqy : q y = true
      · simp only [hqy, h y hqy, if_true]
        omega
      · simp only [hqy]
        simp only [Bool.false_eq_true, if_false]
        omega

/-- Edges from an id to one it refers to, the newest first. -/
structure ReferenceGraph where
  edges : List (String × String)
deriving Repr, DecidableEq

namespace ReferenceGraph

def empty : ReferenceGraph := ⟨[]⟩

def addEdge (graph : ReferenceGraph) (source target : String) : ReferenceGraph :=
  ⟨(source, target) :: graph.edges⟩

/-- The ids that an id refers to. -/
def targets (graph : ReferenceGraph) (id : String) : List String :=
  (graph.edges.filter (·.1 == id)).map (·.2)

/-- How many edges start at an id that has not been visited. -/
def unvisited (graph : ReferenceGraph) (visited : List String) : Nat :=
  graph.edges.countP fun edge => !visited.contains edge.1

theorem mem_targets {graph : ReferenceGraph} {source target : String} :
    target ∈ graph.targets source ↔ (source, target) ∈ graph.edges := by
  simp [targets]

theorem unvisited_cons_le (graph : ReferenceGraph) (id : String) (visited : List String) :
    graph.unvisited (id :: visited) ≤ graph.unvisited visited :=
  List.countP_mono_left fun edge _ h => by
    simp only [Bool.not_eq_true', List.contains_eq_mem, decide_eq_false_iff_not] at h ⊢
    exact fun hv => h (List.mem_cons_of_mem _ hv)

theorem unvisited_cons_lt {graph : ReferenceGraph} {id target : String} {visited : List String}
    (he : (id, target) ∈ graph.edges) (hv : visited.contains id = false) :
    graph.unvisited (id :: visited) < graph.unvisited visited :=
  countP_lt_countP he (by simpa using hv) (by simp) fun edge h => by
    simp only [Bool.not_eq_true', List.contains_eq_mem, decide_eq_false_iff_not] at h ⊢
    exact fun hm => h (List.mem_cons_of_mem _ hm)

/-- A visit leaves fewer unvisited edges, or leaves nothing more to visit. -/
theorem visit_decreases (graph : ReferenceGraph) (id : String) (pending visited : List String)
    (hv : visited.contains id = false) :
    Prod.Lex (· < ·) (· < ·)
      (graph.unvisited (id :: visited), (graph.targets id ++ pending).length)
      (graph.unvisited visited, (id :: pending).length) := by
  cases ht : graph.targets id with
  | nil =>
    rcases Nat.lt_or_eq_of_le (graph.unvisited_cons_le id visited) with h | h
    · exact Prod.Lex.left _ _ h
    · rw [h]
      exact Prod.Lex.right _ (Nat.lt_succ_self _)
  | cons target rest =>
    have he : (id, target) ∈ graph.edges := mem_targets.1 (by simp [ht])
    exact Prod.Lex.left _ _ (unvisited_cons_lt he hv)

/-- Whether the goal can be reached from one of the pending ids. -/
def search (graph : ReferenceGraph) (goal : String) : List String → List String → Bool
  | [], _ => false
  | current :: pending, visited =>
    if current = goal then true
    else if visited.contains current then graph.search goal pending visited
    else graph.search goal (graph.targets current ++ pending) (current :: visited)
termination_by pending visited => (graph.unvisited visited, pending.length)
decreasing_by
  · exact Prod.Lex.right _ (Nat.lt_succ_self _)
  · rename_i hv
    exact graph.visit_decreases current pending visited (by simpa using hv)

/-- Whether an edge would lie on a cycle once it is added. -/
def closesCycle (graph : ReferenceGraph) (source target : String) : Bool :=
  source == target || graph.search source [target] []

end ReferenceGraph

end ResourceTypes
