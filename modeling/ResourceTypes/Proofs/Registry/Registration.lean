import Mathlib.Data.List.Permutation
import ResourceTypes.Proofs.Registry.Acyclicity
import ResourceTypes.Proofs.Registry.Growth
import ResourceTypes.Registry.Call

/-!
Registrations one after another. However the calls go, the references of the
registered types stay acyclic, and the graph has exactly their edges; a call is
refused only for what it would break, and then it changes nothing.
-/

namespace ResourceTypes

theorem nodup_eraseDups {α : Type} [BEq α] [LawfulBEq α] (xs : List α) : xs.eraseDups.Nodup := by
  cases xs with
  | nil => simp
  | cons x rest =>
      rw [List.eraseDups_cons, List.nodup_cons]
      exact ⟨by simp [List.mem_eraseDups], nodup_eraseDups (rest.filter fun y => !y == x)⟩
termination_by xs.length
decreasing_by
  have hle := List.length_filter_le (fun y => !y == x) rest
  simp only [List.length_cons]
  omega

namespace TypeTable

variable {table : TypeTable} {source target : String}

/-- The references of all entries as edges, entry by entry. -/
def edges (table : TypeTable) : List (String × String) :=
  table.entries.flatMap fun entry => entry.references.map (entry.id, ·)

theorem mem_edges :
    (source, target) ∈ table.edges ↔
      ∃ entry ∈ table.entries, entry.id = source ∧ target ∈ entry.references := by
  simp only [edges, List.mem_flatMap, List.mem_map, Prod.mk.injEq]
  constructor
  · rintro ⟨entry, hentry, other, hother, rfl, rfl⟩
    exact ⟨entry, hentry, rfl, hother⟩
  · rintro ⟨entry, hentry, rfl, htarget⟩
    exact ⟨entry, hentry, target, htarget, rfl, rfl⟩

/-- In a table with one entry for each id, the edges are what the look-up finds. -/
theorem mem_edges_iff_refersTo (hdistinct : (table.entries.map (·.id)).Nodup) :
    (source, target) ∈ table.edges ↔ table.RefersTo source target := by
  rw [mem_edges]
  constructor
  · rintro ⟨entry, hentry, rfl, htarget⟩
    obtain ⟨known, hknown⟩ := registered_iff_mem.2 (List.mem_map_of_mem hentry)
    have hmem : known ∈ table.entries := List.mem_of_find?_eq_some hknown
    obtain rfl := List.inj_on_of_nodup_map hdistinct hmem hentry (id_of_find? hknown)
    rw [RefersTo, references_of_find? hknown]
    exact htarget
  · intro hrefers
    unfold RefersTo references at hrefers
    cases hknown : table.find? source with
    | none =>
        rw [hknown] at hrefers
        cases hrefers
    | some entry =>
        rw [hknown] at hrefers
        exact ⟨entry, List.mem_of_find?_eq_some hknown, id_of_find? hknown, hrefers⟩

/-- No edge occurs twice: an entry refers to each id once, and has its own id. -/
theorem nodup_edges (hdistinct : (table.entries.map (·.id)).Nodup) : table.edges.Nodup := by
  rw [edges, List.nodup_flatMap]
  constructor
  · intro entry _
    exact (nodup_eraseDups entry.type.references).map fun _ _ heq => (Prod.mk.inj heq).2
  · refine (List.pairwise_map.1 hdistinct).imp fun {first second} hids => ?_
    rw [Function.onFun, List.disjoint_left]
    intro edge hfirst hsecond
    obtain ⟨_, -, rfl⟩ := List.mem_map.1 hfirst
    obtain ⟨_, -, heq⟩ := List.mem_map.1 hsecond
    exact hids (Prod.mk.inj heq).1.symm

end TypeTable

theorem ReferenceGraph.edges_foldl_addEdge (source : String) (targets : List String)
    (graph : ReferenceGraph) :
    (targets.foldl (·.addEdge source ·) graph).edges =
      targets.reverse.map (source, ·) ++ graph.edges := by
  induction targets generalizing graph with
  | nil => rfl
  | cons target rest ih =>
      rw [List.foldl_cons, ih, addEdge, List.reverse_cons, List.map_append, List.append_assoc]
      rfl

namespace Registry

variable {namespaces : List String} {registry next : Registry} {entry : Entry} {id : String}

theorem run_forM_enterEdge (source : String) (targets : List String) (registry : Registry) :
    (forM targets (enterEdge source)).run registry =
      .ok () { registry with graph := targets.foldl (·.addEdge source ·) registry.graph } := by
  induction targets generalizing registry with
  | nil => rfl
  | cons target rest ih =>
      rw [List.forM_cons, EStateM.run_bind, enterEdge, EStateM.run_modify]
      exact ih _

/-- A call in place ends as the registration does, and a refusal comes before
the first change. -/
theorem run_enter (entry : Entry) (registry : Registry) :
    (enter entry).run registry =
      match registry.register entry.id entry.type with
      | .ok next => .ok () next
      | .error error => .error error registry := by
  simp only [enter, EStateM.run_bind, EStateM.run_get, register]
  by_cases hid : entry.id = ""
  · simp [hid, EStateM.run_throw]
  by_cases hcontains : registry.contains entry.id = true
  · simp [hid, hcontains, EStateM.run_throw]
  have hentry : (⟨entry.id, entry.type⟩ : Entry) = entry := rfl
  simp only [hid, hcontains, if_false, hentry]
  cases hfind : entry.references.find? (registry.graph.closesCycle entry.id) with
  | some via => simp [EStateM.run_throw]
  | none =>
      simp [EStateM.run_bind, run_forM_enterEdge, enterEntry, EStateM.run_modify, add]

/-- What holds of a registry whatever calls were made on it. -/
structure Coherent (namespaces : List String) (registry : Registry) : Prop where
  namespaces : registry.table.namespaces = namespaces
  distinct : (registry.table.entries.map (·.id)).Nodup
  acyclic : Acyclic registry.table.RefersTo
  edges : registry.graph.edges.Perm registry.table.edges

theorem coherent_empty (namespaces : List String) : Coherent namespaces (.empty namespaces) := by
  refine ⟨rfl, List.nodup_nil, fun id hcycle => ?_, .refl _⟩
  obtain ⟨target, hrefers, -⟩ := Relation.TransGen.head'_iff.1 hcycle
  cases hrefers

theorem Coherent.edge_eq (h : Coherent namespaces registry) :
    registry.graph.Edge = registry.table.RefersTo := by
  funext source target
  rw [ReferenceGraph.Edge, h.edges.mem_iff, TypeTable.mem_edges_iff_refersTo h.distinct]

/-- The references of an entry are tested one by one against the old edges;
that all pass the test means that together they close no cycle. -/
theorem Coherent.open_iff (h : Coherent namespaces registry) :
    (∀ via ∈ entry.references, registry.graph.closesCycle entry.id via = false) ↔
      Acyclic (WithEdges registry.table.RefersTo entry.id (· ∈ entry.references)) := by
  rw [acyclic_withEdges_iff h.acyclic]
  refine forall₂_congr fun via _ => ?_
  rw [← Bool.not_eq_true, ReferenceGraph.closesCycle_iff, ReferenceGraph.Leads, h.edge_eq]

theorem refersTo_add (hnew : registry.table.find? entry.id = none) :
    (registry.add entry).table.RefersTo =
      WithEdges registry.table.RefersTo entry.id (· ∈ entry.references) := by
  funext source target
  rw [TypeTable.RefersTo, TypeTable.references, find?_add, WithEdges, TypeTable.RefersTo,
    TypeTable.references, eq_iff_iff]
  by_cases hsource : entry.id = source
  · subst hsource
    simp [hnew]
  · have hother : source ≠ entry.id := Ne.symm hsource
    cases registry.table.find? source <;> simp [hsource, hother]

theorem Coherent.add (h : Coherent namespaces registry)
    (hnew : registry.table.find? entry.id = none)
    (hacyclic : Acyclic (WithEdges registry.table.RefersTo entry.id (· ∈ entry.references))) :
    Coherent namespaces (registry.add entry) := by
  refine ⟨h.namespaces, ?_, ?_, ?_⟩
  · exact nodup_ids_add h.distinct hnew
  · rw [refersTo_add hnew]
    exact hacyclic
  · have hold : (entry.references.reverse.map (entry.id, ·)).Perm
        (entry.references.map (entry.id, ·)) := entry.references.reverse_perm.map _
    have hedges : (registry.add entry).table.edges =
        registry.table.edges ++ entry.references.map (entry.id, ·) := by
      simp [TypeTable.edges, Registry.add]
    rw [hedges, Registry.add, ReferenceGraph.edges_foldl_addEdge]
    exact (hold.append h.edges).trans List.perm_append_comm

/-- A call succeeds exactly if the id is a new one and the references of the
entry leave the references of all entries acyclic. -/
theorem Coherent.run_enter_eq_ok_iff (h : Coherent namespaces registry) :
    (enter entry).run registry = .ok () next ↔
      entry.id ≠ "" ∧ ¬ registry.table.Registered entry.id ∧
        Acyclic (WithEdges registry.table.RefersTo entry.id (· ∈ entry.references)) ∧
        next = registry.add entry := by
  rw [TypeTable.not_registered_iff, ← h.open_iff, run_enter]
  have hregister := @register_eq_ok_iff registry next entry.id entry.type
  cases hresult : registry.register entry.id entry.type with
  | ok result =>
      rw [hresult, Except.ok.injEq] at hregister
      rw [EStateM.Result.ok.injEq, eq_self, true_and]
      exact hregister
  | error error =>
      rw [hresult] at hregister
      simpa using hregister

theorem eq_of_run_enter_error {error : RegistryError}
    (h : (enter entry).run registry = .error error next) : next = registry := by
  rw [run_enter] at h
  cases hresult : registry.register entry.id entry.type with
  | ok result =>
      rw [hresult] at h
      cases h
  | error found =>
      rw [hresult] at h
      exact (EStateM.Result.error.inj h).2.symm

/-- Each call keeps the registry coherent. -/
theorem Coherent.after (h : Coherent namespaces registry) (entry : Entry) :
    Coherent namespaces (registry.after entry) := by
  unfold Registry.after
  cases hrun : (enter entry).run registry with
  | ok _ next =>
      obtain ⟨-, hnew, hacyclic, rfl⟩ := h.run_enter_eq_ok_iff.1 hrun
      exact h.add (TypeTable.not_registered_iff.1 hnew) hacyclic
  | error error next =>
      obtain rfl := eq_of_run_enter_error hrun
      exact h

theorem Coherent.afterAll (h : Coherent namespaces registry) (entries : List Entry) :
    Coherent namespaces (registry.afterAll entries) := by
  induction entries generalizing registry with
  | nil => exact h
  | cons entry rest ih => exact ih (h.after entry)

theorem Coherent.once (h : Coherent namespaces registry) : registry.graph.edges.Nodup :=
  h.edges.nodup_iff.2 (TypeTable.nodup_edges h.distinct)

/-- How a registry answers a call: it succeeds exactly if the id is not empty
and new and the references of the entry keep all references acyclic; then the
entry is added and nothing else changes, and a refusal changes nothing at all. -/
structure Answers (registry : Registry) (entry : Entry) : Prop where
  succeeds : (∃ next, (enter entry).run registry = .ok () next) ↔
    entry.id ≠ "" ∧ ¬ registry.table.Registered entry.id ∧
      Acyclic (WithEdges registry.table.RefersTo entry.id (· ∈ entry.references))
  adds : ∀ next, (enter entry).run registry = .ok () next →
    next.table = { registry.table with entries := registry.table.entries ++ [entry] }
  refuses : ∀ error next, (enter entry).run registry = .error error next → next = registry

theorem Coherent.answers (h : Coherent namespaces registry) (entry : Entry) :
    registry.Answers entry := by
  constructor
  · simp only [h.run_enter_eq_ok_iff]
    constructor
    · rintro ⟨next, hid, hnew, hacyclic, -⟩
      exact ⟨hid, hnew, hacyclic⟩
    · rintro ⟨hid, hnew, hacyclic⟩
      exact ⟨registry.add entry, hid, hnew, hacyclic, rfl⟩
  · intro next hnext
    obtain ⟨-, -, -, rfl⟩ := h.run_enter_eq_ok_iff.1 hnext
    rfl
  · exact fun error next => eq_of_run_enter_error

/-- Whatever calls were made on an empty registry, the references of its
entries are acyclic, its graph has exactly their edges, each once, and the next
call is answered by what it would do to them. -/
theorem calls_keep_coherent (namespaces : List String) (calls : List Entry) :
    ((empty namespaces).afterAll calls).Coherent namespaces ∧
      ((empty namespaces).afterAll calls).graph.edges.Nodup ∧
      ∀ entry, ((empty namespaces).afterAll calls).Answers entry := by
  have hcoherent := (coherent_empty namespaces).afterAll calls
  exact ⟨hcoherent, hcoherent.once, hcoherent.answers⟩

end Registry

end ResourceTypes
