import Mathlib.Data.List.Nodup
import Mathlib.Tactic.Tauto
import ResourceTypes.Proofs.Registry.Acyclicity
import ResourceTypes.Proofs.Schema.Verdict

/-!
How a registry grows. New entries change nothing for the ids registered before
them, and a type all of whose references are registered is never refused.
-/

namespace ResourceTypes

namespace TypeTable

variable {table old new : TypeTable} {id target : String} {entry : Entry}

/-- An id has an entry. -/
def Registered (table : TypeTable) (id : String) : Prop := ∃ entry, table.find? id = some entry

theorem not_registered_iff : ¬ table.Registered id ↔ table.find? id = none := by
  cases hfound : table.find? id <;> simp [Registered, hfound]

theorem registered_iff_mem : table.Registered id ↔ id ∈ table.entries.map (·.id) := by
  simp only [Registered, ← Option.isSome_iff_exists, find?, List.find?_isSome, List.mem_map,
    beq_iff_eq]

theorem id_of_find? (h : table.find? id = some entry) : entry.id = id := by
  simpa using List.find?_some h

/-- Registered ids refer to registered ids alone. -/
def Closed (table : TypeTable) : Prop :=
  ∀ id target, table.RefersTo id target → table.Registered target

/-- A table with all entries of another, and more. -/
structure Extends (old new : TypeTable) : Prop where
  namespaces : new.namespaces = old.namespaces
  find : ∀ id entry, old.find? id = some entry → new.find? id = some entry

theorem Extends.refl (table : TypeTable) : Extends table table := ⟨rfl, fun _ _ h => h⟩

theorem Extends.trans {last : TypeTable} (h : Extends old new) (h' : Extends new last) :
    Extends old last :=
  ⟨h'.namespaces.trans h.namespaces,
    fun id entry hentry => h'.find id entry (h.find id entry hentry)⟩

theorem Extends.registered (h : Extends old new) (hid : old.Registered id) : new.Registered id := by
  obtain ⟨entry, hentry⟩ := hid
  exact ⟨entry, h.find id entry hentry⟩

theorem references_of_find? (h : table.find? id = some entry) :
    table.references id = entry.references := by
  rw [references, h]

theorem mem_references_iff (h : table.find? id = some entry) :
    table.RefersTo id target ↔ target ∈ entry.type.references := by
  rw [RefersTo, references_of_find? h, Entry.references, TypeDescriptor.directReferences,
    List.mem_eraseDups]

/-- A type that refers to nothing can be bound wherever its id is allowed. -/
theorem bindable_of_leaf {document : Option String} (hfind : table.find? id = some entry)
    (hleaf : entry.type.references = []) (hother : document ≠ some id)
    (hallowed : ∃ space ∈ table.namespaces, Within space id) :
    Binding.Bindable ⟨table, document⟩ id := by
  have hends : ∀ next, ¬ table.RefersTo id next := fun next hnext => by
    rw [mem_references_iff hfind, hleaf] at hnext
    cases hnext
  refine ⟨hallowed, hother, ⟨entry, hfind⟩, fun target hreaches => ?_⟩
  rcases hreaches.cases_head with rfl | ⟨next, hnext, -⟩
  · refine ⟨hother, fun hcycle => ?_⟩
    obtain ⟨next, hnext, -⟩ := Relation.TransGen.head'_iff.1 hcycle
    exact hends next hnext
  · exact absurd hnext (hends next)

theorem Extends.refersTo (h : Extends old new) (hid : old.Registered id)
    (hrefers : new.RefersTo id target) : old.RefersTo id target := by
  obtain ⟨entry, hentry⟩ := hid
  rw [mem_references_iff hentry]
  rwa [mem_references_iff (h.find id entry hentry)] at hrefers

/-- From a registered id, new entries open no way to any other id. -/
theorem Extends.reaches (h : Extends old new) (hclosed : Closed old) (hid : old.Registered id)
    (hreaches : new.Reaches id target) : old.Reaches id target ∧ old.Registered target := by
  induction hreaches with
  | refl => exact ⟨.refl, hid⟩
  | tail _ hstep ih =>
      obtain ⟨hold, hregistered⟩ := ih
      have hstep' := h.refersTo hregistered hstep
      exact ⟨hold.tail hstep', hclosed _ _ hstep'⟩

theorem Extends.onCycle (h : Extends old new) (hclosed : Closed old) (hid : old.Registered id)
    (hcycle : new.OnCycle id) : old.OnCycle id := by
  obtain ⟨next, hnext, hback⟩ := Relation.TransGen.head'_iff.1 hcycle
  have hnext' := h.refersTo hid hnext
  exact Relation.TransGen.head'_iff.2
    ⟨next, hnext', (h.reaches hclosed (hclosed _ _ hnext') hback).1⟩

/-- What can be bound stays so as the table grows. -/
theorem Extends.bindable (h : Extends old new) (hclosed : Closed old) {document : Option String}
    (hbindable : Binding.Bindable ⟨old, document⟩ id) : Binding.Bindable ⟨new, document⟩ id := by
  refine ⟨?_, hbindable.other, h.registered hbindable.registered, fun target hreaches => ?_⟩
  · rw [h.namespaces]
    exact hbindable.allowed
  · obtain ⟨hold, hregistered⟩ := h.reaches hclosed hbindable.registered hreaches
    obtain ⟨hother, hacyclic⟩ := hbindable.clear target hold
    exact ⟨hother, fun hcycle => hacyclic (h.onCycle hclosed hregistered hcycle)⟩

end TypeTable

namespace ReferenceGraph

theorem mem_foldl_addEdge {source : String} {targets : List String} {graph : ReferenceGraph}
    {edge : String × String} :
    edge ∈ (targets.foldl (·.addEdge source ·) graph).edges ↔
      edge ∈ graph.edges ∨ edge.1 = source ∧ edge.2 ∈ targets := by
  induction targets generalizing graph with
  | nil => simp
  | cons target rest ih =>
      rw [List.foldl_cons, ih]
      obtain ⟨first, last⟩ := edge
      simp only [addEdge, List.mem_cons, Prod.mk.injEq]
      tauto

end ReferenceGraph

namespace Registry

variable {registry next : Registry} {id : String} {type : TypeDescriptor}

theorem register_eq_ok_iff :
    registry.register id type = .ok next ↔
      id ≠ "" ∧ registry.table.find? id = none ∧
        (∀ via ∈ Entry.references ⟨id, type⟩, registry.graph.closesCycle id via = false) ∧
        next = registry.add ⟨id, type⟩ := by
  have hcontains : registry.contains id = true ↔ ¬ registry.table.find? id = none := by
    rw [contains, ← Option.ne_none_iff_isSome]
  unfold register
  by_cases hid : id = ""
  · simp [hid]
  by_cases hnew : registry.table.find? id = none
  · rw [if_neg hid, if_neg (by rw [hcontains, not_not]; exact hnew)]
    cases hfind : (Entry.references ⟨id, type⟩).find? (registry.graph.closesCycle id) with
    | some via =>
        have hvia := List.mem_of_find?_eq_some hfind
        have hcloses := List.find?_some hfind
        simp only [reduceCtorEq, false_iff]
        rintro ⟨-, -, hopen, -⟩
        rw [hopen via hvia] at hcloses
        cases hcloses
    | none =>
        have hopen : ∀ via ∈ Entry.references ⟨id, type⟩,
            registry.graph.closesCycle id via = false := by
          simpa using List.find?_eq_none.1 hfind
        rw [Except.ok.injEq]
        exact ⟨fun heq => ⟨hid, hnew, hopen, heq.symm⟩, fun ⟨_, _, _, heq⟩ => heq.symm⟩
  · rw [if_neg hid, if_pos (hcontains.2 hnew)]
    exact ⟨nofun, fun ⟨_, h, _⟩ => absurd h hnew⟩

/-- A new type is registered if no edge leads to its id and it does not refer to itself. -/
theorem register_eq_ok (hid : id ≠ "") (hnew : registry.table.find? id = none)
    (hself : id ∉ type.references) (hedges : ∀ edge ∈ registry.graph.edges, edge.2 ≠ id) :
    registry.register id type = .ok (registry.add ⟨id, type⟩) := by
  refine register_eq_ok_iff.2 ⟨hid, hnew, fun via hvia => ?_, rfl⟩
  rw [Entry.references, TypeDescriptor.directReferences, List.mem_eraseDups] at hvia
  rw [← Bool.not_eq_true, ReferenceGraph.closesCycle_iff]
  intro hleads
  -- a way to the new id would be empty, or end with an edge to it
  cases hleads with
  | refl => exact hself hvia
  | tail _ hedge => exact hedges _ hedge rfl

theorem find?_add (entry : Entry) (id : String) :
    (registry.add entry).table.find? id =
      (registry.table.find? id).or (if entry.id = id then some entry else none) := by
  rw [add, TypeTable.find?, TypeTable.find?, List.find?_append]
  by_cases hid : entry.id = id <;> simp [hid]

theorem ids_add (entry : Entry) : (registry.add entry).table.entries.map (·.id) =
    registry.table.entries.map (·.id) ++ [entry.id] := by
  simp [add]

/-- Ids stay distinct if the entry that is added has a new one. -/
theorem nodup_ids_add {entry : Entry} (hdistinct : (registry.table.entries.map (·.id)).Nodup)
    (hnew : registry.table.find? entry.id = none) :
    ((registry.add entry).table.entries.map (·.id)).Nodup := by
  have hfresh : entry.id ∉ registry.table.entries.map (·.id) := by
    rw [← TypeTable.registered_iff_mem, TypeTable.not_registered_iff]
    exact hnew
  rw [ids_add, ← List.concat_eq_append, List.nodup_concat]
  exact ⟨hfresh, hdistinct⟩

theorem registered_add_iff {entry : Entry} :
    (registry.add entry).table.Registered id ↔ registry.table.Registered id ∨ entry.id = id := by
  simp only [TypeTable.Registered, find?_add]
  cases registry.table.find? id <;> simp

theorem extends_add (entry : Entry) :
    TypeTable.Extends registry.table (registry.add entry).table := by
  refine ⟨rfl, fun id known hknown => ?_⟩
  rw [find?_add, hknown]
  rfl

end Registry

end ResourceTypes
