import Mathlib.Data.List.Chain
import ResourceTypes.Proofs.Schema.Verdict

/-!
The chain of a reference cycle. A walk stops at the first id that it meets
again, and what it reports is its own trail from the earlier visit on, so that
the chain is a way along references that comes back to where it began.
-/

namespace ResourceTypes

namespace TypeTable

variable {table : TypeTable} {walk ids chain : List String}

/-- How a walk comes back onto itself from one of some ids: it visits new ids,
each referred to by the one before it, and the last of them refers to an id
that was visited before. -/
structure Returns (table : TypeTable) (walk ids trail : List String) (last : String) : Prop where
  starts : ∀ first ∈ (trail ++ [last]).head?, first ∈ ids
  steps : (trail ++ [last]).IsChain table.RefersTo
  distinct : (walk ++ trail).Nodup
  met : last ∈ walk ++ trail

/-- A step further on the walk, the id that the step leads to becomes part of the trail. -/
theorem Returns.push {id last : String} {trail rest : List String}
    (h : Returns table (walk ++ [id]) (table.references id) trail last) :
    Returns table walk (id :: rest) (id :: trail) last := by
  obtain ⟨hstarts, hsteps, hdistinct, hmet⟩ := h
  rw [List.append_assoc, List.singleton_append] at hdistinct hmet
  refine ⟨by simp, ?_, hdistinct, hmet⟩
  rw [List.cons_append, List.isChain_cons]
  exact ⟨hstarts, hsteps⟩

theorem Returns.skip {id last : String} {trail rest : List String}
    (h : Returns table walk rest trail last) : Returns table walk (id :: rest) trail last :=
  ⟨fun first hfirst => List.mem_cons_of_mem _ (h.starts first hfirst), h.steps, h.distinct, h.met⟩

/-- A walk that finds a cycle has come back onto itself, and the chain is what
it has visited since it was there first. -/
theorem returns_of_firstCycle (hwalk : walk.Nodup) (h : table.firstCycle walk ids = some chain) :
    ∃ trail last, Returns table walk ids trail last ∧
      chain = (walk ++ trail).dropWhile (· != last) ++ [last] := by
  induction walk, ids using firstCycle.induct table with
  | case1 walk =>
      rw [firstCycle] at h
      cases h
  | case2 walk id rest hmet =>
      rw [firstCycle, if_pos hmet] at h
      obtain rfl := Option.some.inj h
      have hreturns : Returns table walk (id :: rest) [] id :=
        ⟨by simp, List.isChain_singleton id, by simpa using hwalk, by simpa using hmet⟩
      exact ⟨[], id, hreturns, by rw [List.append_nil]⟩
  | case3 walk id rest hnew chain' hinner ih =>
      rw [firstCycle, if_neg hnew, hinner] at h
      obtain rfl := Option.some.inj h
      have hpushed : (walk ++ [id]).Nodup := by
        rw [List.perm_append_comm.nodup_iff, List.singleton_append, List.nodup_cons]
        exact ⟨by simpa using hnew, hwalk⟩
      obtain ⟨trail, last, hreturns, hchain⟩ := ih hpushed hinner
      refine ⟨id :: trail, last, hreturns.push, ?_⟩
      rw [hchain, List.append_assoc, List.singleton_append]
  | case4 walk id rest hnew hinner ih ihrest =>
      rw [firstCycle, if_neg hnew, hinner] at h
      obtain ⟨trail, last, hreturns, hchain⟩ := ihrest hwalk h
      exact ⟨trail, last, hreturns.skip, hchain⟩

/-- In a list without repetitions, the first visit of an id is its only one. -/
theorem dropWhile_eq_of_nodup {front rest : List String} {id : String}
    (h : (front ++ id :: rest).Nodup) :
    (front ++ id :: rest).dropWhile (· != id) = id :: rest := by
  have hfront : ∀ other ∈ front, (other != id) = true := by
    intro other hother
    rw [List.nodup_append] at h
    exact bne_iff_ne.2 (h.2.2 other hother id List.mem_cons_self)
  rw [List.dropWhile_append_of_pos hfront, List.dropWhile_cons_of_neg (by simp)]

/-- References lead from the first id of a chain to each of the others. -/
theorem reaches_of_isChain {first target : String} {rest : List String}
    (h : (first :: rest).IsChain table.RefersTo) (htarget : target ∈ first :: rest) :
    table.Reaches first target := by
  rcases List.mem_cons.1 htarget with rfl | hrest
  · exact .refl
  · have hleads : (first :: rest).IsChain table.Reaches := h.imp fun _ _ => .single
    exact hleads.rel_cons hrest

end TypeTable

namespace Binding

variable {scope : Scope} {id : String} {chain : List String}

/-- A way round, as it is told to the author of a reference to an id. It comes
back to its first id and meets no id twice in between, and each step but the
one from the document to the id is a reference of a registered type. A way
round that does not begin at the document does not lead through it. -/
inductive Circuit (scope : Scope) (id : String) : List String → Prop
  | throughDocument {document : String} {inner : List String}
      (own : scope.document = some document) (distinct : (document :: id :: inner).Nodup)
      (steps : (id :: inner ++ [document]).IsChain scope.table.RefersTo) :
      Circuit scope id (document :: id :: inner ++ [document])
  | amongTypes {first : String} {inner : List String}
      (elsewhere : ∀ document ∈ scope.document, document ∉ first :: inner)
      (distinct : (first :: inner).Nodup)
      (steps : (first :: inner ++ [first]).IsChain scope.table.RefersTo)
      (leads : scope.table.Reaches id first) :
      Circuit scope id (first :: inner ++ [first])

/-- The chain that a lone look-up of an id reports is a way round. -/
theorem circuit_of_firstCycle (hother : scope.document ≠ some id)
    (h : scope.table.firstCycle scope.document.toList [id] = some chain) :
    Circuit scope id chain := by
  have hwalk : scope.document.toList.Nodup := by cases scope.document <;> simp
  obtain ⟨trail, last, ⟨hstarts, hsteps, hdistinct, hmet⟩, rfl⟩ :=
    TypeTable.returns_of_firstCycle hwalk h
  by_cases hown : scope.document = some last
  · -- the walk is back at the document, and reports all of its trail
    cases trail with
    | nil =>
        obtain rfl : last = id := by simpa using hstarts
        exact absurd hown hother
    | cons first inner =>
        obtain rfl : first = id := by simpa using hstarts
        simp only [hown, Option.toList_some, List.singleton_append] at hdistinct ⊢
        rw [List.dropWhile_cons_of_neg (by simp)]
        exact .throughDocument hown hdistinct hsteps
  · -- the walk met a type that it had visited, and reports what came after that visit
    have htrail : last ∈ trail := by
      rcases List.mem_append.1 hmet with hdocument | htrail
      · exact absurd (Option.mem_toList.1 hdocument) hown
      · exact htrail
    obtain ⟨front, inner, rfl⟩ := List.append_of_mem htrail
    rw [← List.append_assoc] at hdistinct ⊢
    rw [TypeTable.dropWhile_eq_of_nodup hdistinct]
    rw [List.append_assoc, List.nodup_append] at hdistinct
    obtain ⟨-, hdistinct, hapart⟩ := hdistinct
    rw [List.append_assoc] at hsteps
    refine .amongTypes ?_ (List.nodup_append.1 hdistinct).2.1 (hsteps.suffix ⟨front, rfl⟩) ?_
    · intro document hdocument hmem
      exact hapart document (Option.mem_toList.2 hdocument) document
        (List.mem_append_right _ hmem) rfl
    · cases front with
      | nil =>
          obtain rfl : last = id := by simpa using hstarts
          exact .refl
      | cons first front =>
          obtain rfl : first = id := by simpa using hstarts
          exact TypeTable.reaches_of_isChain hsteps (by simp)

/-- Whatever the look-ups before it have cleared, a reference that is found to
be on a cycle is told a way round. -/
theorem circuit_of_verdict (h : verdict scope id = .error (.cycle chain)) :
    Circuit scope id chain := by
  rw [verdict, lookup_fst (TypeTable.settled_nil _ _)] at h
  split at h
  · cases h
  · split at h
    · cases h
    · next hother =>
      split at h
      · cases h
      · split at h
        · next found hfound =>
          obtain rfl := BindingFault.cycle.inj (Except.error.inj h)
          exact circuit_of_firstCycle hother hfound
        · cases h

end Binding

end ResourceTypes
