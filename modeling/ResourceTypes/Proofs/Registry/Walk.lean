import Mathlib.Logic.Relation
import ResourceTypes.Schema.Binding

/-!
The walk that looks for reference cycles. It finds one exactly if references
lead back onto the walk or onto a cycle, and ids that earlier walks have
cleared never change what it finds.
-/

namespace ResourceTypes

namespace TypeTable

/-- The type registered under one id refers to another. -/
def RefersTo (table : TypeTable) (source target : String) : Prop :=
  target ∈ table.references source

/-- References lead from one id to another, in any number of steps. -/
abbrev Reaches (table : TypeTable) : String → String → Prop :=
  Relation.ReflTransGen table.RefersTo

/-- References lead from an id back to it. -/
def OnCycle (table : TypeTable) (id : String) : Prop :=
  Relation.TransGen table.RefersTo id id

/-- References lead from an id neither onto the walk nor onto a cycle. -/
def Harmless (table : TypeTable) (walk : List String) (id : String) : Prop :=
  ∀ target, table.Reaches id target → target ∉ walk ∧ ¬ table.OnCycle target

/-- What holds of the cleared ids at every moment of a walk. -/
structure Settled (table : TypeTable) (walk cleared : List String) : Prop where
  closed : ∀ id ∈ cleared, ∀ target ∈ table.references id, target ∈ cleared
  offWalk : ∀ id ∈ cleared, id ∉ walk
  acyclic : ∀ id ∈ cleared, ¬ table.OnCycle id

variable {table : TypeTable} {walk cleared : List String} {id : String}

theorem settled_nil (table : TypeTable) (walk : List String) : Settled table walk [] := by
  constructor <;> simp

theorem Settled.mem_of_reaches (h : Settled table walk cleared) (hid : id ∈ cleared)
    {target : String} (hr : table.Reaches id target) : target ∈ cleared := by
  induction hr with
  | refl => exact hid
  | tail _ hstep ih => exact h.closed _ ih _ hstep

theorem Settled.harmless (h : Settled table walk cleared) (hid : id ∈ cleared) :
    Harmless table walk id := by
  intro target hr
  have hmem := h.mem_of_reaches hid hr
  exact ⟨h.offWalk target hmem, h.acyclic target hmem⟩

theorem Settled.push (h : Settled table walk cleared) (hid : id ∉ cleared) :
    Settled table (walk ++ [id]) cleared := by
  refine ⟨h.closed, fun other hother => ?_, h.acyclic⟩
  rw [List.mem_append, List.mem_singleton, not_or]
  exact ⟨h.offWalk other hother, fun e => hid (e ▸ hother)⟩

theorem Settled.pop (h : Settled table (walk ++ [id]) cleared) : Settled table walk cleared :=
  ⟨h.closed, fun other hother hw => h.offWalk other hother (List.mem_append_left _ hw), h.acyclic⟩

/-- An id all of whose references are cleared is not on a cycle: the cycle
would go through one of them, and lead from there back to the id. -/
theorem Settled.clear (h : Settled table (walk ++ [id]) cleared) (hid : id ∉ walk)
    (href : ∀ target ∈ table.references id, target ∈ cleared) :
    Settled table walk (id :: cleared) := by
  refine ⟨?_, ?_, ?_⟩
  · intro other hother target htarget
    rcases List.mem_cons.1 hother with rfl | hother
    · exact List.mem_cons_of_mem _ (href target htarget)
    · exact List.mem_cons_of_mem _ (h.closed other hother target htarget)
  · intro other hother
    rcases List.mem_cons.1 hother with rfl | hother
    · exact hid
    · exact h.pop.offWalk other hother
  · intro other hother
    rcases List.mem_cons.1 hother with rfl | hother
    · intro hcycle
      obtain ⟨next, hnext, hback⟩ := Relation.TransGen.head'_iff.1 hcycle
      exact h.offWalk _ (h.mem_of_reaches (href next hnext) hback) (by simp)
    · exact h.acyclic other hother

/-- What a harmless id refers to stays harmless when the walk goes on through
the id: a way back to it would be a cycle. -/
theorem Harmless.push (h : Harmless table walk id) {next : String}
    (hnext : next ∈ table.references id) : Harmless table (walk ++ [id]) next := by
  intro target hr
  obtain ⟨hwalk, hcycle⟩ := h target (Relation.ReflTransGen.head hnext hr)
  refine ⟨?_, hcycle⟩
  rw [List.mem_append, List.mem_singleton, not_or]
  refine ⟨hwalk, ?_⟩
  rintro rfl
  exact hcycle (Relation.TransGen.head'_iff.2 ⟨next, hnext, hr⟩)

/-- A walk keeps the invariant, and if it finds no cycle it clears its ids. -/
theorem findCycle_settled (h : Settled table walk cleared) (ids : List String) :
    Settled table walk (table.findCycle walk cleared ids).2 ∧
      ((table.findCycle walk cleared ids).1 = none →
        ∀ id, id ∈ ids ∨ id ∈ cleared → id ∈ (table.findCycle walk cleared ids).2) := by
  induction walk, cleared, ids using findCycle.induct table with
  | case1 walk cleared =>
      simpa [findCycle] using h
  | case2 walk cleared id rest hwalk =>
      simp [findCycle, List.contains_iff_mem.1 hwalk, h]
  | case3 walk cleared id rest hwalk hcleared ih =>
      rw [findCycle, if_neg hwalk, if_pos hcleared]
      obtain ⟨hsettled, hall⟩ := ih h
      refine ⟨hsettled, fun hnone other hother => hall hnone other ?_⟩
      rcases hother with hother | hother
      · rcases List.mem_cons.1 hother with rfl | hother
        · exact .inr (List.contains_iff_mem.1 hcleared)
        · exact .inl hother
      · exact .inr hother
  | case4 walk cleared id rest hwalk hcleared chain cleared' hinner ih =>
      -- cut short behind `id`: what was walked to its end stays cleared
      rw [findCycle, if_neg hwalk, if_neg hcleared, hinner]
      rw [hinner] at ih
      have hid : id ∉ cleared := by simpa using hcleared
      exact ⟨(ih (h.push hid)).1.pop, by simp⟩
  | case5 walk cleared id rest hwalk hcleared cleared' hinner ih ihrest =>
      -- nothing was found behind `id`, which is cleared before the rest is walked
      rw [findCycle, if_neg hwalk, if_neg hcleared, hinner]
      rw [hinner] at ih
      have hid : id ∉ cleared := by simpa using hcleared
      obtain ⟨hsettled, hall⟩ := ih (h.push hid)
      have hclear : Settled table walk (id :: cleared') :=
        hsettled.clear (by simpa using hwalk) fun target htarget => hall rfl target (.inl htarget)
      obtain ⟨hsettled', hall'⟩ := ihrest hclear
      refine ⟨hsettled', fun hnone other hother => hall' hnone other ?_⟩
      rcases hother with hother | hother
      · rcases List.mem_cons.1 hother with rfl | hother
        · exact .inr List.mem_cons_self
        · exact .inl hother
      · exact .inr (List.mem_cons_of_mem _ (hall rfl other (.inr hother)))

/-- The walk without memory: every id is walked on from, however often it is met. -/
def firstCycle (table : TypeTable) (walk : List String) : List String → Option (List String)
  | [] => none
  | id :: rest =>
    if walk.contains id then some (walk.dropWhile (· != id) ++ [id])
    else
      match table.firstCycle (walk ++ [id]) (table.references id) with
      | some chain => some chain
      | none => table.firstCycle walk rest
termination_by ids => (table.unwalked walk, ids.length)
decreasing_by
  · rename_i hwalk
    exact table.step_decreases walk id rest (by simpa using hwalk)
  · exact Prod.Lex.right _ (Nat.lt_succ_self _)

theorem firstCycle_of_harmless {ids : List String} (h : ∀ id ∈ ids, Harmless table walk id) :
    table.firstCycle walk ids = none := by
  induction walk, ids using firstCycle.induct table with
  | case1 walk => rw [firstCycle]
  | case2 walk id rest hwalk =>
      have hself := h id List.mem_cons_self id Relation.ReflTransGen.refl
      exact absurd (List.contains_iff_mem.1 hwalk) hself.1
  | case3 walk id rest hwalk chain hinner ih =>
      have hnone := ih fun next hnext => (h id List.mem_cons_self).push hnext
      simp [hinner] at hnone
  | case4 walk id rest hwalk hinner ih ihrest =>
      rw [firstCycle, if_neg hwalk, hinner]
      exact ihrest fun other hother => h other (List.mem_cons_of_mem _ hother)

/-- The cleared ids only save steps: what is found does not depend on them. -/
theorem findCycle_fst (h : Settled table walk cleared) (ids : List String) :
    (table.findCycle walk cleared ids).1 = table.firstCycle walk ids := by
  induction walk, cleared, ids using findCycle.induct table with
  | case1 walk cleared => rw [findCycle, firstCycle]
  | case2 walk cleared id rest hwalk => rw [findCycle, firstCycle, if_pos hwalk, if_pos hwalk]
  | case3 walk cleared id rest hwalk hcleared ih =>
      -- the step that is saved would have found nothing
      have hinner : table.firstCycle (walk ++ [id]) (table.references id) = none :=
        firstCycle_of_harmless fun next hnext =>
          (h.harmless (List.contains_iff_mem.1 hcleared)).push hnext
      rw [findCycle, firstCycle, if_neg hwalk, if_neg hwalk, if_pos hcleared, hinner]
      exact ih h
  | case4 walk cleared id rest hwalk hcleared chain cleared' hinner ih =>
      have hid : id ∉ cleared := by simpa using hcleared
      have hchain := ih (h.push hid)
      rw [hinner] at hchain
      rw [findCycle, firstCycle, if_neg hwalk, if_neg hwalk, if_neg hcleared, hinner, ← hchain]
  | case5 walk cleared id rest hwalk hcleared cleared' hinner ih ihrest =>
      have hid : id ∉ cleared := by simpa using hcleared
      have hnone := ih (h.push hid)
      obtain ⟨hsettled, hall⟩ := findCycle_settled (h.push hid) (table.references id)
      rw [hinner] at hnone hsettled hall
      have hclear : Settled table walk (id :: cleared') :=
        hsettled.clear (by simpa using hwalk) fun target htarget => hall rfl target (.inl htarget)
      rw [findCycle, firstCycle, if_neg hwalk, if_neg hwalk, if_neg hcleared, hinner, ← hnone]
      exact ihrest hclear

/-- A walk finds no cycle exactly if all its ids are harmless. -/
theorem firstCycle_eq_none_iff {ids : List String} :
    table.firstCycle walk ids = none ↔ ∀ id ∈ ids, Harmless table walk id := by
  refine ⟨fun hnone id hid => ?_, firstCycle_of_harmless⟩
  rw [← findCycle_fst (settled_nil table walk)] at hnone
  obtain ⟨hsettled, hall⟩ := findCycle_settled (settled_nil table walk) ids
  exact hsettled.harmless (hall hnone id (.inl hid))

/-- The walk sees nothing of a table but what its ids refer to. -/
theorem firstCycle_congr {other : TypeTable}
    (h : ∀ id, table.references id = other.references id) (walk ids : List String) :
    table.firstCycle walk ids = other.firstCycle walk ids := by
  induction walk, ids using firstCycle.induct table with
  | case1 walk => rw [firstCycle, firstCycle]
  | case2 walk id rest hwalk => rw [firstCycle, firstCycle, if_pos hwalk, if_pos hwalk]
  | case3 walk id rest hwalk chain hinner ih =>
      rw [h] at ih
      rw [firstCycle, firstCycle, if_neg hwalk, if_neg hwalk, hinner, ← ih, ← h, hinner]
  | case4 walk id rest hwalk hinner ih ihrest =>
      rw [h] at ih
      rw [firstCycle, firstCycle, if_neg hwalk, if_neg hwalk, hinner, ← ih, ← h, hinner]
      exact ihrest

end TypeTable

end ResourceTypes
