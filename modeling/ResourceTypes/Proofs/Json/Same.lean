import Mathlib.Data.List.Perm.Subperm
import ResourceTypes.Proofs.Json
import ResourceTypes.Proofs.Members.Order

/-!
Equality of JSON values up to the order of members. On proper values it is an
equivalence as far as needed here, and equal values are of the same JSON type.
-/

namespace ResourceTypes

theorem forall₂_flip_of_mem {α β : Type} {R : α → β → Prop} {S : β → α → Prop} {xs : List α}
    {ys : List β} (h : List.Forall₂ R xs ys) (himp : ∀ x ∈ xs, ∀ y ∈ ys, R x y → S y x) :
    List.Forall₂ S ys xs := by
  induction h with
  | nil => exact .nil
  | cons hfirst _ ih =>
      refine .cons (himp _ List.mem_cons_self _ List.mem_cons_self hfirst) (ih ?_)
      exact fun x hx y hy => himp x (List.mem_cons_of_mem _ hx) y (List.mem_cons_of_mem _ hy)

namespace Json

/-- The values directly inside a value. -/
def parts : Json → List Json
  | .array items => items
  | .object members => members.map (·.2)
  | _ => []

theorem sizeOf_part_lt {value part : Json} (h : part ∈ value.parts) :
    sizeOf part < sizeOf value := by
  cases value with
  | array items =>
      have hmem : part ∈ items := h
      have hlt := List.sizeOf_lt_of_mem hmem
      simp only [array.sizeOf_spec]
      omega
  | object members =>
      obtain ⟨⟨name, inner⟩, hmem, rfl⟩ := List.mem_map.1 h
      have hlt := List.sizeOf_lt_of_mem hmem
      simp only [Prod.mk.sizeOf_spec] at hlt
      simp only [object.sizeOf_spec]
      omega
  | _ => cases h

/-- Induction over a value: a property goes from all values inside to the whole. -/
theorem induct {P : Json → Prop} (step : ∀ value : Json, (∀ part ∈ value.parts, P part) → P value)
    (value : Json) : P value :=
  step value fun part _ => induct step part
termination_by sizeOf value
decreasing_by exact sizeOf_part_lt ‹_›

section Same

variable {a b : Json} {as bs : Members Json}

theorem sameItems_iff {as bs : List Json} :
    sameItems as bs = true ↔ List.Forall₂ (fun a b => a.same b = true) as bs := by
  induction as generalizing bs with
  | nil => cases bs <;> simp [sameItems]
  | cons a rest ih => cases bs <;> simp [sameItems, ih]

theorem sameMembers_iff :
    sameMembers as bs = true ↔
      ∀ name a, (name, a) ∈ as → ∃ b, Members.get? bs name = some b ∧ a.same b = true := by
  induction as with
  | nil => simp [sameMembers]
  | cons pair rest ih =>
      obtain ⟨name, a⟩ := pair
      rw [sameMembers, Bool.and_eq_true, ih]
      constructor
      · rintro ⟨hfirst, hrest⟩ other value hmem
        rcases List.mem_cons.1 hmem with heq | hmem
        · obtain ⟨rfl, rfl⟩ := Prod.mk.inj heq
          cases hfound : Members.get? bs other with
          | none => simp [hfound] at hfirst
          | some b => exact ⟨b, rfl, by simpa [hfound] using hfirst⟩
        · exact hrest other value hmem
      · intro h
        obtain ⟨b, hb, hsame⟩ := h name a List.mem_cons_self
        refine ⟨by simpa [hb] using hsame, fun other value hmem => ?_⟩
        exact h other value (List.mem_cons_of_mem _ hmem)

/-- Objects are the same if their members correspond. -/
theorem same_object_iff (has : (Members.names as).Nodup) (hbs : (Members.names bs).Nodup) :
    (Json.object as).same (.object bs) = true ↔
      Members.Corresponds (fun a b => a.same b = true) as bs := by
  rw [same, Bool.and_eq_true, beq_iff_eq, sameMembers_iff]
  constructor
  · rintro ⟨hlength, hmembers⟩
    have hsubset : Members.names as ⊆ Members.names bs := by
      intro name hname
      obtain ⟨a, ha⟩ := Members.exists_of_mem_names hname
      obtain ⟨b, hb, -⟩ := hmembers name a ha
      exact Members.mem_names_of_mem (Members.mem_of_get? hb)
    refine ⟨has, ?_, fun name a b ha hb => ?_⟩
    · refine (List.subperm_of_subset has hsubset).perm_of_length_le ?_
      simp [Members.names, hlength]
    · obtain ⟨b', hb', hsame⟩ := hmembers name a ha
      obtain rfl := Option.some.inj (hb'.symm.trans (Members.get?_of_mem hbs hb))
      exact hsame
  · intro h
    refine ⟨by simpa [Members.names] using h.names.length_eq, fun name a ha => ?_⟩
    obtain ⟨b, hb, hsame⟩ := h.exists_right ha
    exact ⟨b, Members.get?_of_mem hbs hb, hsame⟩

theorem eq_string_of_same {text : String} (h : (Json.string text).same b = true) :
    b = .string text := by
  cases b <;> simp_all [same]

theorem eq_bool_of_same {flag : Bool} (h : (Json.bool flag).same b = true) : b = .bool flag := by
  cases b <;> simp_all [same]

theorem exists_array_of_same {items : List Json} (h : (Json.array items).same b = true) :
    ∃ others, b = .array others ∧ List.Forall₂ (fun a b => a.same b = true) items others := by
  cases b with
  | array others => exact ⟨others, rfl, sameItems_iff.1 h⟩
  | _ => cases h

theorem exists_object_of_same (has : (Json.object as).Proper) (hb : b.Proper)
    (h : (Json.object as).same b = true) :
    ∃ bs, b = .object bs ∧ Members.Corresponds (fun a b => a.same b = true) as bs := by
  cases b with
  | object bs => exact ⟨bs, rfl, (same_object_iff has.1 hb.1).1 h⟩
  | _ => cases h

/-- A list of names is the same as itself alone. -/
theorem eq_names_of_same {names : List String}
    (h : (Json.array (names.map .string)).same b = true) :
    b = .array (names.map .string) := by
  obtain ⟨others, rfl, hitems⟩ := exists_array_of_same h
  clear h
  congr 1
  induction names generalizing others with
  | nil =>
      cases hitems
      rfl
  | cons name rest ih =>
      cases hitems with
      | cons hfirst hrest => rw [eq_string_of_same hfirst, List.map_cons, ih _ hrest]

/-- A proper value is the same as itself. -/
theorem same_refl (ha : a.Proper) : a.same a = true := by
  induction a using induct with
  | step a ih =>
      cases a with
      | array items =>
          have hitems := properItems_iff.1 ha
          refine sameItems_iff.2 (List.forall₂_same.2 fun item hitem => ?_)
          exact ih item hitem (hitems item hitem)
      | object members =>
          obtain ⟨hdistinct, hmembers⟩ := ha
          rw [properMembers_iff] at hmembers
          refine (same_object_iff hdistinct hdistinct).2 ⟨hdistinct, .refl _, ?_⟩
          intro name a b ha hb
          have heq : some a = some b :=
            (Members.get?_of_mem hdistinct ha).symm.trans (Members.get?_of_mem hdistinct hb)
          obtain rfl := Option.some.inj heq
          exact ih a (List.mem_map.2 ⟨_, ha, rfl⟩) (hmembers _ ha)
      | float value => simp [same, Binary64.same]
      | _ => simp [same]

theorem same_symm (ha : a.Proper) (hb : b.Proper) (h : a.same b = true) : b.same a = true := by
  induction a using induct generalizing b with
  | step a ih =>
      cases a with
      | array items =>
          obtain ⟨others, rfl, hitems⟩ := exists_array_of_same h
          have hproper := properItems_iff.1 ha
          have hproper' := properItems_iff.1 hb
          refine sameItems_iff.2 (forall₂_flip_of_mem hitems fun x hx y hy hsame => ?_)
          exact ih x hx (hproper x hx) (hproper' y hy) hsame
      | object members =>
          obtain ⟨others, rfl, hmembers⟩ := exists_object_of_same ha hb h
          have hproper := properMembers_iff.1 ha.2
          have hproper' := properMembers_iff.1 hb.2
          refine (same_object_iff hb.1 ha.1).2 (hmembers.symm.imp fun name y x hy hx hsame => ?_)
          exact ih x (List.mem_map.2 ⟨_, hx, rfl⟩) (hproper _ hx) (hproper' _ hy) hsame
      | null => cases b <;> simp_all [same]
      | bool flag => cases b <;> simp_all [same]
      | int n => cases b <;> simp_all [same]
      | string text => cases b <;> simp_all [same]
      | float x =>
          cases b with
          | float y =>
              simp only [same, Binary64.same, Bool.and_eq_true, Bool.or_eq_true, beq_iff_eq] at h ⊢
              obtain ⟨hmagnitude, hsign⟩ := h
              rw [← hmagnitude]
              exact ⟨rfl, hsign.imp_right Eq.symm⟩
          | _ => cases h

end Same

end Json

end ResourceTypes
