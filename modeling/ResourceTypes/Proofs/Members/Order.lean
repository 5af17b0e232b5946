import Mathlib.Data.List.Forall2
import Mathlib.Data.List.Nodup
import ResourceTypes.Proofs.Members

/-!
Members in another order. Two lists of members correspond if they have the same
names, each once, with related values; put into one order, they are related
member by member.
-/

namespace ResourceTypes

section Rel

variable {α β : Type} {R S : α → β → Prop} {x : Option α} {y : Option β}

theorem rel_imp (h : Option.Rel R x y)
    (himp : ∀ a b, x = some a → y = some b → R a b → S a b) : Option.Rel S x y := by
  cases h with
  | none => exact .none
  | some hab => exact .some (himp _ _ rfl rfl hab)

theorem rel_isSome (h : Option.Rel R x y) : x.isSome = y.isSome := by
  cases h <;> rfl

theorem rel_exists (h : Option.Rel R x y) {a : α} (ha : x = some a) : ∃ b, y = some b ∧ R a b := by
  subst ha
  cases h with
  | some hab => exact ⟨_, rfl, hab⟩

theorem rel_flatMap_perm {γ : Type} (h : Option.Rel R x y) {f : α → List γ} {g : β → List γ}
    (hparts : ∀ a b, R a b → (f a).Perm (g b)) :
    (x.toList.flatMap f).Perm (y.toList.flatMap g) := by
  cases h with
  | none => exact .refl _
  | some hab => simpa using hparts _ _ hab

theorem rel_map {α' β' : Type} {S : α' → β' → Prop} (h : Option.Rel R x y) {f : α → α'}
    {g : β → β'} (hrelated : ∀ a b, R a b → S (f a) (g b)) : Option.Rel S (x.map f) (y.map g) := by
  cases h with
  | none => exact .none
  | some hab => exact .some (hrelated _ _ hab)

theorem eq_of_rel {x y : Option α} (h : Option.Rel Eq x y) : x = y := by
  cases h with
  | none => rfl
  | some heq => rw [heq]

end Rel

namespace Members

variable {α β γ : Type} {R S : α → β → Prop} {as : Members α} {bs : Members β}

/-- Two lists of members with the same names, each once, and related values. -/
structure Corresponds (R : α → β → Prop) (as : Members α) (bs : Members β) : Prop where
  distinct : (names as).Nodup
  names : (names as).Perm (names bs)
  values : ∀ name a b, (name, a) ∈ as → (name, b) ∈ bs → R a b

theorem Corresponds.distinct' (h : Corresponds R as bs) : (Members.names bs).Nodup :=
  h.names.nodup_iff.1 h.distinct

theorem Corresponds.symm (h : Corresponds R as bs) : Corresponds (fun b a => R a b) bs as :=
  ⟨h.distinct', h.names.symm, fun name b a hb ha => h.values name a b ha hb⟩

theorem Corresponds.imp (h : Corresponds R as bs)
    (himp : ∀ name a b, (name, a) ∈ as → (name, b) ∈ bs → R a b → S a b) : Corresponds S as bs :=
  ⟨h.distinct, h.names, fun name a b ha hb => himp name a b ha hb (h.values name a b ha hb)⟩

theorem mem_names_of_mem {name : String} {a : α} (h : (name, a) ∈ as) : name ∈ names as :=
  List.mem_map.2 ⟨(name, a), h, rfl⟩

theorem exists_of_mem_names {name : String} (h : name ∈ names as) : ∃ a, (name, a) ∈ as := by
  obtain ⟨⟨_, a⟩, hmem, rfl⟩ := List.mem_map.1 h
  exact ⟨a, hmem⟩

/-- Each member has one of its name, with a related value, on the other side. -/
theorem Corresponds.exists_right (h : Corresponds R as bs) {name : String} {a : α}
    (ha : (name, a) ∈ as) : ∃ b, (name, b) ∈ bs ∧ R a b := by
  obtain ⟨b, hb⟩ := exists_of_mem_names (h.names.mem_iff.1 (mem_names_of_mem ha))
  exact ⟨b, hb, h.values name a b ha hb⟩

theorem Corresponds.exists_left (h : Corresponds R as bs) {name : String} {b : β}
    (hb : (name, b) ∈ bs) : ∃ a, (name, a) ∈ as ∧ R a b :=
  h.symm.exists_right hb

/-- What is found under a name is related, or missing on both sides. -/
theorem Corresponds.get? (h : Corresponds R as bs) (name : String) :
    Option.Rel R (as.get? name) (bs.get? name) := by
  cases ha : as.get? name with
  | none =>
      rw [get?_eq_none_iff, h.names.mem_iff, ← get?_eq_none_iff] at ha
      rw [ha]
      exact .none
  | some a =>
      obtain ⟨b, hb, hab⟩ := h.exists_right (mem_of_get? ha)
      rw [get?_of_mem h.distinct' hb]
      exact .some hab

/-- Lists of members correspond if the same is found in both under each name. -/
theorem corresponds_iff (has : (names as).Nodup) (hbs : (names bs).Nodup) :
    Corresponds R as bs ↔ ∀ name, Option.Rel R (as.get? name) (bs.get? name) := by
  refine ⟨fun h => h.get?, fun h => ⟨has, ?_, fun name a b ha hb => ?_⟩⟩
  · refine (List.perm_ext_iff_of_nodup has hbs).2 fun name => ?_
    rw [mem_names_iff, mem_names_iff, rel_isSome (h name)]
  · have hfound := h name
    rw [get?_of_mem has ha, get?_of_mem hbs hb] at hfound
    cases hfound with
    | some hab => exact hab

/-- The members on the right can be put into the order of those on the left. -/
theorem Corresponds.aligned (h : Corresponds R as bs) :
    ∃ cs, cs.Perm bs ∧ List.Forall₂ (fun a c => a.1 = c.1 ∧ R a.2 c.2) as cs := by
  induction as generalizing bs with
  | nil =>
      have hlength : bs.length = 0 := by simpa [Members.names] using h.names.length_eq.symm
      obtain rfl := List.eq_nil_of_length_eq_zero hlength
      exact ⟨[], .refl _, .nil⟩
  | cons pair rest ih =>
      obtain ⟨name, a⟩ := pair
      obtain ⟨b, hb, hab⟩ := h.exists_right List.mem_cons_self
      obtain ⟨before, after, rfl⟩ := List.append_of_mem hb
      have hperm : (before ++ (name, b) :: after).Perm ((name, b) :: (before ++ after)) :=
        List.perm_middle
      have hrest : Corresponds R rest (before ++ after) := by
        have hnames : (Members.names ((name, a) :: rest)).Perm
            (Members.names ((name, b) :: (before ++ after))) := h.names.trans (hperm.map _)
        refine ⟨(List.nodup_cons.1 h.distinct).2, List.Perm.cons_inv hnames, ?_⟩
        intro other x y hx hy
        refine h.values other x y (List.mem_cons_of_mem _ hx) (hperm.symm.subset ?_)
        exact List.mem_cons_of_mem _ hy
      obtain ⟨cs, hcs, haligned⟩ := ih hrest
      exact ⟨(name, b) :: cs, (hcs.cons _).trans hperm.symm, .cons ⟨rfl, hab⟩ haligned⟩

/-- Lists made member by member differ in order alone if those of related members do. -/
theorem Corresponds.flatMap_perm (h : Corresponds R as bs) {f : String × α → List γ}
    {g : String × β → List γ} (hparts : ∀ name a b, R a b → (f (name, a)).Perm (g (name, b))) :
    (as.flatMap f).Perm (bs.flatMap g) := by
  obtain ⟨cs, hcs, haligned⟩ := h.aligned
  refine List.Perm.trans ?_ (hcs.flatMap_right g)
  clear hcs h
  induction haligned with
  | nil => exact .refl _
  | @cons first second _ _ hfirst _ ih =>
      obtain ⟨name, a⟩ := first
      obtain ⟨_, b⟩ := second
      obtain ⟨rfl, hab⟩ := hfirst
      exact (hparts _ _ _ hab).append ih

theorem Corresponds.filter (h : Corresponds R as bs) (p : String → Bool) :
    Corresponds R (as.filter (p ·.1)) (bs.filter (p ·.1)) := by
  have hnames {α : Type} (xs : Members α) :
      Members.names (xs.filter (p ·.1)) = (Members.names xs).filter p := by
    rw [Members.names, Members.names, List.filter_map]
    rfl
  refine ⟨?_, ?_, fun name a b ha hb => ?_⟩
  · rw [hnames]
    exact h.distinct.filter p
  · rw [hnames, hnames]
    exact h.names.filter p
  · exact h.values name a b (List.mem_of_mem_filter ha) (List.mem_of_mem_filter hb)

theorem Corresponds.map (h : Corresponds R as bs) {α' β' : Type} {S : α' → β' → Prop}
    {f : α → α'} {g : β → β'} (hrelated : ∀ a b, R a b → S (f a) (g b)) :
    Corresponds S (as.map fun pair => (pair.1, f pair.2))
      (bs.map fun pair => (pair.1, g pair.2)) := by
  have hnames {α β : Type} (f : α → β) (xs : Members α) :
      Members.names (xs.map fun pair => (pair.1, f pair.2)) = Members.names xs := by
    simp [Members.names, Function.comp_def]
  refine ⟨?_, ?_, ?_⟩
  · rw [hnames]
    exact h.distinct
  · rw [hnames, hnames]
    exact h.names
  · rintro name _ _ hleft hright
    obtain ⟨⟨_, a⟩, ha, heq⟩ := List.mem_map.1 hleft
    obtain ⟨rfl, rfl⟩ := Prod.mk.inj heq
    obtain ⟨⟨_, b⟩, hb, heq⟩ := List.mem_map.1 hright
    obtain ⟨rfl, rfl⟩ := Prod.mk.inj heq
    exact hrelated a b (h.values _ a b ha hb)

end Members

end ResourceTypes
