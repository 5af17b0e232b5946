import ResourceTypes.Members

/-!
Looking up members. In a list without repeated names, what is found under a
name is exactly the member of that name.
-/

namespace ResourceTypes

namespace Members

variable {α : Type} {members : Members α} {name : String}

theorem get?_eq_none_iff : members.get? name = none ↔ name ∉ names members := by
  induction members with
  | nil => simp [get?]
  | cons pair rest ih =>
      obtain ⟨key, value⟩ := pair
      by_cases hkey : key = name
      · simp [get?, hkey]
      · have hname : name ≠ key := fun e => hkey e.symm
        simp [get?, hkey, hname, ih]

theorem mem_of_get? {value : α} (h : members.get? name = some value) :
    (name, value) ∈ members := by
  induction members with
  | nil => simp [get?] at h
  | cons pair rest ih =>
      obtain ⟨key, first⟩ := pair
      by_cases hkey : key = name
      · simp [get?, hkey] at h
        simp [hkey, h]
      · rw [get?, if_neg hkey] at h
        exact List.mem_cons_of_mem _ (ih h)

theorem get?_of_mem (hnodup : (names members).Nodup) {value : α} (h : (name, value) ∈ members) :
    members.get? name = some value := by
  induction members with
  | nil => cases h
  | cons pair rest ih =>
      obtain ⟨key, first⟩ := pair
      rw [names_cons, List.nodup_cons] at hnodup
      rcases List.mem_cons.1 h with heq | hrest
      · obtain ⟨rfl, rfl⟩ := Prod.mk.inj heq
        simp [get?]
      · have hkey : key ≠ name := by
          rintro rfl
          exact hnodup.1 (List.mem_map.2 ⟨_, hrest, rfl⟩)
        rw [get?, if_neg hkey, ih hnodup.2 hrest]

theorem mem_names_iff : name ∈ names members ↔ (members.get? name).isSome := by
  rw [← Option.ne_none_iff_isSome, Ne, get?_eq_none_iff, Decidable.not_not]

theorem mem_names_of_get? {value : α} (h : members.get? name = some value) :
    name ∈ names members := by
  rw [mem_names_iff, h]
  rfl

theorem exists_get?_of_mem_names (h : name ∈ names members) :
    ∃ value, members.get? name = some value :=
  Option.isSome_iff_exists.1 (mem_names_iff.1 h)

theorem get?_filter (p : String → Bool) (members : Members α) (name : String) :
    Members.get? (members.filter (p ·.1)) name = if p name then members.get? name else none := by
  induction members with
  | nil => simp [get?]
  | cons pair rest ih =>
      obtain ⟨key, value⟩ := pair
      by_cases hkey : key = name
      · subst hkey
        by_cases hp : p key <;> simp [hp, get?, ih]
      · by_cases hp : p key <;> simp [hp, get?, hkey, ih]

theorem insert_of_not_mem {value : α} (h : name ∉ names members) :
    members.insert name value = members ++ [(name, value)] := by
  induction members with
  | nil => rfl
  | cons pair rest ih =>
      obtain ⟨key, first⟩ := pair
      rw [names_cons, List.mem_cons, not_or] at h
      rw [insert, if_neg (fun e => h.1 e.symm), ih h.2, List.cons_append]

end Members

end ResourceTypes
