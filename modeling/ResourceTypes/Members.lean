/-!
Named values in the order in which they were first written. A name written
again keeps its place and takes the new value.
-/

namespace ResourceTypes

abbrev Members (α : Type) := List (String × α)

namespace Members

variable {α : Type}

/-- The value of the first member of that name. -/
def get? : Members α → String → Option α
  | [], _ => none
  | (key, value) :: rest, name => if key = name then some value else get? rest name

/-- Writes a member: in place if the name is known, else at the end. -/
def insert : Members α → String → α → Members α
  | [], name, value => [(name, value)]
  | (key, old) :: rest, name, value =>
    if key = name then (key, value) :: rest else (key, old) :: insert rest name value

def names (members : Members α) : List String := members.map (·.1)

/-- Writes the members one after another. -/
def ofList (pairs : List (String × α)) : Members α :=
  pairs.foldl (fun members pair => members.insert pair.1 pair.2) []

@[simp] theorem names_nil : names ([] : Members α) = [] := rfl

@[simp] theorem names_cons (pair : String × α) (rest : Members α) :
    names (pair :: rest) = pair.1 :: names rest := rfl

theorem names_insert (members : Members α) (name : String) (value : α) :
    names (members.insert name value) =
      if name ∈ names members then names members else names members ++ [name] := by
  induction members with
  | nil => simp [insert]
  | cons pair rest ih =>
    obtain ⟨key, old⟩ := pair
    by_cases h : key = name
    · simp [insert, h]
    · have h' : name ≠ key := fun e => h e.symm
      by_cases hm : name ∈ names rest <;> simp [insert, h, h', ih, hm]

theorem nodup_names_insert {members : Members α} (h : (names members).Nodup)
    (name : String) (value : α) : (names (members.insert name value)).Nodup := by
  rw [names_insert]
  split
  · exact h
  · next hm =>
    rw [List.nodup_append]
    refine ⟨h, by simp, fun a ha b hb e => hm ?_⟩
    rw [List.mem_singleton] at hb
    exact hb ▸ e ▸ ha

theorem nodup_names_ofList (pairs : List (String × α)) : (names (ofList pairs)).Nodup := by
  suffices ∀ start : Members α, (names start).Nodup →
      (names (pairs.foldl (fun members pair => members.insert pair.1 pair.2) start)).Nodup from
    this [] (by simp)
  induction pairs with
  | nil => exact fun _ h => h
  | cons pair rest ih => exact fun start h => ih _ (nodup_names_insert h pair.1 pair.2)

theorem get?_insert (members : Members α) (name other : String) (value : α) :
    (members.insert name value).get? other =
      if name = other then some value else members.get? other := by
  induction members with
  | nil => simp [insert, get?]
  | cons pair rest ih =>
    obtain ⟨key, old⟩ := pair
    by_cases h : key = name
    · subst h
      by_cases ho : key = other <;> simp [insert, get?, ho]
    · by_cases ho : key = other
      · have hn : name ≠ other := fun e => h (ho.trans e.symm)
        rw [insert, if_neg h, get?, if_pos ho, get?, if_pos ho, if_neg hn]
      · rw [insert, if_neg h, get?, if_neg ho, ih, get?, if_neg ho]

end Members

end ResourceTypes
