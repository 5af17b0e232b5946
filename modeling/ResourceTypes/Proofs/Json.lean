import ResourceTypes.Json.Literal
import ResourceTypes.Proofs.Members

/-!
Values of JSON literals are proper: an object that is read has one member of
each name, however often the text repeats it.
-/

namespace ResourceTypes

theorem Members.forall_insert {α : Type} {P : α → Prop} {members : Members α} {name : String}
    {value : α} (hmembers : ∀ pair ∈ members, P pair.2) (hvalue : P value) :
    ∀ pair ∈ members.insert name value, P pair.2 := by
  induction members with
  | nil => simpa [insert] using hvalue
  | cons first rest ih =>
      rw [List.forall_mem_cons] at hmembers
      rw [insert]
      split
      · exact List.forall_mem_cons.2 ⟨hvalue, hmembers.2⟩
      · exact List.forall_mem_cons.2 ⟨hmembers.1, ih hmembers.2⟩

theorem Members.forall_ofList {α : Type} {P : α → Prop} {pairs : List (String × α)}
    (hpairs : ∀ pair ∈ pairs, P pair.2) : ∀ pair ∈ Members.ofList pairs, P pair.2 := by
  suffices ∀ start : Members α, (∀ pair ∈ start, P pair.2) →
      ∀ pair ∈ pairs.foldl (fun members pair => members.insert pair.1 pair.2) start, P pair.2 from
    this [] (by simp)
  induction pairs with
  | nil => exact fun _ h => h
  | cons first rest ih =>
      rw [List.forall_mem_cons] at hpairs
      exact fun start h => ih hpairs.2 _ (forall_insert h hpairs.1)

namespace Json

theorem properItems_iff {items : List Json} : ProperItems items ↔ ∀ item ∈ items, item.Proper := by
  induction items with
  | nil => simp [ProperItems]
  | cons item rest ih => simp [ProperItems, ih]

theorem properMembers_iff {members : Members Json} :
    ProperMembers members ↔ ∀ pair ∈ members, pair.2.Proper := by
  induction members with
  | nil => simp [ProperMembers]
  | cons pair rest ih => simp [ProperMembers, ih]

theorem proper_ofPairs {pairs : List (String × Json)} (h : ∀ pair ∈ pairs, pair.2.Proper) :
    (ofPairs pairs).Proper := by
  rw [ofPairs, Proper, properMembers_iff]
  exact ⟨Members.nodup_names_ofList pairs, Members.forall_ofList h⟩

namespace Literal

mutual

/-- The scalars of a literal hold proper values. -/
def Flat : Literal → Prop
  | .scalar value? => ∀ value ∈ value?, value.Proper
  | .array items => FlatItems items
  | .object members => FlatMembers members

def FlatItems : List Literal → Prop
  | [] => True
  | item :: rest => item.Flat ∧ FlatItems rest

def FlatMembers : List (Option String × Literal) → Prop
  | [] => True
  | (_, value) :: rest => value.Flat ∧ FlatMembers rest

end

theorem flatItems_iff {items : List Literal} : FlatItems items ↔ ∀ item ∈ items, item.Flat := by
  induction items with
  | nil => simp [FlatItems]
  | cons item rest ih => simp [FlatItems, ih]

theorem flatMembers_iff {members : List (Option String × Literal)} :
    FlatMembers members ↔ ∀ member ∈ members, member.2.Flat := by
  induction members with
  | nil => simp [FlatMembers]
  | cons member rest ih => simp [FlatMembers, ih]

mutual

theorem proper_of_toJson? : ∀ (literal : Literal) (value : Json), literal.Flat →
    literal.toJson? = some value → value.Proper
  | .scalar value?, value, hflat, h => hflat value h
  | .array items, value, hflat, h => by
    obtain ⟨values, hvalues, rfl⟩ := Option.map_eq_some_iff.1 h
    exact properItems_iff.2 (proper_of_itemsToJson? items values hflat hvalues)
  | .object members, value, hflat, h => by
    obtain ⟨pairs, hpairs, rfl⟩ := Option.map_eq_some_iff.1 h
    exact proper_ofPairs (proper_of_membersToJson? members pairs hflat hpairs)

theorem proper_of_itemsToJson? : ∀ (items : List Literal) (values : List Json), FlatItems items →
    itemsToJson? items = some values → ∀ value ∈ values, value.Proper
  | [], values, _, h => by
    obtain rfl := Option.some.inj h
    simp
  | item :: rest, values, hflat, h => by
    simp only [itemsToJson?, Option.bind_eq_bind, Option.bind_eq_some_iff] at h
    obtain ⟨value, hvalue, others, hothers, h⟩ := h
    obtain rfl := Option.some.inj h
    rw [List.forall_mem_cons]
    exact ⟨proper_of_toJson? item value hflat.1 hvalue,
      proper_of_itemsToJson? rest others hflat.2 hothers⟩

theorem proper_of_membersToJson? : ∀ (members : List (Option String × Literal))
    (pairs : List (String × Json)), FlatMembers members → membersToJson? members = some pairs →
      ∀ pair ∈ pairs, pair.2.Proper
  | [], pairs, _, h => by
    obtain rfl := Option.some.inj h
    simp
  | (name?, value) :: rest, pairs, hflat, h => by
    simp only [membersToJson?, Option.bind_eq_bind, Option.bind_eq_some_iff] at h
    obtain ⟨name, -, member, hmember, others, hothers, h⟩ := h
    obtain rfl := Option.some.inj h
    rw [List.forall_mem_cons]
    exact ⟨proper_of_toJson? value member hflat.1 hmember,
      proper_of_membersToJson? rest others hflat.2 hothers⟩

end

theorem proper_of_wholeNumber? {negative : Bool} {digits : List Char} {value : Json}
    (h : wholeNumber? negative digits = some value) : value.Proper := by
  unfold wholeNumber? at h
  extract_lets size n at h
  split at h
  · obtain rfl := Option.some.inj h
    trivial
  · obtain ⟨_, -, rfl⟩ := Option.map_eq_some_iff.1 h
    trivial

theorem proper_of_readNumber {negative : Bool} {input rest : List Char} {value? : Option Json}
    (h : readNumber negative input = some (value?, rest)) : ∀ value ∈ value?, value.Proper := by
  simp only [readNumber, Option.bind_eq_bind, Option.bind_eq_some_iff] at h
  obtain ⟨⟨whole, afterWhole⟩, -, h⟩ := h
  split at h
  · cases h
  · simp only [Option.pure_def, Option.bind_eq_some_iff] at h
    obtain ⟨⟨fraction, afterFraction⟩, -, ⟨exponent?, afterExponent⟩, -, h⟩ := h
    split at h
    · cases h
      exact fun value hvalue => proper_of_wholeNumber? hvalue
    · cases h
      intro value hvalue
      obtain ⟨_, -, rfl⟩ := Option.map_eq_some_iff.1 hvalue
      trivial

theorem proper_of_readScalar {input rest : List Char} {value? : Option Json}
    (h : readScalar input = some (value?, rest)) : ∀ value ∈ value?, value.Proper := by
  unfold readScalar at h
  split at h
  · cases h
    simp [Proper]
  · cases h
    simp [Proper]
  · cases h
    simp [Proper]
  · obtain ⟨⟨text?, after⟩, -, h⟩ := Option.map_eq_some_iff.1 h
    cases h
    intro value hvalue
    obtain ⟨text, -, rfl⟩ := Option.map_eq_some_iff.1 hvalue
    trivial
  · exact proper_of_readNumber h
  · exact proper_of_readNumber h

/-- Everything that is read is flat: the readers of values, items and members
call each other with one step of fuel less. -/
theorem flat_of_read (fuel : Nat) :
    (∀ input literal rest, readValue fuel input = some (literal, rest) → literal.Flat) ∧
      (∀ input items rest, readItems fuel input = some (items, rest) → FlatItems items) ∧
      ∀ input members rest, readMembers fuel input = some (members, rest) →
        FlatMembers members := by
  induction fuel with
  | zero => simp [readValue, readItems, readMembers]
  | succ fuel ih =>
      obtain ⟨hvalue, hitems, hmembers⟩ := ih
      refine ⟨fun input literal rest h => ?_, fun input items rest h => ?_,
        fun input members rest h => ?_⟩
      · rw [readValue] at h
        split at h
        · split at h
          · cases h
            trivial
          · obtain ⟨⟨items, after⟩, hread, h⟩ := Option.map_eq_some_iff.1 h
            cases h
            exact hitems _ _ _ hread
        · split at h
          · cases h
            trivial
          · obtain ⟨⟨members, after⟩, hread, h⟩ := Option.map_eq_some_iff.1 h
            cases h
            exact hmembers _ _ _ hread
        · obtain ⟨⟨value?, after⟩, hread, h⟩ := Option.map_eq_some_iff.1 h
          cases h
          exact proper_of_readScalar hread
      · simp only [readItems, Option.bind_eq_bind, Option.bind_eq_some_iff] at h
        obtain ⟨⟨item, after⟩, hitem, h⟩ := h
        split at h
        · cases h
          exact ⟨hvalue _ _ _ hitem, trivial⟩
        · obtain ⟨⟨others, last⟩, hothers, h⟩ := Option.bind_eq_some_iff.1 h
          cases h
          exact ⟨hvalue _ _ _ hitem, hitems _ _ _ hothers⟩
        · cases h
      · simp only [readMembers, Option.bind_eq_bind, Option.bind_eq_some_iff] at h
        obtain ⟨⟨name?, afterName⟩, -, ⟨value, after⟩, hmember, h⟩ := h
        split at h
        · cases h
          exact ⟨hvalue _ _ _ hmember, trivial⟩
        · obtain ⟨⟨others, last⟩, hothers, h⟩ := Option.bind_eq_some_iff.1 h
          cases h
          exact ⟨hvalue _ _ _ hmember, hmembers _ _ _ hothers⟩
        · cases h

/-- The literal that a text is read as is flat. -/
theorem flat_of_ofText? {text : String} {literal : Literal} (h : ofText? text = some literal) :
    literal.Flat := by
  simp only [ofText?, Option.bind_eq_bind, Option.bind_eq_some_iff] at h
  obtain ⟨⟨found, rest⟩, hread, hrest⟩ := h
  split at hrest
  · obtain rfl := Option.some.inj hrest
    exact (flat_of_read _).1 _ _ _ hread
  · cases hrest

end Literal

end Json

end ResourceTypes
