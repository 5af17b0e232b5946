import ResourceTypes.Proofs.Schema.Place

/-!
Where a malformed document is at fault. The reading of a schema ends at a place
of the document, and the value that stands there is the one that it complains of.
-/

namespace ResourceTypes

open ResourceTypes.Language

theorem bind_eq_error_iff {ε α β : Type} {step : Except ε α} {next : α → Except ε β} {error : ε} :
    step >>= next = .error error ↔
      step = .error error ∨ ∃ value, step = .ok value ∧ next value = .error error := by
  cases step <;> simp [bind, Except.bind]

/-- A cause is reported at a path that leads to a spot which it fits. -/
def Shown {α : Type} (document : Json) (Fits : α → Spot → Prop) (located : Located α) : Prop :=
  ∃ spot, Marks document located.path spot ∧ Fits located.cause spot

/-- A value is of the JSON type that is asked for. -/
def Demand.Met : Demand → Json → Prop
  | .mapping, value => ∃ members, value = .object members
  | .flagOrSchema, value => (∃ flag, value = .bool flag) ∨ ∃ members, value = .object members
  | .schema, value => ∃ members, value = .object members
  | .text, value => ∃ text, value = .string text
  | .names, value => ∃ entries, value = .array entries
  | .flag, value => ∃ flag, value = .bool flag

/-- Exactly the values of the type that is asked for hold what is read off them. -/
def Demand.ReadBy {α : Type} (demand : Demand) (held? : Json → Option α) : Prop :=
  ∀ value, demand.Met value ↔ ∃ held, held? value = some held

namespace Demand

theorem readBy_text : text.ReadBy Json.text? := fun _ =>
  exists_congr fun _ => Json.text?_eq_some_iff.symm

theorem readBy_flag : flag.ReadBy Json.flag? := fun _ =>
  exists_congr fun _ => Json.flag?_eq_some_iff.symm

theorem readBy_items : names.ReadBy Json.items? := fun _ =>
  exists_congr fun _ => Json.items?_eq_some_iff.symm

end Demand

/-- What a keyword asks of its value, if it asks for a JSON type. -/
def Keyword.demand? : String → Option Demand
  | "properties" => some .mapping
  | "additionalProperties" => some .flagOrSchema
  | "items" => some .schema
  | "$ref" => some .text
  | "description" => some .text
  | "required" => some .names
  | "readOnly" => some .flag
  | _ => none

/-- What a malformation says of the spot that it is reported at: a schema nests
too deep or is none, a keyword has a value of the wrong JSON type, or an entry
of `required` is no name. -/
def Malformation.Fits (limit : Nat) : Malformation → Spot → Prop
  | .tooDeep bound, .schema hops _ => bound = limit ∧ limit < hops
  | .notSchema found, .schema _ value => value = found ∧ ∀ members, value ≠ .object members
  | .wrongType keyword demand found, .keyword _ name value =>
    name = keyword ∧ value = found ∧ Keyword.demand? keyword = some demand ∧ ¬ demand.Met value
  | .requiredEntry found, .entry _ name value =>
    name = "required" ∧ value = found ∧ ∀ text, value ≠ .string text
  | _, _ => False

namespace Schema

variable {limit : Nat} {document : Json} {path : Path} {hops : Nat} {members : Members Json}
  {offence : Located Malformation}

/-! ### Keywords that hold no schema -/

theorem readAs_error {α : Type} {demand : Demand} {held? : Json → Option α} {keyword : String}
    {value : Json} (hread : demand.ReadBy held?)
    (h : readAs demand held? path keyword value = .error offence) :
    offence = ⟨path.key keyword, .wrongType keyword demand value⟩ ∧ ¬ demand.Met value := by
  rw [readAs] at h
  cases hheld : held? value with
  | some held =>
      rw [hheld] at h
      cases h
  | none =>
      rw [hheld] at h
      cases h
      refine ⟨rfl, fun hmet => ?_⟩
      obtain ⟨held, hsome⟩ := (hread value).1 hmet
      cases hheld.symm.trans hsome

theorem readNames_error {position : Nat} {entries : List Json}
    (h : readNames path position entries = .error offence) :
    ∃ index value, entries[index]? = some value ∧ (∀ text, value ≠ .string text) ∧
      offence = ⟨path.index (position + index), .requiredEntry value⟩ := by
  induction entries generalizing position with
  | nil => cases h
  | cons entry rest ih =>
      cases entry with
      | string name =>
          rw [readNames] at h
          rcases bind_eq_error_iff.1 h with h | ⟨names, -, h⟩
          · obtain ⟨index, value, hvalue, hother, rfl⟩ := ih h
            refine ⟨index + 1, value, hvalue, hother, ?_⟩
            rw [Nat.add_right_comm, Nat.add_assoc]
          · cases h
      | _ =>
          cases h
          exact ⟨0, _, rfl, by simp, rfl⟩

/-- A keyword whose value has the wrong JSON type is reported at that value. -/
theorem shown_wrongType (hplace : Place document path hops (.object members)) {keyword : String}
    {demand : Demand} {value : Json} (hvalue : members.get? keyword = some value)
    (hdemand : Keyword.demand? keyword = some demand) (hunmet : ¬ demand.Met value) :
    Shown document (Malformation.Fits limit)
      ⟨path.key keyword, .wrongType keyword demand value⟩ :=
  ⟨.keyword members keyword value, .keyword hplace hvalue, rfl, rfl, hdemand, hunmet⟩

theorem readKeyword_shown {keywords : Keywords} {name : String} {value : Json}
    (hplace : Place document path hops (.object members))
    (hvalue : members.get? name = some value)
    (h : readKeyword path keywords name value = .error offence) :
    Shown document (Malformation.Fits limit) offence := by
  -- in the order of the reader: `type`, `$ref`, `required`, `readOnly`, `description`, all others
  unfold readKeyword at h
  split at h
  case h_1 => cases h
  case h_2 =>
    rcases bind_eq_error_iff.1 h with h | ⟨_, -, h⟩
    · obtain ⟨rfl, hunmet⟩ := readAs_error Demand.readBy_text h
      exact shown_wrongType hplace hvalue rfl hunmet
    · cases h
  case h_3 =>
    rcases bind_eq_error_iff.1 h with h | ⟨_, -, h⟩
    · rcases bind_eq_error_iff.1 h with h | ⟨entries, hentries, h⟩
      · obtain ⟨rfl, hunmet⟩ := readAs_error Demand.readBy_items h
        exact shown_wrongType hplace hvalue rfl hunmet
      · obtain ⟨index, entry, hentry, hother, rfl⟩ := readNames_error h
        obtain rfl := Json.items?_eq_some_iff.1 (readAs_eq_ok_iff.1 hentries)
        rw [Nat.zero_add]
        exact ⟨.entry members "required" entry, .entry hplace hvalue hentry, rfl, rfl, hother⟩
    · cases h
  case h_4 =>
    rcases bind_eq_error_iff.1 h with h | ⟨_, -, h⟩
    · obtain ⟨rfl, hunmet⟩ := readAs_error Demand.readBy_flag h
      exact shown_wrongType hplace hvalue rfl hunmet
    · cases h
  case h_5 =>
    rcases bind_eq_error_iff.1 h with h | ⟨_, -, h⟩
    · obtain ⟨rfl, hunmet⟩ := readAs_error Demand.readBy_text h
      exact shown_wrongType hplace hvalue rfl hunmet
    · cases h
  case h_6 => split at h <;> cases h

/-! ### Schemas

By the recursion of the reading. The members that are left to be read are
members of the object whose place is known, and each of them is what is found
under its name. -/

theorem forall_get?_of_proper (hproper : (Json.object members).Proper) :
    ∀ pair ∈ members, members.get? pair.1 = some pair.2 :=
  fun _ hpair => Members.get?_of_mem hproper.1 hpair

mutual

theorem readNode_shown (hproper : document.Proper) : ∀ (value : Json) (path : Path) (hops : Nat),
    Place document path hops value → readNode limit path hops value = .error offence →
      Shown document (Malformation.Fits limit) offence
  | .object members => by
    intro path hops hplace h
    rw [readNode] at h
    split at h
    · next hdeep =>
      cases h
      exact ⟨_, .schema hplace, rfl, hdeep⟩
    · exact readMembers_shown hproper members members hops (.blank path) hplace
        (forall_get?_of_proper (hplace.stands.proper hproper)) h
  | .null | .bool _ | .int _ | .float _ | .string _ | .array _ => by
    intro path hops hplace h
    simp only [readNode] at h
    split at h
    · next hdeep =>
      cases h
      exact ⟨_, .schema hplace, rfl, hdeep⟩
    · cases h
      exact ⟨_, .schema hplace, rfl, nofun⟩

theorem readMembers_shown (hproper : document.Proper) : ∀ (rest members : List (String × Json))
    (hops : Nat) (old : SchemaNode), Place document old.path hops (.object members) →
      (∀ pair ∈ rest, Members.get? members pair.1 = some pair.2) →
        readMembers limit hops rest old = .error offence →
          Shown document (Malformation.Fits limit) offence
  | [] => by
    intro members hops old hplace hrest h
    rw [readMembers] at h
    cases h
  | (name, value) :: rest => by
    intro members hops old hplace hrest h
    obtain ⟨hvalue, hothers⟩ := List.forall_mem_cons.1 hrest
    -- three keywords hold schemas, and the fault may lie inside these
    by_cases hname : name = "properties"
    · subst hname
      cases value with
      | object schemas =>
          rw [readMembers] at h
          rcases bind_eq_error_iff.1 h with h | ⟨nodes, -, h⟩
          · have hschemas : (Json.object schemas).Proper :=
              Json.properMembers_iff.1 (hplace.stands.proper hproper).2 _
                (Members.mem_of_get? hvalue)
            exact readProperties_shown hproper schemas old.path hops members schemas hplace hvalue
              (forall_get?_of_proper hschemas) h
          · exact readMembers_shown hproper rest members hops
              { old with properties := some nodes } hplace hothers h
      | _ =>
          simp only [readMembers] at h
          cases h
          exact shown_wrongType hplace hvalue rfl nofun
    by_cases hname' : name = "additionalProperties"
    · subst hname'
      cases value with
      | bool flag =>
          rw [readMembers] at h
          exact readMembers_shown hproper rest members hops
            { old with additional := some (.allowed flag) } hplace hothers h
      | object fields =>
          rw [readMembers] at h
          rcases bind_eq_error_iff.1 h with h | ⟨node, -, h⟩
          · exact readNode_shown hproper (.object fields) _ _ (.value hplace hvalue) h
          · exact readMembers_shown hproper rest members hops
              { old with additional := some (.typed node) } hplace hothers h
      | _ =>
          simp only [readMembers] at h
          cases h
          exact shown_wrongType hplace hvalue rfl nofun
    by_cases hname'' : name = "items"
    · subst hname''
      cases value with
      | object fields =>
          rw [readMembers] at h
          rcases bind_eq_error_iff.1 h with h | ⟨node, -, h⟩
          · exact readNode_shown hproper (.object fields) _ _ (.items hplace hvalue) h
          · exact readMembers_shown hproper rest members hops
              { old with items := some node } hplace hothers h
      | _ =>
          simp only [readMembers] at h
          cases h
          exact shown_wrongType hplace hvalue rfl nofun
    simp only [readMembers] at h
    rcases bind_eq_error_iff.1 h with h | ⟨keywords, -, h⟩
    · exact readKeyword_shown hplace hvalue h
    · exact readMembers_shown hproper rest members hops { old with keywords } hplace hothers h

theorem readProperties_shown (hproper : document.Proper) : ∀ (rest : List (String × Json))
    (path : Path) (hops : Nat) (members schemas : Members Json),
      Place document path hops (.object members) →
        members.get? "properties" = some (.object schemas) →
          (∀ pair ∈ rest, schemas.get? pair.1 = some pair.2) →
            readProperties limit (path.key "properties") (hops + 1) rest = .error offence →
              Shown document (Malformation.Fits limit) offence
  | [] => by
    intro path hops members schemas hplace hfound hrest h
    rw [readProperties] at h
    cases h
  | (name, schema) :: rest => by
    intro path hops members schemas hplace hfound hrest h
    obtain ⟨hschema, hothers⟩ := List.forall_mem_cons.1 hrest
    rw [readProperties] at h
    rcases bind_eq_error_iff.1 h with h | ⟨node, -, h⟩
    · exact readNode_shown hproper schema _ _ (.property hplace hfound hschema) h
    · rcases bind_eq_error_iff.1 h with h | ⟨others, -, h⟩
      · exact readProperties_shown hproper rest path hops members schemas hplace hfound hothers h
      · cases h

end

/-- A document that cannot be read is at fault where the reading says so. -/
theorem read_shown (hproper : document.Proper) (h : read limit document = .error offence) :
    Shown document (Malformation.Fits limit) offence :=
  readNode_shown hproper document .root 0 .root h

end Schema

end ResourceTypes
