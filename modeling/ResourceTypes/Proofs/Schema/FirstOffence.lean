import ResourceTypes.Proofs.Json.Order
import ResourceTypes.Proofs.Schema.Address
import ResourceTypes.Proofs.Schema.Offence

/-!
The first offence of a document. A schema that is too deep or no object offends
at its own place, a keyword or an entry of `required` at the place of its value;
the reading ends at the first place in document order that offends.
-/

namespace ResourceTypes

open ResourceTypes.Language

/-- What a result complains of, unless it is one. -/
def complaint? {ε α : Type} : Except ε α → Option ε
  | .ok _ => none
  | .error complaint => some complaint

namespace Schema

/-- A value that is read as a schema offends at a path into it. -/
inductive Offends (limit : Nat) : Nat → Json → Path → Prop
  | tooDeep {depth : Nat} {value : Json} (deep : limit < depth) : Offends limit depth value .root
  | notSchema {depth : Nat} {value : Json} (other : ∀ members, value ≠ .object members) :
      Offends limit depth value .root
  | wrongType {depth : Nat} {members : Members Json} {name : String} {value : Json}
      {demand : Demand} (here : members.get? name = some value)
      (asks : Keyword.demand? name = some demand) (unmet : ¬ demand.Met value) :
      Offends limit depth (.object members) [.key name]
  | entry {depth : Nat} {members : Members Json} {entries : List Json} {position : Nat}
      {value : Json} (here : members.get? "required" = some (.array entries))
      (there : entries[position]? = some value) (other : ∀ text, value ≠ .string text) :
      Offends limit depth (.object members) [.key "required", .index position]
  | property {depth : Nat} {members schemas : Members Json} {name : String} {schema : Json}
      {path : Path} (here : members.get? "properties" = some (.object schemas))
      (named : schemas.get? name = some schema) (inner : Offends limit (depth + 1) schema path) :
      Offends limit depth (.object members) (.key "properties" :: .key name :: path)
  | value {depth : Nat} {members fields : Members Json} {path : Path}
      (here : members.get? "additionalProperties" = some (.object fields))
      (inner : Offends limit (depth + 1) (.object fields) path) :
      Offends limit depth (.object members) (.key "additionalProperties" :: path)
  | items {depth : Nat} {members : Members Json} {schema : Json} {path : Path}
      (here : members.get? "items" = some schema) (inner : Offends limit (depth + 1) schema path) :
      Offends limit depth (.object members) (.key "items" :: path)

/-- A place of a document offends, and none before it does. -/
def FirstOffence (limit : Nat) (document : Json) (path : Path) : Prop :=
  ∃ before after, document.places = before ++ path :: after ∧ Offends limit 0 document path ∧
    ∀ place ∈ before, ¬ Offends limit 0 document place

variable {limit depth : Nat} {members : Members Json} {name : String} {value : Json} {path : Path}

theorem offends_root_iff :
    Offends limit depth value .root ↔ limit < depth ∨ ∀ members, value ≠ .object members := by
  constructor
  · intro h
    generalize hplace : Path.root = place at h
    cases h with
    | tooDeep deep => exact .inl deep
    | notSchema other => exact .inr other
    | _ => cases hplace
  · rintro (hdeep | hother)
    · exact .tooDeep hdeep
    · exact .notSchema hother

/-- Below a schema, a keyword offends by its type, by an entry of the list of
required names, or by a schema that it holds. -/
theorem offends_key_iff (hvalue : members.get? name = some value) :
    Offends limit depth (.object members) (.key name :: path) ↔
      (path = .root ∧ ∃ demand, Keyword.demand? name = some demand ∧ ¬ demand.Met value) ∨
      (name = "required" ∧ ∃ entries, value = .array entries ∧ ∃ position entry,
        path = [.index position] ∧ entries[position]? = some entry ∧
          ∀ text, entry ≠ .string text) ∨
      (name = "properties" ∧ ∃ schemas, value = .object schemas ∧ ∃ key schema below,
        path = .key key :: below ∧ Members.get? schemas key = some schema ∧
          Offends limit (depth + 1) schema below) ∨
      (name = "additionalProperties" ∧ (∃ fields, value = .object fields) ∧
        Offends limit (depth + 1) value path) ∨
      name = "items" ∧ Offends limit (depth + 1) value path := by
  have hfound {other : Json} (h : members.get? name = some other) : value = other :=
    Option.some.inj (hvalue.symm.trans h)
  constructor
  · intro h
    -- the place is an index of the offence, which `cases` wants to be a variable
    generalize hplace : Step.key name :: path = place at h
    cases h with
    | tooDeep | notSchema => cases hplace
    | wrongType here asks unmet =>
        cases hplace
        obtain rfl := hfound here
        exact .inl ⟨rfl, _, asks, unmet⟩
    | entry here there other =>
        cases hplace
        exact .inr (.inl ⟨rfl, _, hfound here, _, _, rfl, there, other⟩)
    | property here named inner =>
        cases hplace
        exact .inr (.inr (.inl ⟨rfl, _, hfound here, _, _, _, rfl, named, inner⟩))
    | value here inner =>
        cases hplace
        obtain rfl := hfound here
        exact .inr (.inr (.inr (.inl ⟨rfl, ⟨_, rfl⟩, inner⟩)))
    | items here inner =>
        cases hplace
        obtain rfl := hfound here
        exact .inr (.inr (.inr (.inr ⟨rfl, inner⟩)))
  · rintro (⟨rfl, demand, hasks, hunmet⟩ |
      ⟨rfl, entries, rfl, position, entry, rfl, hentry, hother⟩ |
      ⟨rfl, schemas, rfl, key, schema, below, rfl, hnamed, hinner⟩ |
      ⟨rfl, ⟨fields, rfl⟩, hinner⟩ | ⟨rfl, hinner⟩)
    · exact .wrongType hvalue hasks hunmet
    · exact .entry hvalue hentry hother
    · exact .property hvalue hnamed hinner
    · exact .value hvalue hinner
    · exact .items hvalue hinner

/-! ### Where a reading ends -/

/-- The place that a reading ends at, unless it succeeds. -/
def refusedAt? {α : Type} (result : Except (Located Malformation) α) : Option Path :=
  (complaint? result).map (·.path)

section Refused

variable {α β : Type} {step : Except (Located Malformation) α}
  {next : α → Except (Located Malformation) β} {rest : List (String × Json)} {Such : Path → Prop}

/-- A member is read before the others, and the first place among its own comes
before all of theirs. -/
theorem refused_cons
    (hstep : refusedAt? step =
      (Json.first? (fun below => Such (.key name :: below)) value.places).map (path.key name ++ ·))
    (hnext : ∀ result, refusedAt? (next result) =
      (Json.first? Such (Json.memberPlaces rest)).map (path ++ ·)) :
    refusedAt? (step >>= next) =
      (Json.first? Such (Json.memberPlaces ((name, value) :: rest))).map (path ++ ·) := by
  have hstep' : refusedAt? step = ((Json.first? (fun below => Such (.key name :: below))
      value.places).map (.key name :: ·)).map (path ++ ·) := by
    rw [hstep, Option.map_map]
    simp [Path.key, Function.comp_def]
  rw [Json.first?_memberPlaces_cons, Option.map_or, ← hstep']
  cases step with
  | ok result => exact hnext result
  | error offence => rfl

/-- A member that offends itself is refused, whatever follows. -/
theorem refused_here {cause : Malformation} (h : Such [.key name]) :
    refusedAt? (.error ⟨path.key name, cause⟩ : Except _ α) =
      (Json.first? Such (Json.memberPlaces ((name, value) :: rest))).map (path ++ ·) := by
  rw [Json.first?_memberPlaces_cons, Json.first?_places_of_root value h]
  rfl

end Refused

/-- The entries of `required` are read up to the first that is no text. -/
theorem refused_names {Such : Path → Prop} (position : Nat) (entries : List Json)
    (h : ∀ index entry (below : Path), entries[index]? = some entry →
      (Such (.index (position + index) :: below) ↔
        below = .root ∧ ∀ text, entry ≠ .string text)) :
    refusedAt? (readNames path position entries) =
      (Json.first? Such (Json.itemPlaces position entries)).map (path ++ ·) := by
  induction entries generalizing position with
  | nil => rfl
  | cons entry rest ih =>
      have hrest := ih (position + 1) fun index other below hother => by
        rw [Nat.add_right_comm]
        exact h (index + 1) other below hother
      have hentry (below : Path) := h 0 entry below rfl
      rw [Nat.add_zero] at hentry
      rw [Json.first?_itemPlaces_cons]
      cases entry with
      | string name =>
          have hnone : Json.first? (fun below => Such (.index position :: below))
              (Json.string name).places = none := by
            refine Json.first?_eq_none_iff.2 fun below _ hbelow => ?_
            exact ((hentry below).1 hbelow).2 name rfl
          rw [hnone, readNames, Option.map_none, Option.none_or, ← hrest]
          cases readNames path (position + 1) rest <;> rfl
      | _ =>
          rw [Json.first?_places_of_root _ ((hentry .root).2 ⟨rfl, by simp⟩)]
          rfl

/-- A keyword whose value must be of some type is refused exactly if it is of another. -/
theorem refused_as {α : Type} {Such : Path → Prop} {demand : Demand} {held? : Json → Option α}
    {keyword : String} (hread : demand.ReadBy held?)
    (h : ∀ below : Path, Such below ↔ below = .root ∧ ¬ demand.Met value) :
    refusedAt? (readAs demand held? path keyword value) =
      (Json.first? Such value.places).map (path.key keyword ++ ·) := by
  rw [readAs]
  cases hheld : held? value with
  | some held =>
      have hmet : demand.Met value := (hread value).2 ⟨held, hheld⟩
      rw [Json.first?_eq_none_iff.2 fun below _ hbelow => ((h below).1 hbelow).2 hmet]
      rfl
  | none =>
      have hunmet : ¬ demand.Met value := by simp [hread value, hheld]
      rw [Json.first?_places_of_root value ((h .root).2 ⟨rfl, hunmet⟩)]
      simp [refusedAt?, complaint?, Path.root]

theorem refused_required {Such : Path → Prop}
    (h : ∀ below : Path, Such below ↔
      (below = .root ∧ ¬ Demand.names.Met value) ∨ ∃ entries, value = .array entries ∧
        ∃ position entry, below = [.index position] ∧ entries[position]? = some entry ∧
          ∀ text, entry ≠ .string text) :
    refusedAt? (readRequired path value) =
      (Json.first? Such value.places).map (path.key "required" ++ ·) := by
  cases value with
  | array entries =>
      have hroot : ¬ Such .root := by simp [h, Demand.Met, Path.root]
      have hread : readRequired path (.array entries) =
          readNames (path.key "required") 0 entries := rfl
      rw [Json.first?_places_array hroot, hread]
      apply refused_names
      intro index entry below hentry
      rw [Nat.zero_add]
      constructor
      · intro hsuch
        rcases (h _).1 hsuch with ⟨hbelow, -⟩ | ⟨_, hentries, _, other, hbelow, hother, htext⟩
        · cases hbelow
        · obtain rfl := Json.array.inj hentries
          obtain ⟨hindex, rfl⟩ := List.cons.inj hbelow
          obtain rfl := Step.index.inj hindex
          obtain rfl := Option.some.inj (hentry.symm.trans hother)
          exact ⟨rfl, htext⟩
      · rintro ⟨rfl, htext⟩
        exact (h _).2 (.inr ⟨entries, rfl, index, entry, rfl, hentry, htext⟩)
  | _ =>
      rw [Json.first?_places_of_root _ ((h .root).2 (.inl ⟨rfl, by simp [Demand.Met]⟩))]
      simp [readRequired, readAs, Json.items?, refusedAt?, complaint?, Path.root, bind, Except.bind]

theorem refused_keyword {keywords : Keywords} (hvalue : members.get? name = some value)
    (hplain : name ∉ ["properties", "additionalProperties", "items"]) :
    refusedAt? (readKeyword path keywords name value) =
      (Json.first? (fun below => Offends limit depth (.object members) (.key name :: below))
        value.places).map (path.key name ++ ·) := by
  have hunread (hdemand : Keyword.demand? name = none) (hname : name ≠ "required") :
      Json.first? (fun below => Offends limit depth (.object members) (.key name :: below))
        value.places = none := by
    refine Json.first?_eq_none_iff.2 fun below _ hbelow => ?_
    simp_all [offends_key_iff hvalue]
  -- in the order of the reader, where `type` and what has no rule for its value are never refused
  unfold readKeyword
  split
  · rw [hunread rfl (by simp)]
    rfl
  · rw [← refused_as Demand.readBy_text fun below => by
      simp [offends_key_iff hvalue, Keyword.demand?]]
    cases readAs .text Json.text? path "$ref" value <;> rfl
  · rw [← refused_required fun below => by simp [offends_key_iff hvalue, Keyword.demand?]]
    cases readRequired path value <;> rfl
  · rw [← refused_as Demand.readBy_flag fun below => by
      simp [offends_key_iff hvalue, Keyword.demand?]]
    cases readAs .flag Json.flag? path "readOnly" value <;> rfl
  · rw [← refused_as Demand.readBy_text fun below => by
      simp [offends_key_iff hvalue, Keyword.demand?]]
    cases readAs .text Json.text? path "description" value <;> rfl
  · rw [hunread (by simp_all [Keyword.demand?]) (by simp_all)]
    split <;> rfl

mutual

/-- A schema is refused at the first place in it that offends. -/
theorem refused_node : ∀ (value : Json) (path : Path) (depth : Nat), value.Proper →
    refusedAt? (readNode limit path depth value) =
      (Json.first? (Offends limit depth value) value.places).map (path ++ ·)
  | .object members => by
    intro path depth hproper
    rw [readNode]
    split
    · next hdeep =>
      rw [Json.first?_places_of_root _ (.tooDeep hdeep)]
      simp [refusedAt?, complaint?, Path.root]
    · next hdeep =>
      have hroot : ¬ Offends limit depth (.object members) .root := by
        simp [offends_root_iff, hdeep]
      rw [Json.first?_places_object hroot]
      exact refused_members members depth members (.blank path) hproper.2
        (forall_get?_of_proper hproper)
  | .null | .bool _ | .int _ | .float _ | .string _ | .array _ => by
    intro path depth hproper
    rw [Json.first?_places_of_root _ (.notSchema nofun)]
    simp only [readNode]
    split <;> simp [refusedAt?, complaint?, Path.root]

theorem refused_members (members : Members Json) (depth : Nat) :
    ∀ (rest : List (String × Json)) (old : SchemaNode), Json.ProperMembers rest →
      (∀ pair ∈ rest, members.get? pair.1 = some pair.2) →
        refusedAt? (readMembers limit depth rest old) =
          (Json.first? (Offends limit depth (.object members)) (Json.memberPlaces rest)).map
            (old.path ++ ·)
  | [] => by
    intro old hproper hrest
    rw [readMembers, Json.memberPlaces]
    rfl
  | (name, value) :: rest => by
    intro old hproper hrest
    obtain ⟨hvalue, hothers⟩ := List.forall_mem_cons.1 hrest
    have hnext (new : SchemaNode) := refused_members members depth rest new hproper.2 hothers
    -- three keywords hold schemas, and the first offence may lie inside these
    by_cases hname : name = "properties"
    · subst hname
      cases value with
      | object schemas =>
          have hschemas : (Json.object schemas).Proper := hproper.1
          have hroot : ¬ Offends limit depth (.object members) [.key "properties"] := by
            rw [offends_key_iff hvalue]
            simp [Keyword.demand?, Demand.Met]
          rw [readMembers]
          refine refused_cons ?_ fun nodes => hnext { old with properties := some nodes }
          rw [Json.first?_places_object hroot]
          refine refused_properties (depth + 1) schemas _ hschemas.2 fun pair hpair below => ?_
          rw [offends_key_iff hvalue]
          simp [Path.root, Members.get?_of_mem hschemas.1 hpair]
      | _ =>
          simp only [readMembers]
          exact refused_here (.wrongType hvalue rfl nofun)
    by_cases hname' : name = "additionalProperties"
    · subst hname'
      cases value with
      | bool flag =>
          have hnone : Json.first? (fun below => Offends limit depth (.object members)
              (.key "additionalProperties" :: below)) (Json.bool flag).places = none := by
            refine Json.first?_eq_none_iff.2 fun below _ => ?_
            rw [offends_key_iff hvalue]
            simp [Keyword.demand?, Demand.Met]
          rw [readMembers, Json.first?_memberPlaces_cons, hnone]
          exact hnext { old with additional := some (.allowed flag) }
      | object fields =>
          rw [readMembers]
          refine refused_cons ?_ fun node => hnext { old with additional := some (.typed node) }
          rw [refused_node (.object fields) _ (depth + 1) hproper.1]
          congr 2
          ext below
          rw [offends_key_iff hvalue]
          simp [Keyword.demand?, Demand.Met]
      | _ =>
          simp only [readMembers]
          exact refused_here (.wrongType hvalue rfl (by simp [Demand.Met]))
    by_cases hname'' : name = "items"
    · subst hname''
      cases value with
      | object fields =>
          rw [readMembers]
          refine refused_cons ?_ fun node => hnext { old with items := some node }
          rw [refused_node (.object fields) _ (depth + 1) hproper.1]
          congr 2
          ext below
          rw [offends_key_iff hvalue]
          simp [Keyword.demand?, Demand.Met]
      | _ =>
          simp only [readMembers]
          exact refused_here (.wrongType hvalue rfl nofun)
    simp only [readMembers]
    exact refused_cons (refused_keyword hvalue (by simp [hname, hname', hname'']))
      fun keywords => hnext { old with keywords }

theorem refused_properties {Such : Path → Prop} (depth : Nat) :
    ∀ (rest : List (String × Json)) (path : Path), Json.ProperMembers rest →
      (∀ pair ∈ rest, ∀ below, Such (.key pair.1 :: below) ↔ Offends limit depth pair.2 below) →
        refusedAt? (readProperties limit path depth rest) =
          (Json.first? Such (Json.memberPlaces rest)).map (path ++ ·)
  | [] => by
    intro path hproper hrest
    rw [readProperties, Json.memberPlaces]
    rfl
  | (name, schema) :: rest => by
    intro path hproper hrest
    obtain ⟨hschema, hothers⟩ := List.forall_mem_cons.1 hrest
    rw [readProperties]
    refine refused_cons ?_ fun node => ?_
    · rw [funext fun below => propext (hschema below)]
      exact refused_node schema (path.key name) depth hproper.1
    · rw [← refused_properties depth rest path hproper.2 hothers]
      cases readProperties limit path depth rest <;> rfl

end

end Schema

end ResourceTypes
