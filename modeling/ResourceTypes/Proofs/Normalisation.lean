import ResourceTypes.Proofs.Canonical

/-!
What compiling forgets of a schema, and that it forgets nothing else. Two
schemas coincide if they say the same at every place once the ways to spell
nothing are dropped; two accepted schemas have the same type exactly then.
-/

namespace ResourceTypes

theorem TypeHandle.form_eq_of_same {x y : TypeHandle} (h : x.same y = true) : x.form = y.form := by
  cases x <;> cases y <;> simp only [TypeHandle.same, Bool.false_eq_true] at h
  · exact congrArg some (TypeDescriptor.kind_eq_of_same h)
  · rfl

namespace Language

/-- The schema of additional properties, of which `false` says that there are none. -/
def valueOf (members : Members Json) : Option Json :=
  match members.get? "additionalProperties" with
  | some (.bool false) => none
  | value => value

/-- The keywords with more than one way to spell the same, or with schemas inside. -/
def respelled : List String :=
  ["properties", "additionalProperties", "items", "required", "readOnly"]

/-- Two members of one name, with related values. -/
inductive Named (R : Json → Json → Prop) : String × Json → String × Json → Prop
  | mk (name : String) {a b : Json} (values : R a b) : Named R (name, a) (name, b)

/-- Two schemas that say the same at every place. The members of `properties`
keep their order; that of all other members is open, and so are the order and
the repetitions in `required`. No properties, no required names, a flag that is
not set and additional properties that are ruled out go without saying. -/
inductive Coincide : Json → Json → Prop
  | mk {as bs : Members Json}
      (plain : ∀ name ∉ respelled,
        Option.Rel (fun a b => a.same b = true) (as.get? name) (bs.get? name))
      (readOnly : isReadOnly (.object as) = isReadOnly (.object bs))
      (required : ∀ name, Requires as name ↔ Requires bs name)
      (properties : List.Forall₂ (Named Coincide) (schemasOf as) (schemasOf bs))
      (value : Option.Rel Coincide (valueOf as) (valueOf bs))
      (items : Option.Rel Coincide (as.get? "items") (bs.get? "items")) :
      Coincide (.object as) (.object bs)

/-- The schemas inside coincide, and the same names are required. -/
structure SameInside (as bs : Members Json) : Prop where
  required : ∀ name, Requires as name ↔ Requires bs name
  properties : List.Forall₂ (Named Coincide) (schemasOf as) (schemasOf bs)
  value : Option.Rel Coincide (valueOf as) (valueOf bs)
  items : Option.Rel Coincide (as.get? "items") (bs.get? "items")

/-! ### One schema

What is known of the members of any schema that stands for something: each
keyword is written once, has a value of its JSON type and is one of the language. -/

section Members

variable {members : Members Json} {name : String}

/-- The members of a schema: none twice, each shaped, each a word of the language. -/
structure Legal (members : Members Json) : Prop where
  distinct : members.names.Nodup
  shaped : Shaped members
  words : ∀ name ∈ members.names,
    Keyword.classOf name ≠ .polymorphism ∧ Keyword.classOf name ≠ .unknown

theorem Refers.words (h : Refers members) : ∀ name ∈ members.names,
    Keyword.classOf name ≠ .polymorphism ∧ Keyword.classOf name ≠ .unknown := by
  intro name hname
  have hmem := h.alone name hname
  simp only [List.mem_cons, List.not_mem_nil, or_false] at hmem
  rcases hmem with rfl | rfl | rfl <;> decide

theorem Refers.get?_validation (h : Refers members) (hclass : Keyword.classOf name = .validation) :
    members.get? name = none := by
  refine h.get?_eq_none fun hmem => ?_
  simp only [List.mem_cons, List.not_mem_nil, or_false] at hmem
  rcases hmem with rfl | rfl | rfl <;> revert hclass <;> decide

theorem Declares.get?_type {declared : SpelledKind} (h : Declares members declared) :
    members.get? "type" = some (.string declared.kind.name) := by
  obtain ⟨word, hword, hdeclared⟩ := h.type
  rw [hword, SpelledKind.eq_name_of_ofName? hdeclared]

theorem Declares.get?_items {declared : SpelledKind} (h : Declares members declared)
    (hother : declared ≠ .array) : members.get? "items" = none :=
  Members.get?_eq_none_iff.2 fun hmem => hother (h.items.1 hmem)

theorem Denotes.cases {table : TypeTable} {handle : TypeHandle}
    (h : Denotes table (.object members) handle) :
    Shaped members ∧ (Refers members ∨ ∃ declared, Declares members declared) := by
  cases h with
  | reference shaped refers => exact ⟨shaped, .inl refers⟩
  | scalar shaped declares => exact ⟨shaped, .inr ⟨_, declares⟩⟩
  | array shaped declares => exact ⟨shaped, .inr ⟨_, declares⟩⟩
  | map shaped declares => exact ⟨shaped, .inr ⟨_, declares⟩⟩
  | object shaped declares => exact ⟨shaped, .inr ⟨_, declares⟩⟩

theorem Denotes.legal {table : TypeTable} {handle : TypeHandle}
    (h : Denotes table (.object members) handle) (hproper : (Json.object members).Proper) :
    Legal members := by
  obtain ⟨hshaped, hrefers | ⟨declared, hdeclares⟩⟩ := h.cases
  · exact ⟨hproper.1, hshaped, hrefers.words⟩
  · exact ⟨hproper.1, hshaped, hdeclares.known⟩

theorem schemasOf_eq_nil (h : "properties" ∉ members.names) : schemasOf members = [] := by
  rw [schemasOf, Members.get?_eq_none_iff.2 h]

/-- Only objects say anything about additional properties. -/
theorem Declares.valueOf_eq_none {declared : SpelledKind} (h : Declares members declared)
    (hother : declared ≠ .object) : valueOf members = none := by
  rw [valueOf, Members.get?_eq_none_iff.2 fun hmem => hother (h.onObject _ (by simp) hmem)]

theorem Refers.valueOf_eq_none (h : Refers members) : valueOf members = none := by
  rw [valueOf, h.get?_eq_none (by decide)]

theorem Refers.bare (h : Refers members) :
    schemasOf members = [] ∧ ∀ name, ¬ Requires members name := by
  refine ⟨?_, fun name => ?_⟩
  · rw [schemasOf, h.get?_eq_none (by decide)]
  · rintro ⟨entries, hentries, -⟩
    rw [h.get?_eq_none (by decide)] at hentries
    cases hentries

theorem Declares.valueOf_isSome {declared : SpelledKind} (h : Declares members declared)
    (hshaped : Shaped members) : (valueOf members).isSome = maps members := by
  have hadditional := hshaped.additional
  have hopen := h.notOpen
  rw [valueOf, maps]
  cases hfound : members.get? "additionalProperties" with
  | none => rfl
  | some value =>
      rw [hfound] at hopen
      obtain ⟨flag, rfl⟩ | ⟨fields, rfl⟩ := hadditional value hfound
      · cases flag with
        | false => rfl
        | true => exact absurd rfl hopen
      · rfl

/-- A required name is that of a schema in `properties`. -/
theorem Declares.mem_schemasOf {declared : SpelledKind} (h : Declares members declared)
    (hrequires : Requires members name) : name ∈ (schemasOf members).names := by
  obtain ⟨entries, hentries, hname⟩ := hrequires
  obtain ⟨schemas, hschemas, hmem⟩ := h.required entries name hentries hname
  rwa [schemasOf, hschemas]

/-- Only objects have properties, and only they can require them. -/
theorem Declares.bare {declared : SpelledKind} (h : Declares members declared)
    (hkind : kindOf members declared ≠ .object) :
    schemasOf members = [] ∧ ∀ name, ¬ Requires members name := by
  have hnone : schemasOf members = [] := by
    refine schemasOf_eq_nil fun hmem => hkind ?_
    rw [h.onObject _ (by simp) hmem, kindOf, h.oneShape hmem]
    rfl
  refine ⟨hnone, fun name hrequires => ?_⟩
  have hmem := h.mem_schemasOf hrequires
  rw [hnone] at hmem
  cases hmem

theorem Denotes.valueOf_isSome {table : TypeTable} {handle : TypeHandle}
    (h : Denotes table (.object members) handle) : (valueOf members).isSome = maps members := by
  obtain ⟨hshaped, hrefers | ⟨declared, hdeclares⟩⟩ := h.cases
  · rw [hrefers.valueOf_eq_none, maps, hrefers.get?_eq_none (by decide)]
    rfl
  · exact hdeclares.valueOf_isSome hshaped

theorem Denotes.valueOf_eq_none {table : TypeTable} {handle : TypeHandle}
    (h : Denotes table (.object members) handle) (hclosed : maps members = false) :
    valueOf members = none := by
  have hisSome := h.valueOf_isSome
  rwa [hclosed, Option.isSome_eq_false_iff, Option.isNone_iff_eq_none] at hisSome

end Members

/-! ### Two schemas -/

section Pair

variable {as bs : Members Json}

/-- Attributes are the same if each validation keyword has the same value on both sides. -/
theorem attributesOf_same_iff (has : as.names.Nodup) (hbs : bs.names.Nodup) :
    (attributesOf as).same (attributesOf bs) = true ↔
      ∀ name, Keyword.classOf name = .validation →
        Option.Rel (fun a b => a.same b = true) (as.get? name) (bs.get? name) := by
  have hnodup {members : Members Json} (h : members.names.Nodup) :
      (Members.names (attributesOf members)).Nodup := h.sublist (List.filter_sublist.map _)
  have hfound (members : Members Json) (name : String) : (attributesOf members).get? name =
      if decide (Keyword.classOf name = .validation) then members.get? name else none :=
    Members.get?_filter (fun word => decide (Keyword.classOf word = .validation)) members name
  rw [Attributes.same, Json.same_object_iff (hnodup has) (hnodup hbs),
    Members.corresponds_iff (hnodup has) (hnodup hbs)]
  simp only [hfound, decide_eq_true_eq]
  refine forall_congr' fun name => ?_
  by_cases hclass : Keyword.classOf name = .validation <;> simp [hclass]

theorem descriptionOf_eq_iff (has : Shaped as) (hbs : Shaped bs) :
    descriptionOf (.object as) = descriptionOf (.object bs) ↔
      Option.Rel (fun a b => a.same b = true) (as.get? "description") (bs.get? "description") := by
  have hleft := has.description
  have hright := hbs.description
  rw [descriptionOf, descriptionOf, Json.member?_object, Json.member?_object]
  generalize as.get? "description" = x at hleft ⊢
  generalize bs.get? "description" = y at hright ⊢
  cases x with
  | none =>
      cases y with
      | none => simp
      | some b =>
          obtain ⟨text, rfl⟩ := hright b rfl
          simp
  | some a =>
      obtain ⟨text, rfl⟩ := hleft a rfl
      cases y with
      | none => simp
      | some b =>
          obtain ⟨other, rfl⟩ := hright b rfl
          simp [Json.same]

/-- Where every keyword is known, the plain ones are the type, the reference,
the description and the attributes. -/
theorem plain_iff (has : Legal as) (hbs : Legal bs) :
    (∀ name ∉ respelled,
        Option.Rel (fun a b => a.same b = true) (as.get? name) (bs.get? name)) ↔
      Option.Rel (fun a b => a.same b = true) (as.get? "type") (bs.get? "type") ∧
        Option.Rel (fun a b => a.same b = true) (as.get? "$ref") (bs.get? "$ref") ∧
        descriptionOf (.object as) = descriptionOf (.object bs) ∧
        (attributesOf as).same (attributesOf bs) = true := by
  rw [descriptionOf_eq_iff has.shaped hbs.shaped, attributesOf_same_iff has.distinct hbs.distinct]
  constructor
  · intro h
    refine ⟨h _ (by decide), h _ (by decide), h _ (by decide), fun name hclass => h name ?_⟩
    intro hmem
    simp only [respelled, List.mem_cons, List.not_mem_nil, or_false] at hmem
    rcases hmem with rfl | rfl | rfl | rfl | rfl <;> revert hclass <;> decide
  · rintro ⟨htype, hreference, hdescription, hattributes⟩ name hname
    -- a keyword that is no word of the language is found on neither side
    have habsent (h : ¬ (Keyword.classOf name ≠ .polymorphism ∧ Keyword.classOf name ≠ .unknown)) :
        Option.Rel (fun a b => a.same b = true) (as.get? name) (bs.get? name) := by
      rw [Members.get?_eq_none_iff.2 fun hmem => h (has.words name hmem),
        Members.get?_eq_none_iff.2 fun hmem => h (hbs.words name hmem)]
      exact .none
    rcases Schema.Part.keyword_or_listed name with ⟨part, rfl⟩ | hclass | hclass | hclass
    · cases part with
      | type => exact htype
      | reference => exact hreference
      | description => exact hdescription
      | required | readOnly | properties | additional | items => exact absurd (by decide) hname
    · exact habsent (by simp [hclass])
    · exact hattributes name hclass
    · exact habsent (by simp [hclass])

theorem Coincide.formOf_eq (h : Coincide (.object as) (.object bs))
    (hmaps : maps as = maps bs) : formOf as = formOf bs := by
  have hkind : kindOf as = kindOf bs := by
    funext declared
    rw [kindOf, kindOf, hmaps]
  cases h with
  | mk plain =>
      have htype := plain "type" (by decide)
      rw [formOf, formOf, hkind]
      generalize as.get? "type" = x at htype
      generalize bs.get? "type" = y at htype
      cases htype with
      | none => rfl
      | @some a b hsame => cases a <;> cases b <;> simp_all [Json.same]

/-- Schemas that coincide stand for handles of one form. -/
theorem Coincide.form_eq {table : TypeTable} {x y : TypeHandle}
    (h : Coincide (.object as) (.object bs)) (hx : Denotes table (.object as) x)
    (hy : Denotes table (.object bs) y) : x.form = y.form := by
  rw [hx.form_eq, hy.form_eq]
  refine h.formOf_eq ?_
  rw [← hx.valueOf_isSome, ← hy.valueOf_isSome]
  cases h with
  | mk _ _ _ _ value => exact rel_isSome value

/-- Without properties, it is the values and the items that are to coincide. -/
theorem sameInside_iff (has : schemasOf as = [] ∧ ∀ name, ¬ Requires as name)
    (hbs : schemasOf bs = [] ∧ ∀ name, ¬ Requires bs name) :
    SameInside as bs ↔ Option.Rel Coincide (valueOf as) (valueOf bs) ∧
      Option.Rel Coincide (as.get? "items") (bs.get? "items") := by
  refine ⟨fun h => ⟨h.value, h.items⟩, fun ⟨hvalue, hitems⟩ => ⟨fun name => ?_, ?_, hvalue, hitems⟩⟩
  · exact iff_of_false (has.2 name) (hbs.2 name)
  · rw [has.1, hbs.1]
    exact .nil

/-- References coincide if their ids and the notes beside them are equal. -/
theorem coincide_iff_of_refers (has : Legal as) (hbs : Legal bs) (ha : Refers as) (hb : Refers bs)
    {id id' : String} (hid : as.get? "$ref" = some (.string id))
    (hid' : bs.get? "$ref" = some (.string id')) :
    Coincide (.object as) (.object bs) ↔ id = id' ∧
      descriptionOf (.object as) = descriptionOf (.object bs) ∧
      isReadOnly (.object as) = isReadOnly (.object bs) := by
  have hreference : Option.Rel (fun a b => a.same b = true) (as.get? "$ref") (bs.get? "$ref") ↔
      id = id' := by simp [hid, hid', Json.same]
  constructor
  · rintro ⟨hplain, hreadOnly, -⟩
    obtain ⟨-, href, hdescription, -⟩ := (plain_iff has hbs).1 hplain
    exact ⟨hreference.1 href, hdescription, hreadOnly⟩
  · rintro ⟨rfl, hdescription, hreadOnly⟩
    have hattributes : (attributesOf as).same (attributesOf bs) = true :=
      (attributesOf_same_iff has.distinct hbs.distinct).2 fun name hclass => by
        rw [ha.get?_validation hclass, hb.get?_validation hclass]
        exact .none
    have htype : Option.Rel (fun a b => a.same b = true) (as.get? "type") (bs.get? "type") := by
      rw [ha.get?_eq_none (by decide), hb.get?_eq_none (by decide)]
      exact .none
    have hplain := (plain_iff has hbs).2 ⟨htype, hreference.2 rfl, hdescription, hattributes⟩
    have hinside : SameInside as bs := (sameInside_iff ha.bare hb.bare).2 (by
      rw [ha.valueOf_eq_none, hb.valueOf_eq_none, ha.get?_eq_none (by decide),
        hb.get?_eq_none (by decide)]
      exact ⟨.none, .none⟩)
    exact .mk hplain hreadOnly hinside.required hinside.properties hinside.value hinside.items

/-- Schemas of one declared kind coincide if their attributes, their notes and
what is inside them do. -/
theorem coincide_iff_of_declares (has : Legal as) (hbs : Legal bs) {declared : SpelledKind}
    (ha : Declares as declared) (hb : Declares bs declared) :
    Coincide (.object as) (.object bs) ↔ SameInside as bs ∧
      (attributesOf as).same (attributesOf bs) = true ∧
      descriptionOf (.object as) = descriptionOf (.object bs) ∧
      isReadOnly (.object as) = isReadOnly (.object bs) := by
  constructor
  · rintro ⟨hplain, hreadOnly, hrequired, hproperties, hvalue, hitems⟩
    obtain ⟨-, -, hdescription, hattributes⟩ := (plain_iff has hbs).1 hplain
    exact ⟨⟨hrequired, hproperties, hvalue, hitems⟩, hattributes, hdescription, hreadOnly⟩
  · rintro ⟨hinside, hattributes, hdescription, hreadOnly⟩
    have htype : Option.Rel (fun a b => a.same b = true) (as.get? "type") (bs.get? "type") := by
      rw [ha.get?_type, hb.get?_type]
      exact .some (by simp [Json.same])
    have hreference :
        Option.Rel (fun a b => a.same b = true) (as.get? "$ref") (bs.get? "$ref") := by
      rw [Members.get?_eq_none_iff.2 ha.inPlace, Members.get?_eq_none_iff.2 hb.inPlace]
      exact .none
    have hplain := (plain_iff has hbs).2 ⟨htype, hreference, hdescription, hattributes⟩
    exact .mk hplain hreadOnly hinside.required hinside.properties hinside.value hinside.items

theorem written_same_iff {shape shape' : Shape} :
    (TypeHandle.authored (written as shape)).same (.authored (written bs shape')) = true ↔
      shape.same shape' = true ∧ (attributesOf as).same (attributesOf bs) = true ∧
        descriptionOf (.object as) = descriptionOf (.object bs) ∧
        isReadOnly (.object as) = isReadOnly (.object bs) := by
  rw [TypeHandle.same_authored, TypeDescriptor.same_iff]
  rfl

/-- With the notes beside it, a handle tells no more than it does with its schema's. -/
theorem noted_same_iff {table : TypeTable} {a b : Json} {x y : TypeHandle}
    (hx : Denotes table a x) (hy : Denotes table b y) :
    (noted a x).same (noted b y) = true ↔ x.same y = true ∧
      descriptionOf a = descriptionOf b ∧ isReadOnly a = isReadOnly b := by
  rcases hx.handle with ⟨id, target, rfl⟩ | ⟨as, shape, rfl, rfl⟩ <;>
    rcases hy.handle with ⟨id', target', rfl⟩ | ⟨bs, shape', rfl, rfl⟩
  · simp [noted, TypeHandle.withNotes, TypeHandle.same_referenced_iff, and_assoc]
  · simp [noted, TypeHandle.withNotes, TypeHandle.same]
  · simp [noted, TypeHandle.withNotes, TypeHandle.same]
  · refine (and_iff_left_of_imp fun h => ?_).symm
    exact (written_same_iff.1 h).2.2

end Pair

/-! ### The induction

It goes along what the first schema stands for. At each level both schemas
stand for handles of one form, or else they differ on both sides. -/

section Levels

variable {table : TypeTable} {as bs : Members Json}

/-- The schema `a` coincides with exactly those that stand for the same as it does. -/
def Told (table : TypeTable) (a : Json) (x : TypeHandle) : Prop :=
  ∀ b y, Denotes table b y → b.Proper → (Coincide a b ↔ x.same y = true ∧
    descriptionOf a = descriptionOf b ∧ isReadOnly a = isReadOnly b)

/-- Each property with its schema, in order. -/
theorem forall₂_schemasOf_of_names {P : Property → String × Json → Prop}
    {properties : List Property} {schemas : Members Json}
    (hnames : properties.map (·.name) = schemas.names)
    (hall : ∀ property ∈ properties, ∀ schema, (property.name, schema) ∈ schemas →
      P property (property.name, schema)) : List.Forall₂ P properties schemas := by
  induction properties generalizing schemas with
  | nil =>
      obtain rfl := List.map_eq_nil_iff.1 hnames.symm
      exact .nil
  | cons property rest ih =>
      cases schemas with
      | nil => cases hnames
      | cons schema schemas =>
          obtain ⟨name, inner⟩ := schema
          obtain ⟨rfl, hrest⟩ := List.cons.inj hnames
          refine .cons (hall _ List.mem_cons_self _ List.mem_cons_self) (ih hrest ?_)
          exact fun other hother schema hschema =>
            hall other (List.mem_cons_of_mem _ hother) schema (List.mem_cons_of_mem _ hschema)

theorem forall₂_congr {α β γ δ : Type} {P : α → γ → Prop} {Q : β → δ → Prop}
    {R : α → β → Prop} {S : γ → δ → Prop} {as : List α} {bs : List β} {cs : List γ} {ds : List δ}
    (hleft : List.Forall₂ P as cs) (hright : List.Forall₂ Q bs ds)
    (hiff : ∀ a b c d, P a c → Q b d → (R a b ↔ S c d)) :
    List.Forall₂ R as bs ↔ List.Forall₂ S cs ds := by
  induction hleft generalizing bs ds with
  | nil => cases hright <;> simp
  | cons hfirst _ ih =>
      cases hright with
      | nil => simp
      | cons hother hrest =>
          rw [List.forall₂_cons, List.forall₂_cons, hiff _ _ _ _ hfirst hother, ih hrest]

theorem sameInside_of_scalars {kind : ScalarKind} (ha : Declares as (.scalar kind))
    (hb : Declares bs (.scalar kind)) : SameInside as bs := by
  have hkind (members : Members Json) : kindOf members (.scalar kind) ≠ .object := by
    simp [kindOf, SpelledKind.kind]
  rw [sameInside_iff (ha.bare (hkind as)) (hb.bare (hkind bs)), ha.valueOf_eq_none (by simp),
    hb.valueOf_eq_none (by simp), ha.get?_items (by simp), hb.get?_items (by simp)]
  exact ⟨.none, .none⟩

/-- Schemas of lists tell the same inside if their items stand for the same. -/
theorem sameInside_iff_items {item item' : Json} {x y : TypeHandle}
    (ha : Declares as .array) (hb : Declares bs .array) (hitem : as.get? "items" = some item)
    (hitem' : bs.get? "items" = some item') (hx : Denotes table item x)
    (hy : Denotes table item' y) (hproper : item'.Proper) (htold : Told table item x) :
    SameInside as bs ↔ (noted item x).same (noted item' y) = true := by
  have hkind (members : Members Json) : kindOf members .array ≠ .object := by
    simp [kindOf, SpelledKind.kind]
  rw [sameInside_iff (ha.bare (hkind as)) (hb.bare (hkind bs)), ha.valueOf_eq_none (by simp),
    hb.valueOf_eq_none (by simp), hitem, hitem', noted_same_iff hx hy, ← htold _ _ hy hproper]
  simp

/-- Schemas of maps tell the same inside if their values stand for the same. -/
theorem sameInside_iff_values {fields fields' : Members Json} {x y : TypeHandle}
    (ha : Declares as .object) (hb : Declares bs .object)
    (hvalue : as.get? "additionalProperties" = some (.object fields))
    (hvalue' : bs.get? "additionalProperties" = some (.object fields'))
    (hx : Denotes table (.object fields) x) (hy : Denotes table (.object fields') y)
    (hproper : (Json.object fields').Proper) (htold : Told table (.object fields) x) :
    SameInside as bs ↔
      (noted (.object fields) x).same (noted (.object fields') y) = true := by
  have hkind {members fields : Members Json}
      (h : members.get? "additionalProperties" = some (.object fields)) :
      kindOf members .object ≠ .object := by
    simp [kindOf, maps, h]
  rw [sameInside_iff (ha.bare (hkind hvalue)) (hb.bare (hkind hvalue')), ha.get?_items (by decide),
    hb.get?_items (by decide), valueOf, valueOf, hvalue, hvalue', noted_same_iff hx hy,
    ← htold _ _ hy hproper]
  simp

/-- Schemas of objects tell the same inside if their properties match one by one. -/
theorem sameInside_iff_properties {properties properties' : List Property}
    (ha : Declares as .object) (hb : Declares bs .object)
    (hvalue : valueOf as = none) (hvalue' : valueOf bs = none)
    (hproperties : List.Forall₂ (fun property schema => property.name = schema.1 ∧
      Marked as schema.2 property ∧ Told table schema.2 property.type) properties (schemasOf as))
    (hproperties' : List.Forall₂ (fun property schema => property.name = schema.1 ∧
      Marked bs schema.2 property ∧ Denotes table schema.2 property.type ∧ schema.2.Proper)
      properties' (schemasOf bs)) :
    SameInside as bs ↔ List.Forall₂ Property.Matches properties properties' := by
  -- a property matches another if its schema does, and if both are required or neither is
  have hiff := forall₂_congr (R := Property.Matches) (S := fun a b => Named Coincide a b ∧
      (Requires as a.1 ↔ Requires bs b.1)) hproperties hproperties' (by
    rintro property property' ⟨name, a⟩ ⟨name', b⟩ ⟨rfl, hmarked, htold⟩
      ⟨rfl, hmarked', hdenotes, hproper⟩
    rw [← hmarked.required, ← hmarked'.required, ← Bool.eq_iff_iff]
    constructor
    · intro h
      have hcoincide := (htold _ _ hdenotes hproper).2 ⟨h.type, by
        rw [← hmarked.description, ← hmarked'.description, h.description], by
        rw [← hmarked.readOnly, ← hmarked'.readOnly, h.readOnly]⟩
      refine ⟨?_, h.required⟩
      rw [h.name]
      exact .mk _ hcoincide
    · rintro ⟨hnamed, hrequired⟩
      generalize hname : property.name = name at hnamed
      generalize hname' : property'.name = name' at hnamed
      cases hnamed with
      | mk _ hcoincide =>
          obtain ⟨htype, hdescription, hreadOnly⟩ := (htold _ _ hdenotes hproper).1 hcoincide
          refine ⟨hname.trans hname'.symm, htype, hrequired, ?_, ?_⟩
          · rw [hmarked.readOnly, hmarked'.readOnly, hreadOnly]
          · rw [hmarked.description, hmarked'.description, hdescription])
  rw [hiff]
  constructor
  · intro h
    refine h.properties.imp fun a b hnamed => ⟨hnamed, ?_⟩
    cases hnamed with
    | mk name => exact h.required name
  · intro h
    refine ⟨fun name => ⟨fun hrequires => ?_, fun hrequires => ?_⟩,
      h.imp fun _ _ hab => hab.1, ?_, ?_⟩
    · obtain ⟨a, ha⟩ := Members.exists_of_mem_names (ha.mem_schemasOf hrequires)
      obtain ⟨_, -, ⟨name⟩, hrequired⟩ := exists_mem_right h ha
      exact hrequired.1 hrequires
    · obtain ⟨b, hb⟩ := Members.exists_of_mem_names (hb.mem_schemasOf hrequires)
      obtain ⟨_, -, ⟨name⟩, hrequired⟩ := exists_mem_left h hb
      exact hrequired.2 hrequires
    · rw [hvalue, hvalue']
      exact .none
    · rw [ha.get?_items (by decide), hb.get?_items (by decide)]
      exact .none

/-- It is enough to compare with what is of the same form. -/
theorem told_of_forms {a : Json} {x : TypeHandle} (hx : Denotes table a x)
    (h : ∀ b y, Denotes table b y → b.Proper → x.form = y.form → (Coincide a b ↔
      x.same y = true ∧ descriptionOf a = descriptionOf b ∧ isReadOnly a = isReadOnly b)) :
    Told table a x := by
  intro b y hy hb
  by_cases hform : x.form = y.form
  · exact h b y hy hb hform
  · refine iff_of_false (fun hcoincide => hform ?_) fun hsame =>
      hform (TypeHandle.form_eq_of_same hsame.1)
    cases hcoincide with
    | mk plain readOnly required properties value items =>
        exact (Coincide.mk plain readOnly required properties value items).form_eq hx hy

/-- One level: what is written in place is the same if the shapes are, as far as
the schemas inside tell. -/
theorem coincide_iff_written (has : Legal as) (hbs : Legal bs) {declared : SpelledKind}
    (ha : Declares as declared) (hb : Declares bs declared) {shape shape' : Shape}
    (hinside : SameInside as bs ↔ shape.same shape' = true) :
    Coincide (.object as) (.object bs) ↔
      (TypeHandle.authored (written as shape)).same (.authored (written bs shape')) = true ∧
        descriptionOf (.object as) = descriptionOf (.object bs) ∧
        isReadOnly (.object as) = isReadOnly (.object bs) := by
  rw [coincide_iff_of_declares has hbs ha hb, written_same_iff, hinside]
  exact (and_iff_left_of_imp fun h => h.2.2).symm

theorem told_reference (htable : table.Proper) {id : String} {entry : Entry}
    (hshaped : Shaped as) (hrefers : Refers as) (hid : as.get? "$ref" = some (.string id))
    (hfound : table.find? id = some entry) (ha : (Json.object as).Proper) :
    Told table (.object as) (.referenced id entry.type none false) := by
  have hx : Denotes table (.object as) (.referenced id entry.type none false) :=
    .reference hshaped hrefers hid hfound
  refine told_of_forms hx fun b y hy hb hform => ?_
  cases hy with
  | @reference bs id' entry' shaped' refers' names' found' =>
      have hbs := (Denotes.reference shaped' refers' names' found').legal hb
      rw [coincide_iff_of_refers (hx.legal ha) hbs hrefers refers' hid names',
        TypeHandle.same_referenced_iff]
      refine and_congr_left fun _ => ⟨?_, fun h => h.1⟩
      rintro rfl
      obtain rfl := Option.some.inj (hfound.symm.trans found')
      have hproper := htable entry (List.mem_of_find?_eq_some hfound)
      exact ⟨rfl, TypeDescriptor.same_refl hproper, rfl, rfl⟩
  | _ => cases hform

theorem told_scalar {kind : ScalarKind} (hshaped : Shaped as)
    (hdeclares : Declares as (.scalar kind)) (ha : (Json.object as).Proper) :
    Told table (.object as) (.authored (written as (.scalar kind))) := by
  have hx : Denotes table (.object as) (.authored (written as (.scalar kind))) :=
    .scalar hshaped hdeclares
  refine told_of_forms hx fun b y hy hb hform => ?_
  cases hy with
  | @scalar bs kind' shaped' declares' =>
      obtain rfl : kind = kind' := Kind.scalar.inj (Option.some.inj hform)
      have hy : Denotes table (.object bs) (.authored (written bs (.scalar kind))) :=
        .scalar shaped' declares'
      refine coincide_iff_written (hx.legal ha) (hy.legal hb) hdeclares declares' ?_
      exact iff_of_true (sameInside_of_scalars hdeclares declares') (by simp [Shape.same])
  | _ => cases hform

theorem told_array {item : Json} {handle : TypeHandle} (hshaped : Shaped as)
    (hdeclares : Declares as .array) (hitem : as.get? "items" = some item)
    (hinside : Denotes table item handle) (htold : Told table item handle)
    (ha : (Json.object as).Proper) :
    Told table (.object as) (.authored (written as (.array (noted item handle)))) := by
  have hx : Denotes table (.object as) (.authored (written as (.array (noted item handle)))) :=
    .array hshaped hdeclares hitem hinside
  refine told_of_forms hx fun b y hy hb hform => ?_
  cases hy with
  | @array bs item' handle' shaped' declares' found' inside' =>
      have hbs := (Denotes.array shaped' declares' found' inside').legal hb
      refine coincide_iff_written (hx.legal ha) hbs hdeclares declares' ?_
      rw [Shape.same]
      exact sameInside_iff_items hdeclares declares' hitem found' hinside inside'
        ((Inside.items found').proper hb) htold
  | _ => cases hform

theorem told_map {fields : Members Json} {handle : TypeHandle} (hshaped : Shaped as)
    (hdeclares : Declares as .object)
    (hvalue : as.get? "additionalProperties" = some (.object fields))
    (hinside : Denotes table (.object fields) handle) (htold : Told table (.object fields) handle)
    (ha : (Json.object as).Proper) :
    Told table (.object as) (.authored (written as (.map (noted (.object fields) handle)))) := by
  have hx : Denotes table (.object as)
      (.authored (written as (.map (noted (.object fields) handle)))) :=
    .map hshaped hdeclares hvalue hinside
  refine told_of_forms hx fun b y hy hb hform => ?_
  cases hy with
  | @map bs fields' handle' shaped' declares' found' inside' =>
      have hbs := (Denotes.map shaped' declares' found' inside').legal hb
      refine coincide_iff_written (hx.legal ha) hbs hdeclares declares' ?_
      rw [Shape.same]
      exact sameInside_iff_values hdeclares declares' hvalue found' hinside inside'
        ((Inside.value found').proper hb) htold
  | _ => cases hform

theorem told_object {properties : List Property} (hshaped : Shaped as)
    (hdeclares : Declares as .object) (hclosed : maps as = false)
    (hnames : properties.map (·.name) = (schemasOf as).names)
    (hmarked : ∀ property ∈ properties, ∀ schema, (property.name, schema) ∈ schemasOf as →
      Marked as schema property)
    (hinside : ∀ property ∈ properties, ∀ schema, (property.name, schema) ∈ schemasOf as →
      Denotes table schema property.type)
    (htold : ∀ property ∈ properties, ∀ schema, (property.name, schema) ∈ schemasOf as →
      Told table schema property.type) (ha : (Json.object as).Proper) :
    Told table (.object as) (.authored (written as (.object properties))) := by
  have hx : Denotes table (.object as) (.authored (written as (.object properties))) :=
    .object hshaped hdeclares hclosed hnames hmarked hinside
  refine told_of_forms hx fun b y hy hb hform => ?_
  cases hy with
  | @object bs properties' shaped' declares' closed' names' marked' inside' =>
      have hy : Denotes table (.object bs) (.authored (written bs (.object properties'))) :=
        .object shaped' declares' closed' names' marked' inside'
      refine coincide_iff_written (hx.legal ha) (hy.legal hb) hdeclares declares' ?_
      have hproperties : List.Forall₂ (fun property schema => property.name = schema.1 ∧
          Marked as schema.2 property ∧ Told table schema.2 property.type) properties
          (schemasOf as) :=
        forall₂_schemasOf_of_names hnames fun property hproperty schema hschema =>
          ⟨rfl, hmarked property hproperty schema hschema,
            htold property hproperty schema hschema⟩
      have hproperties' : List.Forall₂ (fun property schema => property.name = schema.1 ∧
          Marked bs schema.2 property ∧ Denotes table schema.2 property.type ∧
          schema.2.Proper) properties' (schemasOf bs) :=
        forall₂_schemasOf_of_names names' fun property hproperty schema hschema =>
          ⟨rfl, marked' property hproperty schema hschema,
            inside' property hproperty schema hschema, proper_of_mem_schemasOf hb hschema⟩
      rw [Shape.same, listSame_iff]
      exact sameInside_iff_properties hdeclares declares' (hx.valueOf_eq_none hclosed)
        (hy.valueOf_eq_none closed') hproperties hproperties'
  | _ => cases hform

/-- Two schemas coincide if they stand for the same, with the same notes. -/
theorem Denotes.told (htable : table.Proper) {a : Json} {x : TypeHandle} (hx : Denotes table a x)
    (ha : a.Proper) : Told table a x := by
  induction hx with
  | reference shaped refers names found => exact told_reference htable shaped refers names found ha
  | scalar shaped declares => exact told_scalar shaped declares ha
  | array shaped declares found inside ih =>
      exact told_array shaped declares found inside (ih ((Inside.items found).proper ha)) ha
  | map shaped declares found inside ih =>
      exact told_map shaped declares found inside (ih ((Inside.value found).proper ha)) ha
  | object shaped declares closed names marked inside ih =>
      exact told_object shaped declares closed names marked inside
        (fun property hproperty schema hschema =>
          ih property hproperty schema hschema (proper_of_mem_schemasOf ha hschema)) ha

end Levels

end Language

open ResourceTypes.Language

/-- Normal forms are exact: two documents that compile against one table have the
same type if they coincide as schemas, and else not. -/
theorem same_iff_coincide {table : TypeTable} (htable : table.Proper) {maxDepth : Nat}
    {document : Option String} {a b : Json} (ha : a.Proper) (hb : b.Proper)
    {type other : TypeDescriptor} (hleft : compile table maxDepth document a = .ok type)
    (hright : compile table maxDepth document b = .ok other) :
    type.same other = true ↔ Coincide a b := by
  have hx := denotes_of_compile ha hleft
  have hy := denotes_of_compile hb hright
  rw [hx.told htable ha _ _ hy hb, TypeHandle.same_authored]
  refine (and_iff_left_of_imp fun hsame => ?_).symm
  obtain ⟨-, -, hdescription, hreadOnly⟩ := TypeDescriptor.same_iff.1 hsame
  rw [hx.notes.1, hy.notes.1] at hdescription
  rw [hx.notes.2, hy.notes.2] at hreadOnly
  exact ⟨hdescription, hreadOnly⟩

/-- The document about a line, with nothing said in more words. -/
def wordyLine : Json :=
  .object [("required", .array []), ("additionalProperties", .bool false), ("properties", .object [
    ("start", .object [("readOnly", .bool false), ("$ref", .string "shapes#Point")])]),
    ("type", .string "object")]

theorem coincide_wordyLine :
    Catalog.pointsLoaded.table.Proper ∧ Catalog.line.Proper ∧ wordyLine.Proper ∧
      compile Catalog.pointsLoaded.table 128 none Catalog.line = .ok Catalog.lineType ∧
      compile Catalog.pointsLoaded.table 128 none wordyLine = .ok Catalog.lineType ∧
      Coincide Catalog.line wordyLine := by
  have hschemas : ∀ entry ∈ Catalog.points.entries, entry.schema.Proper := by
    simp [Catalog.points, Json.Proper, Json.ProperMembers]
  have htable := Catalog.proper_of_load Catalog.load_points hschemas
  have hline : Catalog.line.Proper := by simp [Catalog.line, Json.Proper, Json.ProperMembers]
  have hwordy : wordyLine.Proper := by
    simp [wordyLine, Json.Proper, Json.ProperItems, Json.ProperMembers]
  have hcompile : compile Catalog.pointsLoaded.table 128 none Catalog.line =
      .ok Catalog.lineType := Catalog.compile_line (by simp)
  have hcompile' : compile Catalog.pointsLoaded.table 128 none wordyLine =
      .ok Catalog.lineType := by
    refine compile_of_shared rfl rfl (Catalog.bindable_point (by simp)) rfl
      (fun pair hpair => ?_) rfl
    obtain rfl := List.mem_singleton.1 hpair
    rfl
  have hsame := TypeDescriptor.same_refl
    (Catalog.proper_of_compile Catalog.load_points hschemas hline hcompile)
  exact ⟨htable, hline, hwordy, hcompile, hcompile',
    (same_iff_coincide htable hline hwordy hcompile hcompile').1 hsame⟩

end ResourceTypes
