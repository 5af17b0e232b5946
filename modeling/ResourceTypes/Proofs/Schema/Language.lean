import ResourceTypes.Proofs.Json
import ResourceTypes.Proofs.Schema.Grammatical
import ResourceTypes.Proofs.Schema.Reading
import ResourceTypes.Proofs.Schema.Verdict

/-!
The restricted schema language, told on JSON values alone: where schemas
stand, how they are shaped, which keywords go together, and what references
may lead to. A node keeps to the grammar exactly if its members do.
-/

namespace ResourceTypes

namespace Language

/-- The schemas directly inside a schema with these members. -/
inductive Inside (members : Members Json) : Json → Prop
  | property {schemas : Members Json} {name : String} {schema : Json}
      (here : members.get? "properties" = some (.object schemas))
      (named : (name, schema) ∈ schemas) : Inside members schema
  | value {fields : Members Json}
      (here : members.get? "additionalProperties" = some (.object fields)) :
      Inside members (.object fields)
  | items {schema : Json} (here : members.get? "items" = some schema) : Inside members schema

/-- A schema stands in a document, so many schemas below its root. -/
inductive Stands (document : Json) : Nat → Json → Prop
  | root : Stands document 0 document
  | inside {hops : Nat} {members : Members Json} {schema : Json}
      (around : Stands document hops (.object members)) (inside : Inside members schema) :
      Stands document (hops + 1) schema

/-- The keywords that are there have values of the type that they ask for. -/
structure Shaped (members : Members Json) : Prop where
  properties : ∀ value, members.get? "properties" = some value → ∃ schemas, value = .object schemas
  additional : ∀ value, members.get? "additionalProperties" = some value →
    (∃ flag, value = .bool flag) ∨ ∃ fields, value = .object fields
  items : ∀ value, members.get? "items" = some value → ∃ fields, value = .object fields
  reference : ∀ value, members.get? "$ref" = some value → ∃ id, value = .string id
  required : ∀ value, members.get? "required" = some value →
    ∃ names : List String, value = .array (names.map .string)
  readOnly : ∀ value, members.get? "readOnly" = some value → ∃ flag, value = .bool flag
  description : ∀ value, members.get? "description" = some value → ∃ text, value = .string text

/-- Whether the additional properties of a schema have a type, which makes it a map. -/
def maps (members : Members Json) : Bool :=
  match members.get? "additionalProperties" with
  | some (.object _) => true
  | _ => false

/-- The kind of a schema that declares one of the six. -/
def kindOf (members : Members Json) (declared : SpelledKind) : Kind :=
  if declared = .object ∧ maps members then .map else declared.kind

/-- A reference, with nothing but notes beside it. -/
structure Refers (members : Members Json) : Prop where
  reference : "$ref" ∈ members.names
  alone : ∀ name ∈ members.names, name ∈ ["$ref", "description", "readOnly"]

/-- A schema of a declared kind, with the keywords that belong on it. -/
structure Declares (members : Members Json) (declared : SpelledKind) : Prop where
  type : ∃ word, members.get? "type" = some (.string word) ∧
    SpelledKind.ofName? word = some declared
  inPlace : "$ref" ∉ members.names
  known : ∀ name ∈ members.names,
    Keyword.classOf name ≠ .polymorphism ∧ Keyword.classOf name ≠ .unknown
  onObject : ∀ name ∈ ["properties", "additionalProperties", "required"],
    name ∈ members.names → declared = .object
  items : "items" ∈ members.names ↔ declared = .array
  oneShape : "properties" ∈ members.names → maps members = false
  notOpen : members.get? "additionalProperties" ≠ some (.bool true)
  required : ∀ entries name, members.get? "required" = some (.array entries) →
    .string name ∈ entries → ∃ schemas, members.get? "properties" = some (.object schemas) ∧
      name ∈ Members.names schemas
  allowed : ∀ name ∈ members.names, Keyword.classOf name = .validation →
    Keyword.allows name (kindOf members declared) = true
  enum : ∀ value, members.get? "enum" = some value → ∃ entries, value = .array entries ∧
    ∀ entry ∈ entries, entry.isOfKind (kindOf members declared) = true
  default : ∀ value, members.get? "default" = some value →
    value.isOfKind (kindOf members declared) = true

end Language

/-- The restricted language: documents whose schemas are shaped and not too
deep, describe an object, keep to the grammar, and refer to what can be bound. -/
structure InLanguage (scope : Binding.Scope) (maxDepth : Nat) (document : Json) : Prop where
  shaped : ∀ hops schema, Language.Stands document hops schema →
    hops ≤ maxDepth ∧ ∃ members, schema = .object members ∧ Language.Shaped members
  rooted : ∃ members, document = .object members ∧ Language.Declares members .object ∧
    Language.maps members = false
  grammatical : ∀ hops members, Language.Stands document hops (.object members) →
    Language.Refers members ∨ ∃ declared, Language.Declares members declared
  bindable : ∀ hops members id, Language.Stands document hops (.object members) →
    Members.get? members "$ref" = some (.string id) → Binding.Bindable scope id

namespace Language

open Schema

theorem Inside.sizeOf_lt {members : Members Json} {schema : Json} (h : Inside members schema) :
    sizeOf schema < sizeOf (Json.object members) := by
  have hmember {name : String} {value : Json} {list : Members Json} (hmem : (name, value) ∈ list) :
      sizeOf value < sizeOf list := by
    have hlt := List.sizeOf_lt_of_mem hmem
    simp only [Prod.mk.sizeOf_spec] at hlt
    omega
  rw [Json.object.sizeOf_spec]
  cases h with
  | property here named =>
      have houter := hmember (Members.mem_of_get? here)
      have hinner := hmember named
      rw [Json.object.sizeOf_spec] at houter
      omega
  | value here =>
      have hlt := hmember (Members.mem_of_get? here)
      omega
  | items here =>
      have hlt := hmember (Members.mem_of_get? here)
      omega

theorem Stands.under {members : Members Json} {child schema : Json} {hops : Nat}
    (hinside : Inside members child) (h : Stands child hops schema) :
    Stands (.object members) (hops + 1) schema := by
  induction h with
  | root => exact .inside .root hinside
  | inside _ hlast ih => exact .inside ih hlast

theorem Inside.proper {members : Members Json} {schema : Json} (h : Inside members schema)
    (hproper : (Json.object members).Proper) : schema.Proper := by
  rw [Json.Proper, Json.properMembers_iff] at hproper
  cases h with
  | property here named =>
      have hschemas := hproper.2 _ (Members.mem_of_get? here)
      rw [Json.Proper, Json.properMembers_iff] at hschemas
      exact hschemas.2 _ named
  | value here => exact hproper.2 _ (Members.mem_of_get? here)
  | items here => exact hproper.2 _ (Members.mem_of_get? here)

theorem Stands.proper {document schema : Json} {hops : Nat} (h : Stands document hops schema)
    (hproper : document.Proper) : schema.Proper := by
  induction h with
  | root => exact hproper
  | inside _ hinside ih => exact hinside.proper ih

section Node

variable {limit depth : Nat} {path : Path} {members : Members Json} {node : SchemaNode}

theorem shaped_of_filled (h : Filled limit depth members (.blank path) node) :
    Shaped members := by
  constructor <;> intro value hvalue
  · obtain ⟨_, -, schemas, hschemas, -⟩ := h.properties.yields hvalue
    exact ⟨schemas, hschemas⟩
  · obtain ⟨_, -, ⟨flag, hflag, -⟩ | ⟨fields, _, hfields, -⟩⟩ := h.additional.yields hvalue
    · exact .inl ⟨flag, hflag⟩
    · exact .inr ⟨fields, hfields⟩
  · obtain ⟨_, -, fields, hfields, -⟩ := h.items.yields hvalue
    exact ⟨fields, hfields⟩
  · obtain ⟨_, -, id, hid, -⟩ := h.reference.yields hvalue
    exact ⟨id, hid⟩
  · obtain ⟨names, -, hnames⟩ := h.required.yields hvalue
    exact ⟨names, hnames⟩
  · obtain ⟨flag, -, hflag⟩ := h.readOnly.yields hvalue
    exact ⟨flag, hflag⟩
  · obtain ⟨text, -, htext⟩ := h.description.yields hvalue
    exact ⟨text, htext⟩

/-- Members that are shaped, with schemas inside that can be read, fill a node. -/
theorem exists_filled (path : Path) (hshaped : Shaped members)
    (hinside : ∀ schema, Inside members schema → ∀ place,
      ∃ child, readNode limit place (depth + 1) schema = .ok child) :
    ∃ node, Filled limit depth members (.blank path) node := by
  obtain ⟨type, htype⟩ : ∃ type, Leaves (members.get? "type") none type YieldsType :=
    exists_leaves fun value _ => ⟨_, rfl⟩
  obtain ⟨reference, hreference⟩ : ∃ reference,
      Leaves (members.get? "$ref") none reference YieldsReference := by
    refine exists_leaves fun value hvalue => ?_
    obtain ⟨id, hid⟩ := hshaped.reference value hvalue
    exact ⟨.unbound id, id, hid, rfl⟩
  obtain ⟨required, hrequired⟩ : ∃ required,
      Leaves (members.get? "required") none required YieldsNames :=
    exists_leaves hshaped.required
  obtain ⟨readOnly, hreadOnly⟩ : ∃ readOnly,
      Leaves (members.get? "readOnly") none readOnly YieldsFlag :=
    exists_leaves hshaped.readOnly
  obtain ⟨description, hdescription⟩ : ∃ description,
      Leaves (members.get? "description") none description YieldsText :=
    exists_leaves hshaped.description
  -- three keywords hold schemas, and for these a node is put together from the nodes inside
  obtain ⟨properties, hproperties⟩ : ∃ properties, Leaves (members.get? "properties") none
      properties (YieldsProperties limit (depth + 1) (path.key "properties")) := by
    refine exists_leaves fun value hvalue => ?_
    obtain ⟨schemas, rfl⟩ := hshaped.properties value hvalue
    suffices h : ∃ nodes, List.Forall₂ _ schemas nodes by
      obtain ⟨nodes, hnodes⟩ := h
      exact ⟨nodes, schemas, rfl, hnodes⟩
    refine exists_forall₂ fun schema hschema => ?_
    obtain ⟨child, hchild⟩ := hinside _ (.property hvalue hschema)
      ((path.key "properties").key schema.1)
    exact ⟨(schema.1, child), rfl, hchild⟩
  obtain ⟨additional, hadditional⟩ : ∃ additional, Leaves (members.get? "additionalProperties")
      none additional
      (YieldsAdditional limit (depth + 1) (path.key "additionalProperties")) := by
    refine exists_leaves fun value hvalue => ?_
    obtain ⟨flag, rfl⟩ | ⟨fields, rfl⟩ := hshaped.additional value hvalue
    · exact ⟨.allowed flag, .inl ⟨flag, rfl, rfl⟩⟩
    · obtain ⟨child, hchild⟩ := hinside _ (.value hvalue) (path.key "additionalProperties")
      exact ⟨.typed child, .inr ⟨fields, child, rfl, rfl, hchild⟩⟩
  obtain ⟨items, hitems⟩ : ∃ items, Leaves (members.get? "items") none items
      (YieldsItems limit (depth + 1) (path.key "items")) := by
    refine exists_leaves fun value hvalue => ?_
    obtain ⟨fields, hfields⟩ := hshaped.items value hvalue
    obtain ⟨child, hchild⟩ := hinside _ (.items hvalue) (path.key "items")
    exact ⟨child, fields, hfields, hchild⟩
  exact ⟨⟨path, ⟨type, reference, required, readOnly, description,
      members.names.filter (Keyword.classOf · = .polymorphism),
      members.filter (Keyword.classOf ·.1 = .validation),
      members.names.filter (Keyword.classOf · = .unknown)⟩, properties, additional, items⟩,
    rfl, htype, hreference, hrequired, hreadOnly, hdescription, rfl, rfl, rfl, hproperties,
    hadditional, hitems⟩

/-- Every child of a node is read from a schema inside. -/
theorem inside_of_child (h : Filled limit depth members (.blank path) node)
    {child : SchemaNode} (hchild : child ∈ node.children) :
    ∃ schema, Inside members schema ∧
      ∃ place, readNode limit place (depth + 1) schema = .ok child := by
  rcases SchemaNode.mem_children.1 hchild with ⟨nodes, hnodes, name, hmem⟩ | hvalue | hitem
  · obtain ⟨_, hfound, schemas, rfl, hall⟩ := h.properties.source hnodes
    obtain ⟨⟨name', schema⟩, hschema, -, hread⟩ := exists_mem_left hall hmem
    exact ⟨schema, .property hfound hschema, _, hread⟩
  · obtain ⟨_, hfound, ⟨flag, -, hflag⟩ | ⟨fields, _, rfl, htyped, hread⟩⟩ :=
      h.additional.source hvalue
    · cases hflag
    · obtain rfl := Additional.typed.inj htyped
      exact ⟨_, .value hfound, _, hread⟩
  · obtain ⟨value, hfound, _, -, hread⟩ := h.items.source hitem
    exact ⟨value, .items hfound, _, hread⟩

/-- Every schema inside is read as a child of the node. -/
theorem child_of_inside (h : Filled limit depth members (.blank path) node)
    {schema : Json} (hinside : Inside members schema) :
    ∃ child ∈ node.children, ∃ place, readNode limit place (depth + 1) schema = .ok child := by
  cases hinside with
  | property here named =>
      obtain ⟨nodes, hnodes, schemas, hschemas, hall⟩ := h.properties.yields here
      obtain rfl := Json.object.inj hschemas
      obtain ⟨⟨name, child⟩, hchild, -, hread⟩ := exists_mem_right hall named
      exact ⟨child, SchemaNode.mem_children.2 (.inl ⟨nodes, hnodes, name, hchild⟩), _, hread⟩
  | value here =>
      obtain ⟨_, hnode, ⟨flag, hflag, -⟩ | ⟨_, child, -, rfl, hread⟩⟩ := h.additional.yields here
      · cases hflag
      · exact ⟨child, SchemaNode.mem_children.2 (.inr (.inl hnode)), _, hread⟩
  | items here =>
      obtain ⟨child, hnode, _, -, hread⟩ := h.items.yields here
      exact ⟨child, SchemaNode.mem_children.2 (.inr (.inr hnode)), _, hread⟩

theorem reference_eq_some_iff (h : Filled limit depth members (.blank path) node)
    {reference : Reference} :
    node.keywords.reference = some reference ↔
      ∃ id, members.get? "$ref" = some (.string id) ∧ reference = .unbound id := by
  constructor
  · intro hreference
    obtain ⟨_, hfound, id, rfl, hid⟩ := h.reference.source hreference
    exact ⟨id, hfound, hid⟩
  · rintro ⟨id, hfound, rfl⟩
    obtain ⟨_, hreference, id', hid, rfl⟩ := h.reference.yields hfound
    rw [hreference, Json.string.inj hid]

theorem type_eq_known_iff (h : Filled limit depth members (.blank path) node)
    {declared : SpelledKind} :
    node.keywords.type = some (.known declared) ↔
      ∃ word, members.get? "type" = some (.string word) ∧
        SpelledKind.ofName? word = some declared := by
  have hread (value : Json) : readType value = .known declared ↔
      ∃ word, value = .string word ∧ SpelledKind.ofName? word = some declared := by
    cases value with
    | string word => cases hword : SpelledKind.ofName? word <;> simp [readType, hword]
    | _ => simp [readType]
  constructor
  · intro htype
    obtain ⟨value, hfound, hvalue⟩ := h.type.source htype
    obtain ⟨word, rfl, hword⟩ := (hread value).1 hvalue.symm
    exact ⟨word, hfound, hword⟩
  · rintro ⟨word, hfound, hword⟩
    obtain ⟨type, htype, rfl⟩ := h.type.yields hfound
    rw [htype, (hread _).2 ⟨word, rfl, hword⟩]

theorem additional_eq_open_iff (h : Filled limit depth members (.blank path) node) :
    node.additional = some (.allowed true) ↔
      members.get? "additionalProperties" = some (.bool true) := by
  constructor
  · intro hopen
    obtain ⟨_, hfound, ⟨_, rfl, hflag⟩ | ⟨_, _, -, htyped, -⟩⟩ := h.additional.source hopen
    · rw [hfound, Additional.allowed.inj hflag]
    · cases htyped
  · intro hfound
    obtain ⟨_, hopen, ⟨_, hflag, rfl⟩ | ⟨_, _, hobject, -⟩⟩ := h.additional.yields hfound
    · rw [hopen, Json.bool.inj hflag]
    · cases hobject

theorem isSome_mapValue? (h : Filled limit depth members (.blank path) node) :
    node.mapValue?.isSome = maps members := by
  have hadditional := h.additional
  unfold SchemaNode.mapValue? maps
  cases hfound : members.get? "additionalProperties" with
  | none =>
      rw [hfound] at hadditional
      rw [show node.additional = none from hadditional]
      rfl
  | some value =>
      rw [hfound] at hadditional
      obtain ⟨_, hnode, ⟨flag, rfl, rfl⟩ | ⟨fields, child, rfl, rfl, -⟩⟩ := hadditional <;>
        rw [hnode] <;> rfl

theorem effectiveKind_eq (h : Filled limit depth members (.blank path) node)
    (declared : SpelledKind) : node.effectiveKind declared = kindOf members declared := by
  rw [SchemaNode.effectiveKind, isSome_mapValue? h, kindOf]

theorem required_getElem? (h : Filled limit depth members (.blank path) node) {index : Nat}
    {name : String} :
    (node.keywords.required.getD [])[index]? = some name ↔
      ∃ entries, members.get? "required" = some (.array entries) ∧
        entries[index]? = some (.string name) := by
  cases hrequired : node.keywords.required with
  | none =>
      have hnone := Members.get?_eq_none_iff.2 (h.required.eq_none_iff.1 hrequired)
      simp [hnone]
  | some names =>
      obtain ⟨_, hfound, rfl⟩ := h.required.source hrequired
      simp [hfound]

theorem mem_required_iff (h : Filled limit depth members (.blank path) node) {name : String} :
    name ∈ node.keywords.required.getD [] ↔
      ∃ entries, members.get? "required" = some (.array entries) ∧ .string name ∈ entries := by
  simp only [List.mem_iff_getElem?, required_getElem? h]
  rw [exists_comm]
  simp only [exists_and_left]

theorem mem_properties_iff (h : Filled limit depth members (.blank path) node) {name : String} :
    name ∈ Members.names (node.properties.getD []) ↔
      ∃ schemas, members.get? "properties" = some (.object schemas) ∧
        name ∈ Members.names schemas := by
  cases hproperties : node.properties with
  | none =>
      have hnone := Members.get?_eq_none_iff.2 (h.properties.eq_none_iff.1 hproperties)
      simp [hnone]
  | some nodes =>
      obtain ⟨_, hfound, schemas, rfl, hall⟩ := h.properties.source hproperties
      simp [hfound, names_eq_of_forall₂ hall fun _ _ hpair => hpair.1]

theorem known_iff (h : Filled limit depth members (.blank path) node) :
    node.keywords.polymorphism = [] ∧ node.keywords.unknown = [] ↔
      ∀ name ∈ members.names,
        Keyword.classOf name ≠ .polymorphism ∧ Keyword.classOf name ≠ .unknown := by
  rw [h.polymorphism, h.unknown]
  simp [SchemaNode.blank, Keywords.none, forall_and]

theorem mem_validation_iff (h : Filled limit depth members (.blank path) node)
    (hnodup : members.names.Nodup) {name : String} {value : Json} :
    (name, value) ∈ node.keywords.validation ↔
      members.get? name = some value ∧ Keyword.classOf name = .validation := by
  rw [h.validation]
  simp only [SchemaNode.blank, Keywords.none, List.nil_append, List.mem_filter, decide_eq_true_eq]
  exact and_congr_left fun _ => ⟨Members.get?_of_mem hnodup, Members.mem_of_get?⟩

/-- A schema that is a reference may have a note beside it, and a read-only
flag; every other keyword leaves a trace in its node. -/
theorem refers_iff (h : Filled limit depth members (.blank path) node) :
    node.keywords.reference.isSome ∧ node.nonReferenceKeywords = [] ↔ Refers members := by
  rw [h.reference.isSome_iff, Grammar.nonReferenceKeywords_eq_nil_iff, h.type.eq_none_iff,
    h.properties.eq_none_iff, h.additional.eq_none_iff, h.items.eq_none_iff,
    h.required.eq_none_iff, h.polymorphism, h.validation, h.unknown]
  simp only [SchemaNode.blank, Keywords.none, List.nil_append, List.filter_eq_nil_iff,
    decide_eq_true_eq]
  constructor
  · rintro ⟨hreference, htype, hproperties, hadditional, hitems, hrequired, hpolymorphism,
      hvalidation, hunknown⟩
    refine ⟨hreference, fun name hname => ?_⟩
    -- any other keyword would show in the node, in its part or in a list
    rcases Part.keyword_or_listed name with ⟨part, rfl⟩ | hclass | hclass | hclass
    · cases part with
      | reference | readOnly | description => simp [Part.keyword]
      | type => exact absurd hname htype
      | required => exact absurd hname hrequired
      | properties => exact absurd hname hproperties
      | additional => exact absurd hname hadditional
      | items => exact absurd hname hitems
    · exact absurd hclass (hpolymorphism name hname)
    · obtain ⟨pair, hpair, rfl⟩ := List.mem_map.1 hname
      exact absurd hclass (hvalidation pair hpair)
    · exact absurd hclass (hunknown name hname)
  · rintro ⟨hreference, halone⟩
    have habsent (name : String) (hother : name ∉ ["$ref", "description", "readOnly"]) :
        name ∉ members.names := fun hname => hother (halone name hname)
    have hclass (name : String) (hname : name ∈ members.names) :
        Keyword.classOf name = .structural ∨ Keyword.classOf name = .metadata := by
      have hmem := halone name hname
      simp only [List.mem_cons, List.not_mem_nil, or_false] at hmem
      rcases hmem with rfl | rfl | rfl <;> decide
    refine ⟨hreference, habsent _ (by decide), habsent _ (by decide), habsent _ (by decide),
      habsent _ (by decide), habsent _ (by decide), fun name hname => ?_, fun pair hpair => ?_,
      fun name hname => ?_⟩
    · rcases hclass name hname with h | h <;> simp [h]
    · rcases hclass pair.1 (List.mem_map_of_mem hpair) with h | h <;> simp [h]
    · rcases hclass name hname with h | h <;> simp [h]

/-- A typed schema keeps to the rules for its kind exactly if its members do. -/
theorem declares_iff (h : Filled limit depth members (.blank path) node)
    (hnodup : members.names.Nodup) (declared : SpelledKind) :
    (node.keywords.polymorphism = [] ∧ node.keywords.unknown = []) ∧
        node.keywords.reference = none ∧ node.keywords.type = some (.known declared) ∧
        Grammar.checkKind node declared = [] ↔
      Declares members declared := by
  rw [known_iff h, h.reference.eq_none_iff, type_eq_known_iff h, Grammar.checkKind_eq_nil_iff,
    h.properties.eq_none_iff, h.additional.eq_none_iff, h.required.eq_none_iff,
    h.items.isSome_iff, Grammar.checkObject_eq_nil_iff, h.properties.isSome_iff,
    isSome_mapValue? h]
  simp only [ne_eq, additional_eq_open_iff h, effectiveKind_eq h, mem_required_iff h,
    mem_properties_iff h, Prod.forall, mem_validation_iff h hnodup,
    Grammar.checkAttribute_eq_nil_iff]
  constructor
  · rintro ⟨hknown, hplace, htype, hplain, hitems, hvalidation, hobject⟩
    -- a node of another kind has nothing under the three keywords of objects
    have hon (name : String) (hname : name ∈ ["properties", "additionalProperties", "required"])
        (hmem : name ∈ members.names) : declared = .object := by
      by_contra hother
      obtain ⟨hproperties, hadditional, hrequired⟩ := hplain hother
      simp only [List.mem_cons, List.not_mem_nil, or_false] at hname
      rcases hname with rfl | rfl | rfl <;> contradiction
    refine ⟨htype, hplace, hknown, hon, hitems, ?_, ?_, ?_, ?_, ?_, ?_⟩
    · intro hmem
      have hshape := (hobject (hon _ (by simp) hmem)).1
      simpa [hmem] using hshape
    · intro hopen
      have hmem : "additionalProperties" ∈ members.names :=
        Members.mem_names_iff.2 (by simp [hopen])
      exact (hobject (hon _ (by simp) hmem)).2.1 hopen
    · intro entries name hentries hname
      have hmem : "required" ∈ members.names := Members.mem_names_iff.2 (by simp [hentries])
      exact (hobject (hon _ (by simp) hmem)).2.2 name ⟨entries, hentries, hname⟩
    · intro name hname hclass
      obtain ⟨value, hvalue⟩ := Option.isSome_iff_exists.1 (Members.mem_names_iff.1 hname)
      exact (hvalidation name value ⟨hvalue, hclass⟩).1
    · intro value hvalue
      exact (hvalidation "enum" value ⟨hvalue, by decide⟩).2.1 rfl
    · intro value hvalue
      exact (hvalidation "default" value ⟨hvalue, by decide⟩).2.2 rfl
  · intro hdeclares
    refine ⟨hdeclares.known, hdeclares.inPlace, hdeclares.type, ?_, hdeclares.items, ?_, ?_⟩
    · intro hother
      exact ⟨fun hmem => hother (hdeclares.onObject _ (by simp) hmem),
        fun hmem => hother (hdeclares.onObject _ (by simp) hmem),
        fun hmem => hother (hdeclares.onObject _ (by simp) hmem)⟩
    · rintro name value ⟨hvalue, hclass⟩
      refine ⟨hdeclares.allowed name (Members.mem_names_iff.2 (by simp [hvalue])) hclass, ?_, ?_⟩
      · rintro rfl
        exact hdeclares.enum value hvalue
      · rintro rfl
        exact hdeclares.default value hvalue
    · intro _
      refine ⟨fun ⟨hmem, hmaps⟩ => ?_, hdeclares.notOpen, ?_⟩
      · rw [hdeclares.oneShape hmem] at hmaps
        cases hmaps
      · rintro name ⟨entries, hentries, hname⟩
        exact hdeclares.required entries name hentries hname

/-- A node breaks no rule of its own exactly if its members are a reference or
declare a type. -/
theorem checkOwn_iff (h : Filled limit depth members (.blank path) node)
    (hnodup : members.names.Nodup) :
    Grammar.checkOwn .member node = [] ↔
      Refers members ∨ ∃ declared, Declares members declared := by
  rw [Grammar.checkOwn_eq_nil_cases, ← refers_iff h]
  simp only [← declares_iff h hnodup]
  constructor
  · rintro ⟨hpolymorphism, hunknown, hbare | ⟨hplace, declared, htype, hkind⟩⟩
    · exact .inl hbare
    · exact .inr ⟨declared, ⟨hpolymorphism, hunknown⟩, hplace, htype, hkind⟩
  · rintro (⟨hreference, hbare⟩ | ⟨declared, ⟨hpolymorphism, hunknown⟩, hplace, htype, hkind⟩)
    · obtain ⟨-, -, -, -, -, hpolymorphism, -, hunknown⟩ :=
        Grammar.nonReferenceKeywords_eq_nil_iff.1 hbare
      exact ⟨hpolymorphism, hunknown, .inl ⟨hreference, hbare⟩⟩
    · exact ⟨hpolymorphism, hunknown, .inr ⟨hplace, declared, htype, hkind⟩⟩

end Node

end Language

end ResourceTypes
