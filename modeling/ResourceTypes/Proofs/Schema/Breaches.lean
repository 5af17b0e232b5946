import ResourceTypes.Proofs.Schema.Address
import ResourceTypes.Proofs.Schema.Findings

/-!
The rules of the grammar, told on the members of a schema: what breaks them, and
what is reported for it. The violations of a document are exactly the breaches
at its schemas, and no failure is reported twice.
-/

namespace ResourceTypes

/-- The kind that a structural keyword belongs on, if it does not go with all. -/
def Keyword.owner? : String → Option SpelledKind
  | "properties" | "additionalProperties" | "required" => some .object
  | "items" => some .array
  | _ => none

namespace Language

/-- The keywords of a schema that may not stand beside a reference, in the order
in which they are reported. -/
def beside (members : Members Json) : List String :=
  ["type", "properties", "additionalProperties", "items", "required"].filter
      (· ∈ members.names) ++
    members.names.filter (Keyword.classOf · = .polymorphism) ++
    members.names.filter (Keyword.classOf · = .validation) ++
    members.names.filter (Keyword.classOf · = .unknown)

/-- What breaks a rule on a schema of a declared kind that stands at a path. -/
inductive KindBreach (path : Path) (members : Members Json) (declared : SpelledKind) :
    Located Violation → Prop
  | structural {keyword : String} {owner : SpelledKind} (there : keyword ∈ members.names)
      (owned : Keyword.owner? keyword = some owner) (other : declared ≠ owner) :
      KindBreach path members declared ⟨path.key keyword, .misplaced keyword declared.kind⟩
  | validation {keyword : String} (there : keyword ∈ members.names)
      (validates : Keyword.classOf keyword = .validation)
      (disallowed : Keyword.allows keyword (kindOf members declared) = false) :
      KindBreach path members declared
        ⟨path.key keyword, .misplaced keyword (kindOf members declared)⟩
  | enumNotList {value : Json} (here : members.get? "enum" = some value)
      (allowed : Keyword.allows "enum" (kindOf members declared) = true)
      (other : ∀ entries, value ≠ .array entries) :
      KindBreach path members declared ⟨path.key "enum", .enumNotList⟩
  | enumEntry {entries : List Json} {position : Nat} {entry : Json}
      (here : members.get? "enum" = some (.array entries))
      (allowed : Keyword.allows "enum" (kindOf members declared) = true)
      (there : entries[position]? = some entry)
      (other : entry.isOfKind (kindOf members declared) = false) :
      KindBreach path members declared
        ⟨(path.key "enum").index position, .enumEntry entry (kindOf members declared)⟩
  | default {value : Json} (here : members.get? "default" = some value)
      (allowed : Keyword.allows "default" (kindOf members declared) = true)
      (other : value.isOfKind (kindOf members declared) = false) :
      KindBreach path members declared
        ⟨path.key "default", .defaultValue value (kindOf members declared)⟩
  | twoShapes (object : declared = .object) (there : "properties" ∈ members.names)
      (typed : maps members = true) : KindBreach path members declared ⟨path, .twoShapes⟩
  | openProperties (object : declared = .object)
      (here : members.get? "additionalProperties" = some (.bool true)) :
      KindBreach path members declared ⟨path.key "additionalProperties", .openProperties⟩
  | undeclaredRequired (object : declared = .object) {entries : List Json} {position : Nat}
      {name : String} (here : members.get? "required" = some (.array entries))
      (there : entries[position]? = some (.string name))
      (missing : ¬ ∃ schemas, members.get? "properties" = some (.object schemas) ∧
        name ∈ Members.names schemas) :
      KindBreach path members declared
        ⟨(path.key "required").index position, .undeclaredRequired name⟩
  | arrayWithoutItems (array : declared = .array) (absent : "items" ∉ members.names) :
      KindBreach path members declared ⟨path, .arrayWithoutItems⟩

/-- What breaks a rule on a schema at an address. -/
inductive Breach (address : Address) (members : Members Json) : Located Violation → Prop
  | polymorphic {keyword : String} (there : keyword ∈ members.names)
      (combines : Keyword.classOf keyword = .polymorphism) :
      Breach address members ⟨address.path, .polymorphic keyword⟩
  | unknownKeyword {name : String} (there : name ∈ members.names)
      (unknown : Keyword.classOf name = .unknown) :
      Breach address members ⟨address.path, .unknownKeyword name⟩
  | notExclusive {name : String} (refers : "$ref" ∈ members.names) (there : name ∈ members.names)
      (other : name ∉ ["$ref", "description", "readOnly"]) :
      Breach address members ⟨address.path, .notExclusive (beside members)⟩
  | untyped (inPlace : "$ref" ∉ members.names) (absent : "type" ∉ members.names) :
      Breach address members ⟨address.path, address.position.untyped⟩
  | unsupportedType {value : Json} (inPlace : "$ref" ∉ members.names)
      (here : members.get? "type" = some value) (none : ∀ declared, ¬ Spells members declared) :
      Breach address members ⟨address.path, .unsupportedType value⟩
  | kind {declared : SpelledKind} {finding : Located Violation} (inPlace : "$ref" ∉ members.names)
      (spells : Spells members declared)
      (breach : KindBreach address.path members declared finding) : Breach address members finding

/-- What keeps a schema from being the root of a document. -/
inductive RootBreach (members : Members Json) : Located Violation → Prop
  | reference (refers : "$ref" ∈ members.names) : RootBreach members ⟨.root, .rootReference⟩
  | map (inPlace : "$ref" ∉ members.names) (spells : Spells members .object)
      (typed : maps members = true) : RootBreach members ⟨.root, .rootMap⟩
  | kind {declared : SpelledKind} (inPlace : "$ref" ∉ members.names)
      (spells : Spells members declared) (other : declared ≠ .object) :
      RootBreach members ⟨.root, .rootKind declared.kind⟩

/-- What breaks a rule in a document, at its root or at any of its schemas. -/
inductive DocumentBreach (document : Json) (finding : Located Violation) : Prop
  | root {members : Members Json} (here : document = .object members)
      (breach : RootBreach members finding)
  | schema {address : Address} {members : Members Json}
      (here : document.schemaAt? address = some (.object members))
      (breach : Breach address members finding)

end Language

open ResourceTypes.Language

namespace Grammar

section Lists

variable {path : Path} {finding : Located Violation}

theorem mem_misplacedIf {present : Bool} {keyword : String} {kind : Kind} :
    finding ∈ misplacedIf present path keyword kind ↔
      present = true ∧ finding = ⟨path.key keyword, .misplaced keyword kind⟩ := by
  cases present <;> simp [misplacedIf]

theorem mem_checkEntries {kind : Kind} {position : Nat} {entries : List Json} :
    finding ∈ checkEntries path kind position entries ↔
      ∃ index entry, entries[index]? = some entry ∧ entry.isOfKind kind = false ∧
        finding = ⟨path.index (position + index), .enumEntry entry kind⟩ := by
  refine ⟨exists_of_mem_checkEntries, ?_⟩
  rintro ⟨index, entry, hentry, hkind, rfl⟩
  induction entries generalizing position index with
  | nil => cases hentry
  | cons first rest ih =>
      rw [checkEntries, List.mem_append]
      cases index with
      | zero =>
          obtain rfl := Option.some.inj hentry
          simp [hkind]
      | succ index =>
          right
          have hrest := @ih (position + 1) index hentry
          rwa [Nat.add_right_comm, Nat.add_assoc] at hrest

theorem mem_checkRequired {declared names : List String} {position : Nat} :
    finding ∈ checkRequired path declared position names ↔
      ∃ index name, names[index]? = some name ∧ name ∉ declared ∧
        finding = ⟨path.index (position + index), .undeclaredRequired name⟩ := by
  refine ⟨exists_of_mem_checkRequired, ?_⟩
  rintro ⟨index, name, hname, hmissing, rfl⟩
  induction names generalizing position index with
  | nil => cases hname
  | cons first rest ih =>
      rw [checkRequired, List.mem_append]
      cases index with
      | zero =>
          obtain rfl := Option.some.inj hname
          simp [hmissing]
      | succ index =>
          right
          have hrest := @ih (position + 1) index hname
          rwa [Nat.add_right_comm, Nat.add_assoc] at hrest

end Lists

section Node

open Schema

variable {limit depth : Nat} {path : Path} {members : Members Json} {node : SchemaNode}
  {finding : Located Violation}

theorem names_validation (h : Filled limit depth members (.blank path) node) :
    Members.names node.keywords.validation =
      members.names.filter (Keyword.classOf · = .validation) := by
  rw [h.validation]
  simp [SchemaNode.blank, Keywords.none, Members.names, List.filter_map, Function.comp_def]

theorem nonReferenceKeywords_eq (h : Filled limit depth members (.blank path) node) :
    node.nonReferenceKeywords = beside members := by
  have hpresent {α : Type} {name : String} {value : Option α} (rest : List String)
      (hvalue : value.isSome = true ↔ name ∈ members.names) :
      (name :: rest).filter (· ∈ members.names) =
        SchemaNode.present name value ++ rest.filter (· ∈ members.names) := by
    by_cases hname : name ∈ members.names
    · simp [SchemaNode.present, hname, hvalue.2 hname]
    · have hnone : ¬ value.isSome = true := fun hsome => hname (hvalue.1 hsome)
      simp [SchemaNode.present, hname, hnone]
  rw [SchemaNode.nonReferenceKeywords, beside, hpresent _ h.type.isSome_iff,
    hpresent _ h.properties.isSome_iff, hpresent _ h.additional.isSome_iff,
    hpresent _ h.items.isSome_iff, hpresent _ h.required.isSome_iff, names_validation h,
    h.polymorphism, h.unknown]
  simp [SchemaNode.blank, Keywords.none]

theorem mem_checkReference (h : Filled limit depth members (.blank path) node)
    (hrefers : "$ref" ∈ members.names) :
    finding ∈ checkReference node ↔
      (∃ name ∈ members.names, name ∉ ["$ref", "description", "readOnly"]) ∧
        finding = ⟨path, .notExclusive (beside members)⟩ := by
  have hpath : node.path = path := h.path
  have hbare : node.nonReferenceKeywords = [] ↔
      ∀ name ∈ members.names, name ∈ ["$ref", "description", "readOnly"] := by
    have hiff := refers_iff h
    rw [h.reference.isSome_iff] at hiff
    exact ⟨fun hnone => (hiff.1 ⟨hrefers, hnone⟩).alone,
      fun halone => (hiff.2 ⟨hrefers, halone⟩).2⟩
  unfold checkReference
  split
  · next hnone =>
    refine iff_of_false List.not_mem_nil ?_
    rintro ⟨⟨name, hname, hother⟩, -⟩
    exact hother (hbare.1 hnone name hname)
  · next hsome =>
    rw [hbare, not_forall] at hsome
    obtain ⟨name, hname⟩ := hsome
    rw [Classical.not_imp] at hname
    rw [List.mem_singleton, nonReferenceKeywords_eq h, hpath]
    exact (and_iff_right ⟨name, hname⟩).symm

/-- The findings on a validation keyword are the breaches of the rules for it. -/
theorem mem_checkAttribute (kind : Kind) (name : String) (value : Json) :
    finding ∈ checkAttribute path kind name value ↔
      (Keyword.allows name kind = false ∧ finding = ⟨path.key name, .misplaced name kind⟩) ∨
      (Keyword.allows name kind = true ∧ name = "enum" ∧
        (((∀ entries, value ≠ .array entries) ∧ finding = ⟨path.key "enum", .enumNotList⟩) ∨
          ∃ entries, value = .array entries ∧ ∃ index entry, entries[index]? = some entry ∧
            entry.isOfKind kind = false ∧
            finding = ⟨(path.key "enum").index index, .enumEntry entry kind⟩)) ∨
      (Keyword.allows name kind = true ∧ name = "default" ∧ value.isOfKind kind = false ∧
        finding = ⟨path.key "default", .defaultValue value kind⟩) := by
  unfold checkAttribute
  cases hallows : Keyword.allows name kind with
  | false => simp
  | true =>
      by_cases henum : name = "enum"
      · subst henum
        cases value <;> simp [mem_checkEntries]
      · by_cases hdefault : name = "default"
        · subst hdefault
          cases value.isOfKind kind <;> simp
        · simp [henum, hdefault]

theorem mem_checkObject (h : Filled limit depth members (.blank path) node) :
    finding ∈ checkObject node ↔
      ("properties" ∈ members.names ∧ maps members = true ∧ finding = ⟨path, .twoShapes⟩) ∨
      (members.get? "additionalProperties" = some (.bool true) ∧
        finding = ⟨path.key "additionalProperties", .openProperties⟩) ∨
      ∃ index name, (∃ entries, members.get? "required" = some (.array entries) ∧
          entries[index]? = some (.string name)) ∧
        (¬ ∃ schemas, members.get? "properties" = some (.object schemas) ∧
          name ∈ Members.names schemas) ∧
        finding = ⟨(path.key "required").index index, .undeclaredRequired name⟩ := by
  have hpath : node.path = path := h.path
  rw [checkObject, hpath, List.mem_append, List.mem_append, ← additional_eq_open_iff h,
    mem_checkRequired, or_assoc]
  simp only [h.properties.isSome_iff, isSome_mapValue? h, required_getElem? h,
    mem_properties_iff h, Nat.zero_add]
  refine or_congr ?_ (or_congr ?_ Iff.rfl)
  · by_cases hshapes : "properties" ∈ members.names ∧ maps members = true
    · simp [hshapes]
    · rw [if_neg hshapes, ← and_assoc]
      exact iff_of_false List.not_mem_nil fun hboth => hshapes hboth.1
  · rcases node.additional with _ | (_ | _) | _ <;> simp

theorem mem_checkArray (h : Filled limit depth members (.blank path) node) :
    finding ∈ checkArray node ↔
      "items" ∉ members.names ∧ finding = ⟨path, .arrayWithoutItems⟩ := by
  have hpath : node.path = path := h.path
  simp only [checkArray, hpath, h.items.isSome_iff]
  by_cases hitems : "items" ∈ members.names <;> simp [hitems]

/-- A structural keyword is misplaced if it belongs on another kind. -/
theorem structural_iff {declared : SpelledKind} :
    (∃ keyword owner, keyword ∈ members.names ∧ Keyword.owner? keyword = some owner ∧
        declared ≠ owner ∧ finding = ⟨path.key keyword, .misplaced keyword declared.kind⟩) ↔
      ((("properties" ∈ members.names ∧ declared ≠ .object) ∧
          finding = ⟨path.key "properties", .misplaced "properties" declared.kind⟩) ∨
        (("additionalProperties" ∈ members.names ∧ declared ≠ .object) ∧
          finding = ⟨path.key "additionalProperties",
            .misplaced "additionalProperties" declared.kind⟩) ∨
        (("required" ∈ members.names ∧ declared ≠ .object) ∧
          finding = ⟨path.key "required", .misplaced "required" declared.kind⟩) ∨
        (("items" ∈ members.names ∧ declared ≠ .array) ∧
          finding = ⟨path.key "items", .misplaced "items" declared.kind⟩)) := by
  constructor
  · rintro ⟨keyword, owner, hthere, howner, hother, rfl⟩
    unfold Keyword.owner? at howner
    split at howner <;> cases howner <;> simp [hthere, hother]
  · rintro (⟨⟨hthere, hother⟩, rfl⟩ | ⟨⟨hthere, hother⟩, rfl⟩ | ⟨⟨hthere, hother⟩, rfl⟩ |
      ⟨⟨hthere, hother⟩, rfl⟩) <;> exact ⟨_, _, hthere, rfl, hother, rfl⟩

theorem mem_checkKind_cases {declared : SpelledKind} :
    finding ∈ checkKind node declared ↔
      (finding ∈ misplacedIf (node.properties.isSome && !(decide (declared = .object))) node.path
            "properties" declared.kind ∨
        finding ∈ misplacedIf (node.additional.isSome && !(decide (declared = .object))) node.path
            "additionalProperties" declared.kind ∨
        finding ∈ misplacedIf (node.keywords.required.isSome && !(decide (declared = .object)))
            node.path "required" declared.kind ∨
        finding ∈ misplacedIf (node.items.isSome && declared ≠ .array) node.path "items"
            declared.kind) ∨
      (∃ pair ∈ node.keywords.validation,
        finding ∈ checkAttribute node.path (node.effectiveKind declared) pair.1 pair.2) ∨
      (declared = .object ∧ finding ∈ checkObject node) ∨
      (declared = .array ∧ finding ∈ checkArray node) := by
  cases declared <;> simp [checkKind, or_assoc]

theorem mem_checkKind (h : Filled limit depth members (.blank path) node)
    (hnodup : members.names.Nodup) {declared : SpelledKind} :
    finding ∈ checkKind node declared ↔ KindBreach path members declared finding := by
  have hpath : node.path = path := h.path
  rw [mem_checkKind_cases]
  simp only [hpath, mem_misplacedIf, Bool.and_eq_true, Bool.not_eq_true',
    decide_eq_false_iff_not, decide_eq_true_eq, h.properties.isSome_iff,
    h.additional.isSome_iff, h.required.isSome_iff, h.items.isSome_iff, ← ne_eq,
    mem_checkObject h, mem_checkArray h, Language.effectiveKind_eq h, mem_checkAttribute]
  rw [← structural_iff]
  -- both sides are in the order of the check: keywords out of place, attributes, objects, arrays
  constructor
  · rintro (⟨keyword, owner, hthere, howner, hother, rfl⟩ | ⟨⟨name, value⟩, hvalue, hattribute⟩ |
      ⟨hobject, ⟨hthere, hmaps, rfl⟩ | ⟨hopen, rfl⟩ | ⟨index, name, ⟨entries, hentries, hentry⟩,
        hmissing, rfl⟩⟩ | ⟨harray, habsent, rfl⟩)
    · exact .structural hthere howner hother
    · obtain ⟨hvalue, hclass⟩ := (mem_validation_iff h hnodup).1 hvalue
      rcases hattribute with ⟨hallows, rfl⟩ | ⟨hallows, rfl, ⟨hother, rfl⟩ | ⟨entries, rfl, index,
        entry, hentry, hother, rfl⟩⟩ | ⟨hallows, rfl, hother, rfl⟩
      · exact .validation (Members.mem_names_of_get? hvalue) hclass hallows
      · exact .enumNotList hvalue hallows hother
      · exact .enumEntry hvalue hallows hentry hother
      · exact .default hvalue hallows hother
    · exact .twoShapes hobject hthere hmaps
    · exact .openProperties hobject hopen
    · exact .undeclaredRequired hobject hentries hentry hmissing
    · exact .arrayWithoutItems harray habsent
  · have hvalidation {name : String} {value : Json} (hvalue : members.get? name = some value)
        (hclass : Keyword.classOf name = .validation) :
        (name, value) ∈ node.keywords.validation := (mem_validation_iff h hnodup).2 ⟨hvalue, hclass⟩
    intro hbreach
    cases hbreach with
    | structural hthere howner hother => exact .inl ⟨_, _, hthere, howner, hother, rfl⟩
    | validation hthere hclass hallows =>
        obtain ⟨value, hvalue⟩ := Members.exists_get?_of_mem_names hthere
        exact .inr (.inl ⟨_, hvalidation hvalue hclass, .inl ⟨hallows, rfl⟩⟩)
    | enumNotList hvalue hallows hother =>
        exact .inr (.inl ⟨_, hvalidation hvalue (by decide),
          .inr (.inl ⟨hallows, rfl, .inl ⟨hother, rfl⟩⟩)⟩)
    | enumEntry hvalue hallows hentry hother =>
        exact .inr (.inl ⟨_, hvalidation hvalue (by decide),
          .inr (.inl ⟨hallows, rfl, .inr ⟨_, rfl, _, _, hentry, hother, rfl⟩⟩)⟩)
    | default hvalue hallows hother =>
        exact .inr (.inl ⟨_, hvalidation hvalue (by decide),
          .inr (.inr ⟨hallows, rfl, hother, rfl⟩)⟩)
    | twoShapes hobject hthere hmaps =>
        exact .inr (.inr (.inl ⟨hobject, .inl ⟨hthere, hmaps, rfl⟩⟩))
    | openProperties hobject hopen =>
        exact .inr (.inr (.inl ⟨hobject, .inr (.inl ⟨hopen, rfl⟩)⟩))
    | undeclaredRequired hobject hentries hentry hmissing =>
        exact .inr (.inr (.inl ⟨hobject,
          .inr (.inr ⟨_, _, ⟨_, hentries, hentry⟩, hmissing, rfl⟩)⟩))
    | arrayWithoutItems harray habsent => exact .inr (.inr (.inr ⟨harray, habsent, rfl⟩))

theorem mem_checkType (h : Filled limit depth members (.blank path) node)
    (hnodup : members.names.Nodup) {position : Position} :
    finding ∈ checkType position node ↔
      ("type" ∉ members.names ∧ finding = ⟨path, position.untyped⟩) ∨
      (∃ value, members.get? "type" = some value ∧ (∀ declared, ¬ Spells members declared) ∧
        finding = ⟨path, .unsupportedType value⟩) ∨
      ∃ declared, Spells members declared ∧ KindBreach path members declared finding := by
  have hpath : node.path = path := h.path
  have hspells (declared : SpelledKind) :
      Spells members declared ↔ node.keywords.type = some (.known declared) :=
    (type_eq_known_iff h).symm
  simp only [hspells, ← mem_checkKind h hnodup, ← h.type.eq_none_iff]
  rw [checkType, hpath]
  cases htype : node.keywords.type with
  | none =>
      have hnone := Members.get?_eq_none_iff.2 (h.type.eq_none_iff.1 htype)
      simp [hnone]
  | some type =>
      cases type with
      | known declared => simp
      | unsupported value =>
          obtain ⟨found, hfound, hread⟩ := h.type.source htype
          obtain ⟨rfl, -⟩ := eq_of_readType_unsupported hread.symm
          simp [hfound]

/-- The violations of one schema are exactly the breaches at it. -/
theorem mem_checkOwn {address : Address}
    (h : Filled limit depth members (.blank address.path) node) (hnodup : members.names.Nodup) :
    finding ∈ checkOwn address.position node ↔ Breach address members finding := by
  have hpath : node.path = address.path := h.path
  have hpolymorphism : node.keywords.polymorphism =
      members.names.filter (Keyword.classOf · = .polymorphism) := h.polymorphism
  have hunknown : node.keywords.unknown =
      members.names.filter (Keyword.classOf · = .unknown) := h.unknown
  rw [checkOwn, hpath, hpolymorphism, hunknown]
  simp only [List.mem_append, List.mem_map, List.mem_filter, decide_eq_true_eq]
  -- beside a reference, the type is not looked at
  by_cases hrefers : "$ref" ∈ members.names
  · rw [if_pos (h.reference.isSome_iff.2 hrefers), mem_checkReference h hrefers]
    constructor
    · rintro ((⟨keyword, ⟨hthere, hclass⟩, rfl⟩ | ⟨name, ⟨hthere, hclass⟩, rfl⟩) |
        ⟨⟨name, hthere, hother⟩, rfl⟩)
      · exact .polymorphic hthere hclass
      · exact .unknownKeyword hthere hclass
      · exact .notExclusive hrefers hthere hother
    · intro hbreach
      cases hbreach with
      | polymorphic hthere hclass => exact .inl (.inl ⟨_, ⟨hthere, hclass⟩, rfl⟩)
      | unknownKeyword hthere hclass => exact .inl (.inr ⟨_, ⟨hthere, hclass⟩, rfl⟩)
      | notExclusive _ hthere hother => exact .inr ⟨⟨_, hthere, hother⟩, rfl⟩
      | untyped hplace | unsupportedType hplace | kind hplace => exact absurd hrefers hplace
  · rw [if_neg fun hsome => hrefers (h.reference.isSome_iff.1 hsome), mem_checkType h hnodup]
    constructor
    · rintro ((⟨keyword, ⟨hthere, hclass⟩, rfl⟩ | ⟨name, ⟨hthere, hclass⟩, rfl⟩) |
        ⟨habsent, rfl⟩ | ⟨value, hvalue, hnone, rfl⟩ | ⟨declared, hspells, hkind⟩)
      · exact .polymorphic hthere hclass
      · exact .unknownKeyword hthere hclass
      · exact .untyped hrefers habsent
      · exact .unsupportedType hrefers hvalue hnone
      · exact .kind hrefers hspells hkind
    · intro hbreach
      cases hbreach with
      | polymorphic hthere hclass => exact .inl (.inl ⟨_, ⟨hthere, hclass⟩, rfl⟩)
      | unknownKeyword hthere hclass => exact .inl (.inr ⟨_, ⟨hthere, hclass⟩, rfl⟩)
      | notExclusive hthere => exact absurd hthere hrefers
      | untyped _ habsent => exact .inr (.inl ⟨habsent, rfl⟩)
      | unsupportedType _ hvalue hnone => exact .inr (.inr (.inl ⟨_, hvalue, hnone, rfl⟩))
      | kind _ hspells hkind => exact .inr (.inr (.inr ⟨_, hspells, hkind⟩))

/-- The violations of the root alone are exactly the breaches at it. -/
theorem mem_checkRoot (h : Filled limit depth members (.blank .root) node) :
    finding ∈ checkRoot node ↔ RootBreach members finding := by
  rw [mem_checkRoot_cases h]
  constructor
  · rintro (⟨hrefers, rfl⟩ | ⟨hplace, declared, hspells, ⟨rfl, hmaps, rfl⟩ | ⟨hother, rfl⟩⟩)
    · exact .reference hrefers
    · exact .map hplace hspells hmaps
    · exact .kind hplace hspells hother
  · intro hbreach
    cases hbreach with
    | reference hrefers => exact .inl ⟨hrefers, rfl⟩
    | map hplace hspells hmaps => exact .inr ⟨hplace, _, hspells, .inl ⟨rfl, hmaps, rfl⟩⟩
    | kind hplace hspells hother => exact .inr ⟨hplace, _, hspells, .inr ⟨hother, rfl⟩⟩

end Node

/-- The violations of a document are exactly the breaches of the rules in it. -/
theorem mem_violations {limit : Nat} {document : Json} {root : SchemaNode}
    {finding : Located Violation} (hproper : document.Proper)
    (hread : Schema.read limit document = .ok root) :
    finding ∈ violations root ↔ DocumentBreach document finding := by
  obtain ⟨members, rfl, -, -, hfilled⟩ := filled_of_readNode hproper hread
  rw [violations, List.mem_append, mem_checkRoot hfilled, check_eq_nodes, List.mem_flatMap]
  constructor
  · rintro (hroot | ⟨⟨address, node⟩, hnode, hown⟩)
    · exact .root rfl hroot
    · obtain ⟨inner, hseated⟩ := Schema.seated_of_mem_nodes hproper hread hnode
      exact .schema hseated.here
        ((mem_checkOwn (hseated.path ▸ hseated.filled) hseated.proper.1).1 hown)
  · rintro (⟨hhere, hroot⟩ | ⟨hhere, hbreach⟩)
    · obtain rfl := Json.object.inj hhere
      exact .inl hroot
    · obtain ⟨node, hnode, hseated⟩ := Schema.exists_seated hproper hread hhere
      exact .inr ⟨_, hnode,
        (mem_checkOwn (hseated.path ▸ hseated.filled) hseated.proper.1).2 hbreach⟩

end Grammar

end ResourceTypes
