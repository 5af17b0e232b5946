import ResourceTypes.Proofs.Schema.Offence

/-!
Where a document breaks the grammar. Each violation is reported at the schema,
the keyword or the entry that breaks the rule, and what it says holds there.
-/

namespace ResourceTypes

namespace Language

/-- A schema spells a kind under `type`. -/
def Spells (members : Members Json) (declared : SpelledKind) : Prop :=
  ∃ word, members.get? "type" = some (.string word) ∧ SpelledKind.ofName? word = some declared

/-- The kind that a schema spells, where an object with typed additional
properties counts as a map. -/
def HasKind (members : Members Json) (kind : Kind) : Prop :=
  ∃ declared, Spells members declared ∧ kind = kindOf members declared

end Language

open ResourceTypes.Language

/-- What a violation says of the spot that it is reported at. A schema as a whole
is at fault for what it lacks or combines, a keyword for where it stands or what
its value is, and an entry for being no value of the kind or no property. -/
def Violation.Fits : Violation → Spot → Prop
  | .rootReference, .schema hops (.object members) => hops = 0 ∧ "$ref" ∈ Members.names members
  | .rootMap, .schema hops (.object members) =>
    hops = 0 ∧ Spells members .object ∧ maps members = true
  | .rootKind kind, .schema hops (.object members) =>
    hops = 0 ∧ ∃ declared, Spells members declared ∧ declared ≠ .object ∧ kind = declared.kind
  | .polymorphic keyword, .schema _ (.object members) =>
    keyword ∈ Members.names members ∧ Keyword.classOf keyword = .polymorphism
  | .unknownKeyword name, .schema _ (.object members) =>
    name ∈ Members.names members ∧ Keyword.classOf name = .unknown
  | .notExclusive others, .schema _ (.object members) =>
    "$ref" ∈ Members.names members ∧ others ≠ [] ∧
      ∀ name ∈ others, name ∈ Members.names members ∧ name ∉ ["$ref", "description", "readOnly"]
  | .untyped, .schema _ (.object members) | .untypedItem, .schema _ (.object members) =>
    "type" ∉ Members.names members ∧ "$ref" ∉ Members.names members
  | .unsupportedType value, .schema _ (.object members) =>
    Members.get? members "type" = some value ∧
      ∀ word, value = .string word → SpelledKind.ofName? word = none
  | .twoShapes, .schema _ (.object members) =>
    "properties" ∈ Members.names members ∧ maps members = true
  | .arrayWithoutItems, .schema _ (.object members) =>
    Spells members .array ∧ "items" ∉ Members.names members
  | .misplaced keyword kind, .keyword members name _ =>
    name = keyword ∧ Keyword.allows keyword kind = false ∧
      (HasKind members kind ∨ ∃ declared, Spells members declared ∧ kind = declared.kind)
  | .enumNotList, .keyword _ name value => name = "enum" ∧ ∀ entries, value ≠ .array entries
  | .defaultValue default kind, .keyword members name value =>
    name = "default" ∧ value = default ∧ HasKind members kind ∧ value.isOfKind kind = false
  | .openProperties, .keyword _ name value => name = "additionalProperties" ∧ value = .bool true
  | .enumEntry entry kind, .entry members name value =>
    name = "enum" ∧ value = entry ∧ HasKind members kind ∧ value.isOfKind kind = false
  | .undeclaredRequired missing, .entry members name value =>
    name = "required" ∧ value = .string missing ∧
      ¬ ∃ schemas, Members.get? members "properties" = some (.object schemas) ∧
        missing ∈ Members.names schemas
  | _, _ => False

namespace Grammar

variable {path : Path} {finding : Located Violation}

/-! ### What the single checks list -/

theorem eq_of_mem_misplacedIf {present : Bool} {keyword : String} {kind : Kind}
    (h : finding ∈ misplacedIf present path keyword kind) :
    present = true ∧ finding = ⟨path.key keyword, .misplaced keyword kind⟩ := by
  cases present with
  | false => cases h
  | true => exact ⟨rfl, List.mem_singleton.1 h⟩

theorem exists_of_mem_checkEntries {kind : Kind} {position : Nat} {entries : List Json}
    (h : finding ∈ checkEntries path kind position entries) :
    ∃ index entry, entries[index]? = some entry ∧ entry.isOfKind kind = false ∧
      finding = ⟨path.index (position + index), .enumEntry entry kind⟩ := by
  induction entries generalizing position with
  | nil => cases h
  | cons entry rest ih =>
      rw [checkEntries, List.mem_append] at h
      rcases h with h | h
      · split at h
        · cases h
        · next hkind => exact ⟨0, entry, rfl, by simpa using hkind, List.mem_singleton.1 h⟩
      · obtain ⟨index, other, hother, hkind, rfl⟩ := ih h
        refine ⟨index + 1, other, hother, hkind, ?_⟩
        rw [Nat.add_right_comm, Nat.add_assoc]

theorem exists_of_mem_checkRequired {declared names : List String} {position : Nat}
    (h : finding ∈ checkRequired path declared position names) :
    ∃ index name, names[index]? = some name ∧ name ∉ declared ∧
      finding = ⟨path.index (position + index), .undeclaredRequired name⟩ := by
  induction names generalizing position with
  | nil => cases h
  | cons name rest ih =>
      rw [checkRequired, List.mem_append] at h
      rcases h with h | h
      · split at h
        · cases h
        · next hname => exact ⟨0, name, rfl, hname, List.mem_singleton.1 h⟩
      · obtain ⟨index, other, hother, hname, rfl⟩ := ih h
        refine ⟨index + 1, other, hother, hname, ?_⟩
        rw [Nat.add_right_comm, Nat.add_assoc]

/-- Each finding of a tree is one that a node of it has of its own. -/
theorem exists_of_mem_check {position : Position} {root : SchemaNode}
    (h : finding ∈ check position root) :
    ∃ node place, root.Holds node ∧ finding ∈ checkOwn place node := by
  induction root using SchemaNode.induct generalizing position with
  | step root ih =>
      have hbelow {child : SchemaNode} {place : Position} (hchild : child ∈ root.children)
          (hfinding : finding ∈ check place child) :
          ∃ node place, root.Holds node ∧ finding ∈ checkOwn place node := by
        obtain ⟨node, place, hnode, hown⟩ := ih child hchild hfinding
        exact ⟨node, place, .head hchild hnode, hown⟩
      rw [check_eq] at h
      simp only [List.mem_append, List.mem_flatMap] at h
      rcases h with ((hown | ⟨pair, hpair, hfinding⟩) | ⟨value, hvalue, hfinding⟩) |
        ⟨items, hitems, hfinding⟩
      · exact ⟨root, position, .refl, hown⟩
      · exact hbelow (List.mem_append_left _ (List.mem_append_left _ (List.mem_map_of_mem hpair)))
          hfinding
      · exact hbelow (List.mem_append_left _ (List.mem_append_right _ hvalue)) hfinding
      · exact hbelow (List.mem_append_right _ hitems) hfinding

theorem mem_present {α : Type} {name other : String} {value : Option α}
    (h : other ∈ SchemaNode.present name value) : other = name ∧ value.isSome = true := by
  cases value with
  | none => cases h
  | some value => exact ⟨List.mem_singleton.1 h, rfl⟩

theorem declaredKind?_eq_some_iff {limit depth : Nat} {members : Members Json} {node : SchemaNode}
    (h : Schema.Filled limit depth members (.blank path) node) {declared : SpelledKind} :
    node.declaredKind? = some declared ↔ Spells members declared := by
  rw [Spells, ← type_eq_known_iff h, SchemaNode.declaredKind?]
  split
  · next kind htype => rw [htype, Option.some.injEq, Option.some.injEq, DeclaredType.known.injEq]
  · next hother => exact ⟨nofun, fun htype => absurd htype (hother declared)⟩

/-- What the root alone breaks: it refers, or it spells another kind than an object's. -/
theorem mem_checkRoot_cases {limit depth : Nat} {members : Members Json} {node : SchemaNode}
    (h : Schema.Filled limit depth members (.blank path) node) :
    finding ∈ checkRoot node ↔
      "$ref" ∈ members.names ∧ finding = ⟨path, .rootReference⟩ ∨
      "$ref" ∉ members.names ∧ ∃ declared, Spells members declared ∧
        (declared = .object ∧ maps members = true ∧ finding = ⟨path, .rootMap⟩ ∨
          declared ≠ .object ∧ finding = ⟨path, .rootKind declared.kind⟩) := by
  have hpath : node.path = path := h.path
  rw [checkRoot, hpath]
  by_cases hrefers : "$ref" ∈ members.names
  · rw [if_pos (h.reference.isSome_iff.2 hrefers)]
    simp [hrefers]
  · rw [if_neg fun hsome => hrefers (h.reference.isSome_iff.1 hsome)]
    simp only [hrefers, false_and, false_or, not_false_eq_true, true_and,
      ← declaredKind?_eq_some_iff h]
    rw [SchemaNode.effectiveKind?]
    cases hdeclared : node.declaredKind? with
    | none => simp
    | some declared =>
        simp only [Option.map_some, Language.effectiveKind_eq h, Option.some.injEq,
          exists_eq_left', kindOf]
        cases declared <;> cases maps members <;> simp [SpelledKind.kind]

/-- A type is unsupported if it is no word for a kind. -/
theorem eq_of_readType_unsupported {found value : Json}
    (h : Schema.readType found = .unsupported value) :
    found = value ∧ ∀ word, value = .string word → SpelledKind.ofName? word = none := by
  cases found with
  | string word =>
      cases hword : SpelledKind.ofName? word with
      | some kind => simp [Schema.readType, hword] at h
      | none =>
          simp only [Schema.readType, hword, DeclaredType.unsupported.injEq] at h
          subst h
          refine ⟨rfl, fun other hother => ?_⟩
          rw [← Json.string.inj hother, hword]
  | _ =>
      cases h
      exact ⟨rfl, by simp⟩

/-! ### The findings of one schema -/

section Standing

variable {limit hops : Nat} {document : Json} {members : Members Json} {node : SchemaNode}

/-- A violation of a schema as a whole is shown at the schema. -/
theorem shown_schema (h : Standing limit document node hops members) {violation : Violation}
    (hfits : violation.Fits (.schema hops (.object members))) :
    Shown document Violation.Fits ⟨node.path, violation⟩ :=
  ⟨_, .schema h.place, hfits⟩

/-- A violation of one keyword is shown at its value. -/
theorem shown_keyword (h : Standing limit document node hops members) {violation : Violation}
    {name : String} {value : Json} (hvalue : members.get? name = some value)
    (hfits : violation.Fits (.keyword members name value)) :
    Shown document Violation.Fits ⟨node.path.key name, violation⟩ :=
  ⟨_, .keyword h.place hvalue, hfits⟩

/-- The violation of one entry is shown at the entry. -/
theorem shown_entry (h : Standing limit document node hops members) {violation : Violation}
    {name : String} {entries : List Json} {position : Nat} {value : Json}
    (hentries : members.get? name = some (.array entries))
    (hvalue : entries[position]? = some value)
    (hfits : violation.Fits (.entry members name value)) :
    Shown document Violation.Fits ⟨(node.path.key name).index position, violation⟩ :=
  ⟨_, .entry h.place hentries hvalue, hfits⟩

/-- A keyword that is there, and is none of the validation keywords, is shown at
its value if it does not belong on the spelled kind. -/
theorem misplacedIf_shown (h : Standing limit document node hops members)
    {declared : SpelledKind} (hspells : Spells members declared) {keyword : String}
    {present other : Bool} (hpresent : present = true ↔ keyword ∈ members.names)
    (hclass : Keyword.kinds? keyword = none)
    (hfinding : finding ∈ misplacedIf (present && other) node.path keyword declared.kind) :
    Shown document Violation.Fits finding := by
  obtain ⟨hboth, rfl⟩ := eq_of_mem_misplacedIf hfinding
  obtain ⟨hthere, -⟩ := Bool.and_eq_true_iff.1 hboth
  obtain ⟨value, hvalue⟩ := Members.exists_get?_of_mem_names (hpresent.1 hthere)
  have hallows : Keyword.allows keyword declared.kind = false := by rw [Keyword.allows, hclass]
  exact shown_keyword h hvalue ⟨rfl, hallows, .inr ⟨declared, hspells, rfl⟩⟩

theorem checkAttribute_shown (h : Standing limit document node hops members) {kind : Kind}
    (hkind : HasKind members kind) {name : String} {value : Json}
    (hvalue : members.get? name = some value)
    (hfinding : finding ∈ checkAttribute node.path kind name value) :
    Shown document Violation.Fits finding := by
  unfold checkAttribute at hfinding
  split at hfinding
  case isTrue hallows =>
    obtain rfl := List.mem_singleton.1 hfinding
    exact shown_keyword h hvalue ⟨rfl, hallows, .inl hkind⟩
  case isFalse =>
    split at hfinding
    case isTrue hname =>
      subst hname
      cases value with
      | array entries =>
          obtain ⟨index, entry, hentry, hother, rfl⟩ := exists_of_mem_checkEntries hfinding
          rw [Nat.zero_add]
          exact shown_entry h hvalue hentry ⟨rfl, rfl, hkind, hother⟩
      | _ =>
          obtain rfl := List.mem_singleton.1 hfinding
          exact shown_keyword h hvalue ⟨rfl, nofun⟩
    case isFalse =>
      split at hfinding
      case isTrue hdefault =>
        obtain ⟨rfl, hother⟩ := hdefault
        obtain rfl := List.mem_singleton.1 hfinding
        exact shown_keyword h hvalue ⟨rfl, rfl, hkind, hother⟩
      case isFalse => cases hfinding

theorem checkObject_shown (h : Standing limit document node hops members)
    (hfinding : finding ∈ checkObject node) : Shown document Violation.Fits finding := by
  rw [checkObject, List.mem_append, List.mem_append] at hfinding
  rcases hfinding with (hfinding | hfinding) | hfinding
  · split at hfinding
    case isTrue hboth =>
      obtain rfl := List.mem_singleton.1 hfinding
      rw [h.filled.properties.isSome_iff, isSome_mapValue? h.filled] at hboth
      exact shown_schema h hboth
    case isFalse => cases hfinding
  · split at hfinding
    · next hopen =>
      obtain rfl := List.mem_singleton.1 hfinding
      exact shown_keyword h ((additional_eq_open_iff h.filled).1 hopen) ⟨rfl, rfl⟩
    · cases hfinding
  · obtain ⟨index, name, hname, hmissing, rfl⟩ := exists_of_mem_checkRequired hfinding
    rw [Nat.zero_add]
    rw [mem_properties_iff h.filled] at hmissing
    cases hrequired : node.keywords.required with
    | none =>
        rw [hrequired] at hname
        cases hname
    | some names =>
        obtain ⟨_, hfound, rfl⟩ := h.filled.required.source hrequired
        rw [hrequired, Option.getD_some] at hname
        have hentry : (names.map Json.string)[index]? = some (.string name) := by
          rw [List.getElem?_map, hname, Option.map_some]
        exact shown_entry h hfound hentry ⟨rfl, rfl, hmissing⟩

theorem checkKind_shown (h : Standing limit document node hops members)
    {declared : SpelledKind} (hspells : Spells members declared)
    (hfinding : finding ∈ checkKind node declared) : Shown document Violation.Fits finding := by
  simp only [checkKind, List.mem_append] at hfinding
  rcases hfinding with ((((hfinding | hfinding) | hfinding) | hfinding) | hfinding) | hfinding
  · exact misplacedIf_shown h hspells h.filled.properties.isSome_iff rfl hfinding
  · exact misplacedIf_shown h hspells h.filled.additional.isSome_iff rfl hfinding
  · exact misplacedIf_shown h hspells h.filled.required.isSome_iff rfl hfinding
  · exact misplacedIf_shown h hspells h.filled.items.isSome_iff rfl hfinding
  · obtain ⟨⟨name, value⟩, hattribute, hfinding⟩ := List.mem_flatMap.1 hfinding
    obtain ⟨hvalue, -⟩ := (mem_validation_iff h.filled h.proper.1).1 hattribute
    rw [Language.effectiveKind_eq h.filled] at hfinding
    exact checkAttribute_shown h ⟨declared, hspells, rfl⟩ hvalue hfinding
  · cases declared with
    | object => exact checkObject_shown h hfinding
    | array =>
        simp only [checkArray] at hfinding
        split at hfinding
        case isTrue => cases hfinding
        case isFalse hitems =>
          obtain rfl := List.mem_singleton.1 hfinding
          rw [h.filled.items.isSome_iff] at hitems
          exact shown_schema h ⟨hspells, hitems⟩
    | scalar kind => cases hfinding

theorem mem_polymorphism (h : Standing limit document node hops members) {keyword : String}
    (hkeyword : keyword ∈ node.keywords.polymorphism) :
    keyword ∈ members.names ∧ Keyword.classOf keyword = .polymorphism := by
  rw [h.filled.polymorphism] at hkeyword
  simpa [SchemaNode.blank, Keywords.none] using hkeyword

theorem mem_unknown (h : Standing limit document node hops members) {name : String}
    (hname : name ∈ node.keywords.unknown) :
    name ∈ members.names ∧ Keyword.classOf name = .unknown := by
  rw [h.filled.unknown] at hname
  simpa [SchemaNode.blank, Keywords.none] using hname

/-- What may not stand beside a reference is a keyword other than the reference
and its notes. -/
theorem mem_nonReferenceKeywords (h : Standing limit document node hops members) {name : String}
    (hname : name ∈ node.nonReferenceKeywords) :
    name ∈ members.names ∧ name ∉ ["$ref", "description", "readOnly"] := by
  have hnotes : ∀ note ∈ ["$ref", "description", "readOnly"],
      Keyword.classOf note = .structural ∨ Keyword.classOf note = .metadata := by decide
  have hpresent {α : Type} {key : String} {value : Option α}
      (hkey : value.isSome = true ↔ key ∈ members.names)
      (hother : key ∉ ["$ref", "description", "readOnly"])
      (hmem : name ∈ SchemaNode.present key value) :
      name ∈ members.names ∧ name ∉ ["$ref", "description", "readOnly"] := by
    obtain ⟨rfl, hsome⟩ := mem_present hmem
    exact ⟨hkey.1 hsome, hother⟩
  simp only [SchemaNode.nonReferenceKeywords, List.mem_append, or_assoc] at hname
  rcases hname with hname | hname | hname | hname | hname | hname | hname | hname
  · exact hpresent h.filled.type.isSome_iff (by decide) hname
  · exact hpresent h.filled.properties.isSome_iff (by decide) hname
  · exact hpresent h.filled.additional.isSome_iff (by decide) hname
  · exact hpresent h.filled.items.isSome_iff (by decide) hname
  · exact hpresent h.filled.required.isSome_iff (by decide) hname
  · obtain ⟨hmem, hclass⟩ := mem_polymorphism h hname
    exact ⟨hmem, fun hnote => by simpa [hclass] using hnotes name hnote⟩
  · obtain ⟨⟨_, value⟩, hattribute, rfl⟩ := List.mem_map.1 hname
    obtain ⟨hvalue, hclass⟩ := (mem_validation_iff h.filled h.proper.1).1 hattribute
    refine ⟨Members.mem_names_of_get? hvalue, fun hnote => ?_⟩
    simpa [hclass] using hnotes _ hnote
  · obtain ⟨hmem, hclass⟩ := mem_unknown h hname
    exact ⟨hmem, fun hnote => by simpa [hclass] using hnotes name hnote⟩

theorem checkType_shown (h : Standing limit document node hops members) {position : Position}
    (hreference : ¬ node.keywords.reference.isSome = true)
    (hfinding : finding ∈ checkType position node) : Shown document Violation.Fits finding := by
  rw [h.filled.reference.isSome_iff] at hreference
  unfold checkType at hfinding
  split at hfinding
  · next htype =>
    obtain rfl := List.mem_singleton.1 hfinding
    have hfits : "type" ∉ members.names ∧ "$ref" ∉ members.names :=
      ⟨h.filled.type.eq_none_iff.1 htype, hreference⟩
    cases position <;> exact shown_schema h hfits
  · next value htype =>
    obtain rfl := List.mem_singleton.1 hfinding
    obtain ⟨found, hfound, hread⟩ := h.filled.type.source htype
    obtain ⟨rfl, hother⟩ := eq_of_readType_unsupported hread.symm
    exact shown_schema h ⟨hfound, hother⟩
  · next declared htype =>
    exact checkKind_shown h ((type_eq_known_iff h.filled).1 htype) hfinding

theorem checkReference_shown (h : Standing limit document node hops members)
    (hreference : node.keywords.reference.isSome = true)
    (hfinding : finding ∈ checkReference node) : Shown document Violation.Fits finding := by
  unfold checkReference at hfinding
  split at hfinding
  · cases hfinding
  · next hothers =>
    obtain rfl := List.mem_singleton.1 hfinding
    exact shown_schema h ⟨h.filled.reference.isSome_iff.1 hreference, hothers,
      fun _ hname => mem_nonReferenceKeywords h hname⟩

/-- What is found at a schema is found where the schema stands. -/
theorem checkOwn_shown (h : Standing limit document node hops members) {position : Position}
    (hfinding : finding ∈ checkOwn position node) : Shown document Violation.Fits finding := by
  rw [checkOwn, List.mem_append, List.mem_append] at hfinding
  rcases hfinding with (hfinding | hfinding) | hfinding
  · obtain ⟨keyword, hkeyword, rfl⟩ := List.mem_map.1 hfinding
    exact shown_schema h (mem_polymorphism h hkeyword)
  · obtain ⟨name, hname, rfl⟩ := List.mem_map.1 hfinding
    exact shown_schema h (mem_unknown h hname)
  · split at hfinding
    case isTrue hreference => exact checkReference_shown h hreference hfinding
    case isFalse hreference => exact checkType_shown h hreference hfinding

theorem checkRoot_shown (h : Standing limit document node 0 members)
    (hfinding : finding ∈ checkRoot node) : Shown document Violation.Fits finding := by
  rcases (mem_checkRoot_cases h.filled).1 hfinding with ⟨hrefers, rfl⟩ |
    ⟨-, declared, hspells, ⟨rfl, hmaps, rfl⟩ | ⟨hother, rfl⟩⟩
  · exact shown_schema h ⟨rfl, hrefers⟩
  · exact shown_schema h ⟨rfl, hspells, hmaps⟩
  · exact shown_schema h ⟨rfl, declared, hspells, hother, rfl⟩

end Standing

/-- What is found in a document is found where the document says it. -/
theorem violations_shown {limit : Nat} {document : Json} {root : SchemaNode}
    (hproper : document.Proper) (hread : Schema.read limit document = .ok root)
    (hfinding : finding ∈ violations root) : Shown document Violation.Fits finding := by
  rw [violations, List.mem_append] at hfinding
  rcases hfinding with hfinding | hfinding
  · obtain ⟨members, hstanding⟩ := standing_of_readNode hproper .root hread
    exact checkRoot_shown hstanding hfinding
  · obtain ⟨node, position, hholds, hown⟩ := exists_of_mem_check hfinding
    obtain ⟨hops, members, hstanding⟩ := standing_of_holds hproper hread hholds
    exact checkOwn_shown hstanding hown

end Grammar

end ResourceTypes
