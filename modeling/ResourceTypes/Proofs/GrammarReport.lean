import ResourceTypes.Proofs.Schema.Breaches

/-!
The report of the grammar is exactly the set of breaches. What is found at one
schema differs in its place or its rule, and a failure tells by itself which
schema it is about, so that no failure is reported twice.
-/

namespace ResourceTypes

open ResourceTypes.Language

namespace Grammar

/-- The failures that the grammar reports for a schema tree. -/
def report (root : SchemaNode) : Report := (violations root).map Located.failure

/-! ### What is found at one schema -/

/-- Findings at different places, each at the schema that stands at the path, or
in one of these parts of it. -/
structure Apart (path : Path) (parts : List (Option Step)) (findings : Findings) : Prop where
  nodup : (findings.map (·.path)).Nodup
  within : ∀ finding ∈ findings, finding.path[path.length]? ∈ parts

section Apart

variable {path : Path} {parts others : List (Option Step)} {findings found : Findings}

theorem Apart.append (h : Apart path parts findings) (h' : Apart path others found)
    (hparts : ∀ part ∈ parts, part ∉ others) :
    Apart path (parts ++ others) (findings ++ found) := by
  constructor
  · rw [List.map_append, List.nodup_append]
    refine ⟨h.nodup, h'.nodup, ?_⟩
    rintro _ hfirst _ hsecond rfl
    obtain ⟨first, hfinding, hpath⟩ := List.mem_map.1 hfirst
    obtain ⟨second, hfinding', hpath'⟩ := List.mem_map.1 hsecond
    have hwithin := h'.within second hfinding'
    rw [hpath', ← hpath] at hwithin
    exact hparts _ (h.within first hfinding) hwithin
  · intro finding hfinding
    rcases List.mem_append.1 hfinding with hfinding | hfinding
    · exact List.mem_append_left _ (h.within finding hfinding)
    · exact List.mem_append_right _ (h'.within finding hfinding)

theorem apart_nil : Apart path parts [] := ⟨List.nodup_nil, nofun⟩

/-- A finding at the schema itself. -/
theorem apart_here (cause : Violation) : Apart path [none] [⟨path, cause⟩] :=
  ⟨List.nodup_singleton _, by simp⟩

/-- A finding at a keyword. -/
theorem apart_key (name : String) (cause : Violation) :
    Apart path [some (.key name)] [⟨path.key name, cause⟩] :=
  ⟨List.nodup_singleton _, by simp [Path.key]⟩

/-- Findings at entries of a list, in their order. -/
theorem apart_entries (name : String) {position count : Nat}
    (h : (findings.map (·.path)).Sublist
      ((List.range' position count).map (path.key name).index)) :
    Apart path [some (.key name)] findings := by
  constructor
  · refine h.nodup (List.Nodup.map ?_ (List.nodup_range' _))
    intro first second heq
    simpa [Path.index] using heq
  · intro finding hfinding
    obtain ⟨index, -, hindex⟩ := List.mem_map.1 (h.subset (List.mem_map_of_mem hfinding))
    rw [← hindex]
    simp [Path.key, Path.index]

theorem sublist_checkEntries (kind : Kind) (position : Nat) (entries : List Json) :
    ((checkEntries path kind position entries).map (·.path)).Sublist
      ((List.range' position entries.length).map path.index) := by
  induction entries generalizing position with
  | nil => exact .slnil
  | cons entry rest ih =>
      rw [checkEntries, List.length_cons, List.range'_succ, List.map_append, List.map_cons]
      split
      · exact (ih (position + 1)).cons _
      · exact (ih (position + 1)).cons_cons _

theorem sublist_checkRequired (declared : List String) (position : Nat) (names : List String) :
    ((checkRequired path declared position names).map (·.path)).Sublist
      ((List.range' position names.length).map path.index) := by
  induction names generalizing position with
  | nil => exact .slnil
  | cons name rest ih =>
      rw [checkRequired, List.length_cons, List.range'_succ, List.map_append, List.map_cons]
      split
      · exact (ih (position + 1)).cons _
      · exact (ih (position + 1)).cons_cons _

theorem apart_misplacedIf (present : Bool) (keyword : String) (kind : Kind) :
    Apart path [some (.key keyword)] (misplacedIf present path keyword kind) := by
  cases present with
  | false => exact apart_nil
  | true => exact apart_key keyword _

theorem apart_checkAttribute (kind : Kind) (name : String) (value : Json) :
    Apart path [some (.key name)] (checkAttribute path kind name value) := by
  unfold checkAttribute
  split
  · exact apart_key name _
  · split
    · next henum =>
      subst henum
      cases value with
      | array entries => exact apart_entries "enum" (sublist_checkEntries kind 0 entries)
      | _ => exact apart_key "enum" _
    · split
      · next hdefault =>
        obtain ⟨rfl, -⟩ := hdefault
        exact apart_key "default" _
      · exact apart_nil

theorem apart_attributes (kind : Kind) (attributes : Attributes)
    (hnodup : (Members.names attributes).Nodup) :
    Apart path ((Members.names attributes).map fun name => some (.key name))
      (attributes.flatMap fun (name, value) => checkAttribute path kind name value) := by
  induction attributes with
  | nil => exact apart_nil
  | cons pair rest ih =>
      obtain ⟨name, value⟩ := pair
      rw [Members.names_cons, List.nodup_cons] at hnodup
      obtain ⟨hname, hrest⟩ := hnodup
      refine (apart_checkAttribute kind name value).append (ih hrest) fun part hpart hmem => ?_
      obtain rfl := List.mem_singleton.1 hpart
      obtain ⟨other, hother, heq⟩ := List.mem_map.1 hmem
      cases heq
      exact hname hother

theorem apart_checkObject (node : SchemaNode) :
    Apart node.path [none, some (.key "additionalProperties"), some (.key "required")]
      (checkObject node) := by
  have hshape : Apart node.path [none]
      (if node.properties.isSome ∧ node.mapValue?.isSome then [⟨node.path, .twoShapes⟩]
        else []) := by
    split
    · exact apart_here _
    · exact apart_nil
  have hrequired := @apart_entries node.path _ "required" _ _
    (sublist_checkRequired (Members.names (node.properties.getD [])) 0
      (node.keywords.required.getD []))
  rw [checkObject]
  refine (hshape.append (?_ : Apart node.path [some (.key "additionalProperties")] _)
    (by simp)).append hrequired (by simp)
  split
  · exact apart_key _ _
  · exact apart_nil

end Apart

section Node

open Schema

variable {limit depth : Nat} {path : Path} {members : Members Json} {node : SchemaNode}
  {finding : Located Violation}

/-- The parts of a schema that no validation keyword is. -/
def fixedParts : List (Option Step) :=
  [none, some (.key "properties"), some (.key "additionalProperties"), some (.key "required"),
    some (.key "items")]

/-- The findings on the validation keywords go between those on fixed parts. -/
theorem nodup_around (h : Filled limit depth members (.blank path) node)
    (hnodup : members.names.Nodup) (kind : Kind) {before after : Findings}
    {parts others : List (Option Step)} (hbefore : Apart path parts before)
    (hafter : Apart path others after) (hparts : ∀ part ∈ parts, part ∈ fixedParts)
    (hothers : ∀ part ∈ others, part ∈ fixedParts) (happart : ∀ part ∈ parts, part ∉ others) :
    ((before ++ (node.keywords.validation.flatMap fun (name, value) =>
      checkAttribute path kind name value) ++ after).map (·.path)).Nodup := by
  have hnames := names_validation h
  have hattributes := @apart_attributes path kind node.keywords.validation
    (hnames ▸ hnodup.filter _)
  have hfixed : ∀ part ∈ fixedParts, part ∉ (Members.names node.keywords.validation).map
      fun name => some (Step.key name) := by
    intro part hpart hmem
    obtain ⟨name, hname, rfl⟩ := List.mem_map.1 hmem
    rw [hnames, List.mem_filter, decide_eq_true_eq] at hname
    simp only [fixedParts, List.mem_cons, reduceCtorEq, false_or, List.not_mem_nil, or_false,
      Option.some.injEq, Step.key.injEq] at hpart
    rcases hpart with rfl | rfl | rfl | rfl <;> exact absurd hname.2 (by decide)
  have hboth := hbefore.append hattributes fun part hpart => hfixed part (hparts part hpart)
  refine (hboth.append hafter fun part hpart hmem => ?_).nodup
  rcases List.mem_append.1 hpart with hpart | hpart
  · exact happart part hpart hmem
  · exact hfixed part (hothers part hmem) hpart

/-- The findings on a schema of a declared kind are at different places. -/
theorem nodup_paths_checkKind (h : Filled limit depth members (.blank path) node)
    (hnodup : members.names.Nodup) (declared : SpelledKind) :
    ((checkKind node declared).map (·.path)).Nodup := by
  obtain rfl : node.path = path := h.path
  have hplain : Apart node.path [some (.key "properties"), some (.key "additionalProperties"),
      some (.key "required"), some (.key "items")]
      (misplacedIf (node.properties.isSome && !(decide (declared = .object))) node.path
          "properties" declared.kind ++
        misplacedIf (node.additional.isSome && !(decide (declared = .object))) node.path
          "additionalProperties" declared.kind ++
        misplacedIf (node.keywords.required.isSome && !(decide (declared = .object))) node.path
          "required" declared.kind ++
        misplacedIf (node.items.isSome && declared ≠ .array) node.path "items" declared.kind) :=
    (((apart_misplacedIf _ _ _).append (apart_misplacedIf _ _ _) (by decide)).append
      (apart_misplacedIf _ _ _) (by decide)).append (apart_misplacedIf _ _ _) (by decide)
  cases declared with
  | object =>
      -- what the rules for objects ask is asked of no keyword that is misplaced
      have hitems : Apart node.path [some (.key "items")]
          (misplacedIf node.items.isSome node.path "items" .object) := apart_misplacedIf _ _ _
      have hobject := nodup_around h hnodup (node.effectiveKind .object) hitems
        (apart_checkObject node) (by decide) (by decide) (by decide)
      simpa [checkKind, misplacedIf, SpelledKind.kind] using hobject
  | array =>
      have harray : Apart node.path [none] (checkArray node) := by
        unfold checkArray
        split
        · exact apart_nil
        · exact apart_here _
      exact nodup_around h hnodup _ hplain harray (by decide) (by decide) (by decide)
  | scalar kind =>
      exact nodup_around h hnodup _ hplain (@apart_nil node.path []) (by decide) (by decide)
        (by decide)

theorem rule_of_kindBreach {declared : SpelledKind} (h : KindBreach path members declared finding) :
    finding.cause.rule ≠ .polymorphismNotAllowed ∧ finding.cause.rule ≠ .unknownKeyword := by
  cases h <;> simp [Violation.rule]

/-- What is found on the reference or the type of a schema breaks other rules
than what is found on its further keywords. -/
theorem rule_of_mem_rest (h : Filled limit depth members (.blank path) node)
    (hnodup : members.names.Nodup) {position : Position}
    (hfinding : finding ∈ if node.keywords.reference.isSome then checkReference node
      else checkType position node) :
    finding.cause.rule ≠ .polymorphismNotAllowed ∧ finding.cause.rule ≠ .unknownKeyword := by
  split at hfinding
  · next hreference =>
    obtain ⟨-, rfl⟩ :=
      (mem_checkReference h (h.reference.isSome_iff.1 hreference)).1 hfinding
    simp [Violation.rule]
  · rcases (mem_checkType h hnodup).1 hfinding with ⟨-, rfl⟩ | ⟨value, -, -, rfl⟩ |
      ⟨declared, -, hkind⟩
    · cases position <;> simp [Violation.rule, Position.untyped]
    · simp [Violation.rule]
    · exact rule_of_kindBreach hkind

theorem framed_inj {opening closing name other : String}
    (h : opening ++ name ++ closing = opening ++ other ++ closing) : name = other :=
  (String.append_right_inj _).1 ((String.append_left_inj _).1 h)

/-- No failure is reported twice for one schema. -/
theorem nodup_checkOwn (h : Filled limit depth members (.blank path) node)
    (hnodup : members.names.Nodup) (position : Position) :
    ((checkOwn position node).map Located.failure).Nodup := by
  have hpolymorphism : node.keywords.polymorphism.Nodup := by
    rw [h.polymorphism]
    exact hnodup.filter _
  have hunknown : node.keywords.unknown.Nodup := by
    rw [h.unknown]
    exact hnodup.filter _
  have hrest : ((if node.keywords.reference.isSome then checkReference node
      else checkType position node).map Located.failure).Nodup := by
    split
    · unfold checkReference
      split <;> simp
    · unfold checkType
      split
      · simp
      · simp
      · next declared _ =>
        refine List.Nodup.of_map Failure.path ?_
        rw [List.map_map]
        exact nodup_paths_checkKind h hnodup declared
  -- the rest reports neither of the two rules that are reported keyword by keyword
  have hrule (failure : Failure) (hmem : failure ∈ (if node.keywords.reference.isSome then
      checkReference node else checkType position node).map Located.failure) :
      failure.rule ≠ .polymorphismNotAllowed ∧ failure.rule ≠ .unknownKeyword := by
    obtain ⟨finding, hfinding, rfl⟩ := List.mem_map.1 hmem
    exact rule_of_mem_rest h hnodup hfinding
  rw [checkOwn, List.map_append, List.map_append, List.map_map, List.map_map, List.nodup_append,
    List.nodup_append]
  refine ⟨⟨hpolymorphism.map fun keyword other heq => ?_,
    hunknown.map fun name other heq => ?_, ?_⟩, hrest, ?_⟩
  · exact framed_inj (congrArg Failure.message heq)
  · exact framed_inj (congrArg Failure.message heq)
  · rintro _ hfirst _ hsecond rfl
    obtain ⟨keyword, -, rfl⟩ := List.mem_map.1 hfirst
    obtain ⟨name, -, heq⟩ := List.mem_map.1 hsecond
    cases congrArg Failure.rule heq
  · rintro failure hfirst _ hsecond rfl
    obtain ⟨hpolymorphic, hunknown⟩ := hrule failure hsecond
    rcases List.mem_append.1 hfirst with hfirst | hfirst
    · obtain ⟨keyword, -, rfl⟩ := List.mem_map.1 hfirst
      exact hpolymorphic rfl
    · obtain ⟨name, -, rfl⟩ := List.mem_map.1 hfirst
      exact hunknown rfl

end Node

end Grammar

/-! ### Which schema a failure is about -/

/-- The path of the schema that a failure of the grammar is about: the place
itself, or one or two steps up from the keyword or the entry that stands there. -/
def Failure.seat (failure : Failure) : Path :=
  match failure.rule with
  | .unknownRequiredProperty => failure.path.dropLast.dropLast
  | .incompatibleValidationAttribute =>
    match failure.path.getLast? with
    | some (.index _) => failure.path.dropLast.dropLast
    | _ => failure.path.dropLast
  | .typeRequired =>
    if failure.message = Violation.message .openProperties then failure.path.dropLast
    else failure.path
  | _ => failure.path

theorem Language.KindBreach.seat_eq {path : Path} {members : Members Json}
    {declared : SpelledKind} {finding : Located Violation}
    (h : KindBreach path members declared finding) : finding.failure.seat = path := by
  cases h <;>
    simp [Located.failure, Cause.rule, Cause.message, Violation.rule, Failure.seat, Path.key,
      Path.index]

theorem Language.Breach.seat_eq {address : Address} {members : Members Json}
    {finding : Located Violation} (h : Breach address members finding) :
    finding.failure.seat = address.path := by
  cases h with
  | kind _ _ breach => exact breach.seat_eq
  | untyped =>
      -- of the two failures for the lack of a type, this is not the one at a keyword
      have hmessage : Violation.message .untyped ≠ Violation.message .openProperties := by decide
      cases address.position with
      | member => exact if_neg (t := address.path.dropLast) hmessage
      | item => rfl
  | _ => rfl

theorem Language.Breach.rule_ne {address : Address} {members : Members Json}
    {finding : Located Violation} (h : Breach address members finding) :
    finding.failure.rule ≠ .rootMustBeObject := by
  cases h with
  | kind _ _ breach => cases breach <;> nofun
  | untyped => cases address.position <;> nofun
  | _ => nofun

theorem Language.RootBreach.rule_eq {members : Members Json} {finding : Located Violation}
    (h : RootBreach members finding) : finding.failure.rule = .rootMustBeObject := by
  cases h <;> rfl

namespace Grammar

theorem nodup_checkRoot (root : SchemaNode) : ((checkRoot root).map Located.failure).Nodup := by
  unfold checkRoot
  split
  · simp
  · split <;> simp

/-- Each finding on a schema of a document is a breach there. -/
theorem breach_of_mem_nodes {limit : Nat} {document : Json} {root : SchemaNode}
    (hproper : document.Proper) (hread : Schema.read limit document = .ok root)
    {pair : Address × SchemaNode} (hpair : pair ∈ root.nodes) {finding : Located Violation}
    (hfinding : finding ∈ checkOwn pair.1.position pair.2) :
    ∃ members, Breach pair.1 members finding ∧ pair.2.path = pair.1.path := by
  obtain ⟨members, hseated⟩ := Schema.seated_of_mem_nodes hproper hread hpair
  exact ⟨members, (mem_checkOwn (hseated.path ▸ hseated.filled) hseated.proper.1).1 hfinding,
    hseated.path⟩

/-- No failure is reported twice for a document. -/
theorem nodup_report {limit : Nat} {document : Json} {root : SchemaNode}
    (hproper : document.Proper) (hread : Schema.read limit document = .ok root) :
    (report root).Nodup := by
  obtain ⟨members, rfl, -, -, hfilled⟩ := filled_of_readNode hproper hread
  -- each finding on a schema is a breach there, which shows the path of the schema
  have hbreach {pair : Address × SchemaNode} (hpair : pair ∈ root.nodes) {failure : Failure}
      (hfailure : failure ∈ (checkOwn pair.1.position pair.2).map Located.failure) :
      failure.seat = pair.2.path ∧ failure.rule ≠ .rootMustBeObject := by
    obtain ⟨finding, hfinding, rfl⟩ := List.mem_map.1 hfailure
    obtain ⟨inner, hown, hpath⟩ := breach_of_mem_nodes hproper hread hpair hfinding
    exact ⟨hown.seat_eq.trans hpath.symm, hown.rule_ne⟩
  rw [report, violations, check_eq_nodes, List.map_append, List.map_flatMap, List.nodup_append]
  refine ⟨nodup_checkRoot root, List.nodup_flatMap.2 ⟨?_, ?_⟩, ?_⟩
  · intro pair hpair
    obtain ⟨inner, hseated⟩ := Schema.seated_of_mem_nodes hproper hread hpair
    exact nodup_checkOwn hseated.filled hseated.proper.1 _
  · have hpaths := List.pairwise_map.1 (Schema.nodup_paths hproper hread)
    refine hpaths.imp_of_mem fun {first second} hfirst hsecond hother => ?_
    rw [Function.onFun, List.disjoint_left]
    intro failure hfailure hfailure'
    exact hother ((hbreach hfirst hfailure).1.symm.trans (hbreach hsecond hfailure').1)
  · rintro failure hroot _ hbelow rfl
    obtain ⟨finding, hfinding, rfl⟩ := List.mem_map.1 hroot
    obtain ⟨pair, hpair, hfailure⟩ := List.mem_flatMap.1 hbelow
    exact (hbreach hpair hfailure).2 ((mem_checkRoot hfilled).1 hfinding).rule_eq

/-- The grammar reports each breach of its rules in a document, nothing else, and
no failure twice. -/
theorem report_exact {limit : Nat} {document : Json} {root : SchemaNode}
    (hproper : document.Proper) (hread : Schema.read limit document = .ok root) :
    (report root).Nodup ∧
      ∀ finding, finding ∈ violations root ↔ DocumentBreach document finding :=
  ⟨nodup_report hproper hread, fun _ => mem_violations hproper hread⟩

/-- A crate whose label has a choice that is no word, whose parts have no type,
and which asks for a weight that it does not declare. -/
def looseCrate : Json :=
  .object [("type", .string "object"), ("oneOf", .array []), ("minLength", .int 1),
    ("required", .array [.string "label", .string "weight"]),
    ("properties", .object [
      ("label", .object [("type", .string "string"), ("enum", .array [.string "dry", .int 2])]),
      ("parts", .object [("type", .string "array"), ("items", .object [])]),
      ("maker", .object [("$ref", .string "std/maker"), ("title", .string "Maker")])])]

/-- What is wrong with the crate, and where. -/
def crateFaults : List (Rule × Path) :=
  [(.polymorphismNotAllowed, []), (.incompatibleValidationAttribute, [.key "minLength"]),
    (.unknownRequiredProperty, [.key "required", .index 1]),
    (.incompatibleValidationAttribute, [.key "properties", .key "label", .key "enum", .index 1]),
    (.arrayItemTypeRequired, [.key "properties", .key "parts", .key "items"]),
    (.unknownKeyword, [.key "properties", .key "maker"]),
    (.refMustBeExclusive, [.key "properties", .key "maker"])]

theorem report_looseCrate :
    looseCrate.Proper ∧ ∃ root, Schema.read 128 looseCrate = .ok root ∧
      (report root).map (fun failure => (failure.rule, failure.path)) = crateFaults ∧
      (report root).Nodup ∧
      ∀ finding, finding ∈ violations root ↔ DocumentBreach looseCrate finding := by
  have hproper : looseCrate.Proper := by
    simp [looseCrate, Json.Proper, Json.ProperItems, Json.ProperMembers]
  have hreport : (Schema.read 128 looseCrate).toOption.map (fun root =>
      (report root).map fun failure => (failure.rule, failure.path)) = some crateFaults := by
    decide +kernel
  cases hread : Schema.read 128 looseCrate with
  | error offence =>
      rw [hread] at hreport
      cases hreport
  | ok root =>
      rw [hread] at hreport
      exact ⟨hproper, root, rfl, Option.some.inj hreport, report_exact hproper hread⟩

end Grammar

end ResourceTypes
