import Mathlib.Data.List.Forall2
import Mathlib.Tactic.Tauto
import ResourceTypes.Proofs.Members
import ResourceTypes.Schema.Reading

/-!
What reading a schema yields. Each keyword goes to its own part of the node,
so the members of an object are told from the node in any order.
-/

namespace ResourceTypes

theorem bind_eq_ok_iff {ε α β : Type} {step : Except ε α} {next : α → Except ε β} {result : β} :
    step >>= next = .ok result ↔ ∃ value, step = .ok value ∧ next value = .ok result := by
  cases step <;> simp [bind, Except.bind]

theorem mapError_eq_ok_iff {ε ε' α : Type} {step : Except ε α} {wrap : ε → ε'} {result : α} :
    step.mapError wrap = .ok result ↔ step = .ok result := by
  cases step <;> simp [Except.mapError]

namespace Keyword

theorem classOf_eq_structural_iff {word : String} :
    classOf word = .structural ↔ word ∈ structural := by
  unfold classOf
  repeat' split
  all_goals simp [*]

theorem classOf_eq_metadata_iff {word : String} :
    classOf word = .metadata ↔ word ∈ metadata := by
  have hapart : ∀ other ∈ metadata, other ∉ structural := by decide
  unfold classOf
  split
  · next hstructural =>
    simp only [reduceCtorEq, false_iff]
    exact fun hmetadata => hapart word hmetadata hstructural
  · repeat' split
    all_goals simp [*]

end Keyword

section Forall₂

variable {α β : Type} {R : α → β → Prop} {xs : List α} {ys : List β}

theorem exists_mem_right (h : List.Forall₂ R xs ys) {x : α} (hx : x ∈ xs) : ∃ y ∈ ys, R x y := by
  induction h with
  | nil => cases hx
  | cons hfirst _ ih =>
      rcases List.mem_cons.1 hx with rfl | hx
      · exact ⟨_, List.mem_cons_self, hfirst⟩
      · obtain ⟨y, hy, hxy⟩ := ih hx
        exact ⟨y, List.mem_cons_of_mem _ hy, hxy⟩

theorem exists_mem_left (h : List.Forall₂ R xs ys) {y : β} (hy : y ∈ ys) : ∃ x ∈ xs, R x y :=
  exists_mem_right h.flip hy

theorem exists_forall₂ (h : ∀ x ∈ xs, ∃ y, R x y) : ∃ ys, List.Forall₂ R xs ys := by
  induction xs with
  | nil => exact ⟨[], .nil⟩
  | cons x rest ih =>
      obtain ⟨y, hy⟩ := h x List.mem_cons_self
      obtain ⟨ys, hys⟩ := ih fun other hother => h other (List.mem_cons_of_mem _ hother)
      exact ⟨y :: ys, .cons hy hys⟩

theorem names_eq_of_forall₂ {xs : Members α} {ys : Members β}
    {R : String × α → String × β → Prop} (h : List.Forall₂ R xs ys)
    (hname : ∀ x y, R x y → x.1 = y.1) : xs.names = ys.names := by
  induction h with
  | nil => rfl
  | cons hfirst _ ih => rw [Members.names_cons, Members.names_cons, hname _ _ hfirst, ih]

end Forall₂

namespace Schema

variable {limit depth : Nat} {path : Path}

theorem readNames_eq_ok_iff (position : Nat) (entries : List Json) (names : List String) :
    readNames path position entries = .ok names ↔ entries = names.map .string := by
  induction entries generalizing position names with
  | nil => cases names <;> simp [readNames]
  | cons entry rest ih =>
      cases entry with
      | string name =>
          rw [readNames, bind_eq_ok_iff]
          cases names <;> simp [ih, and_comm]
      | _ => cases names <;> simp [readNames]

theorem readAs_eq_ok_iff {α : Type} {demand : Demand} {held? : Json → Option α}
    {keyword : String} {value : Json} {held : α} :
    readAs demand held? path keyword value = .ok held ↔ held? value = some held := by
  unfold readAs
  cases held? value <;> simp

theorem readRequired_eq_ok_iff (value : Json) (names : List String) :
    readRequired path value = .ok names ↔ value = .array (names.map .string) := by
  simp [readRequired, bind_eq_ok_iff, readAs_eq_ok_iff, readNames_eq_ok_iff,
    Json.items?_eq_some_iff]

theorem readProperties_eq_ok_iff (schemas : List (String × Json))
    (nodes : List (String × SchemaNode)) :
    readProperties limit path depth schemas = .ok nodes ↔
      List.Forall₂ (fun schema node => schema.1 = node.1 ∧
        readNode limit (path.key schema.1) depth schema.2 = .ok node.2) schemas nodes := by
  induction schemas generalizing nodes with
  | nil => cases nodes <;> simp [readProperties]
  | cons pair rest ih =>
      obtain ⟨name, schema⟩ := pair
      rw [readProperties, bind_eq_ok_iff]
      simp only [bind_eq_ok_iff, ih]
      constructor
      · rintro ⟨node, hnode, others, hothers, heq⟩
        obtain rfl := Except.ok.inj heq
        exact .cons ⟨rfl, hnode⟩ hothers
      · intro h
        cases h with
        | cons hfirst hothers =>
            obtain ⟨hname, hnode⟩ := hfirst
            exact ⟨_, hnode, _, hothers, by simp_all⟩

/-- The keyword `type` yields a kind or what it holds instead. -/
def YieldsType (value : Json) (type : DeclaredType) : Prop := type = readType value

/-- The keyword `$ref` yields a reference that is not bound yet. -/
def YieldsReference (value : Json) (reference : Reference) : Prop :=
  ∃ id, value = .string id ∧ reference = .unbound id

def YieldsNames (value : Json) (names : List String) : Prop := value = .array (names.map .string)

def YieldsFlag (value : Json) (flag : Bool) : Prop := value = .bool flag

def YieldsText (value : Json) (text : String) : Prop := value = .string text

/-- The keyword `properties` yields a node for each of its members. -/
def YieldsProperties (limit depth : Nat) (path : Path) (value : Json)
    (nodes : List (String × SchemaNode)) : Prop :=
  ∃ schemas, value = .object schemas ∧
    List.Forall₂ (fun schema node => schema.1 = node.1 ∧
      readNode limit (path.key schema.1) depth schema.2 = .ok node.2) schemas nodes

/-- The keyword `additionalProperties` yields a flag or a node. -/
def YieldsAdditional (limit depth : Nat) (path : Path) (value : Json)
    (additional : Additional) : Prop :=
  (∃ flag, value = .bool flag ∧ additional = .allowed flag) ∨
    ∃ fields node, value = .object fields ∧ additional = .typed node ∧
      readNode limit path depth value = .ok node

/-- The keyword `items` yields a node. -/
def YieldsItems (limit depth : Nat) (path : Path) (value : Json) (node : SchemaNode) : Prop :=
  ∃ fields, value = .object fields ∧ readNode limit path depth value = .ok node

/-- What a keyword leaves in its part of a node: what its value yields, or what
was there before if the keyword is not. -/
def Leaves {α β : Type} (found : Option α) (old new : Option β) (Yields : α → β → Prop) : Prop :=
  match found with
  | none => new = old
  | some value => ∃ result, new = some result ∧ Yields value result

/-- The keywords that have a part of the node to themselves. -/
inductive Part where
  | type
  | reference
  | required
  | readOnly
  | description
  | properties
  | additional
  | items
deriving DecidableEq

namespace Part

def keyword : Part → String
  | .type => "type"
  | .reference => "$ref"
  | .required => "required"
  | .readOnly => "readOnly"
  | .description => "description"
  | .properties => "properties"
  | .additional => "additionalProperties"
  | .items => "items"

@[reducible] def Content : Part → Type
  | .type => DeclaredType
  | .reference => Reference
  | .required => List String
  | .readOnly => Bool
  | .description => String
  | .properties => List (String × SchemaNode)
  | .additional => Additional
  | .items => SchemaNode

def get (node : SchemaNode) : (part : Part) → Option part.Content
  | .type => node.keywords.type
  | .reference => node.keywords.reference
  | .required => node.keywords.required
  | .readOnly => node.keywords.readOnly
  | .description => node.keywords.description
  | .properties => node.properties
  | .additional => node.additional
  | .items => node.items

def set (node : SchemaNode) : (part : Part) → part.Content → SchemaNode
  | .type, held => { node with keywords := { node.keywords with type := some held } }
  | .reference, held => { node with keywords := { node.keywords with reference := some held } }
  | .required, held => { node with keywords := { node.keywords with required := some held } }
  | .readOnly, held => { node with keywords := { node.keywords with readOnly := some held } }
  | .description, held =>
    { node with keywords := { node.keywords with description := some held } }
  | .properties, held => { node with properties := some held }
  | .additional, held => { node with additional := some held }
  | .items, held => { node with items := some held }

/-- What the value of the keyword yields, in a schema at a path. -/
def Yields (limit depth : Nat) (path : Path) : (part : Part) → Json → part.Content → Prop
  | .type => YieldsType
  | .reference => YieldsReference
  | .required => YieldsNames
  | .readOnly => YieldsFlag
  | .description => YieldsText
  | .properties => YieldsProperties limit (depth + 1) (path.key "properties")
  | .additional => YieldsAdditional limit (depth + 1) (path.key "additionalProperties")
  | .items => YieldsItems limit (depth + 1) (path.key "items")

theorem keyword_inj {part other : Part} (h : part.keyword = other.keyword) : part = other := by
  cases part <;> cases other <;> first | rfl | simp [keyword] at h

/-- Exactly the keywords with a part of their own are in none of the lists of a node. -/
theorem exists_keyword_iff {name : String} :
    (∃ part : Part, part.keyword = name) ↔
      Keyword.classOf name = .structural ∨ Keyword.classOf name = .metadata := by
  constructor
  · rintro ⟨part, rfl⟩
    cases part <;> decide
  · rw [Keyword.classOf_eq_structural_iff, Keyword.classOf_eq_metadata_iff, ← List.mem_append]
    intro h
    have hall : ∀ word ∈ Keyword.structural ++ Keyword.metadata,
        word ∈ [type, reference, required, readOnly, description, properties, additional,
          items].map keyword := by decide
    obtain ⟨part, -, rfl⟩ := List.mem_map.1 (hall name h)
    exact ⟨part, rfl⟩

theorem not_listed (part : Part) : Keyword.classOf part.keyword ≠ .polymorphism ∧
    Keyword.classOf part.keyword ≠ .validation ∧ Keyword.classOf part.keyword ≠ .unknown := by
  cases part <;> decide

/-- A word is the keyword of a part, or is listed with the others of its class. -/
theorem keyword_or_listed (name : String) :
    (∃ part : Part, part.keyword = name) ∨ Keyword.classOf name = .polymorphism ∨
      Keyword.classOf name = .validation ∨ Keyword.classOf name = .unknown := by
  rw [exists_keyword_iff]
  cases Keyword.classOf name <;> simp

section Set

variable (node : SchemaNode) (part : Part) (content : part.Content)

@[simp] theorem get_set : part.get (part.set node content) = some content := by
  cases part <;> rfl

theorem get_set_ne {other : Part} (h : other ≠ part) :
    other.get (part.set node content) = other.get node := by
  cases part <;> cases other <;> first | rfl | contradiction

@[simp] theorem set_path : (part.set node content).path = node.path := by
  cases part <;> rfl

@[simp] theorem set_polymorphism :
    (part.set node content).keywords.polymorphism = node.keywords.polymorphism := by
  cases part <;> rfl

@[simp] theorem set_validation :
    (part.set node content).keywords.validation = node.keywords.validation := by
  cases part <;> rfl

@[simp] theorem set_unknown :
    (part.set node content).keywords.unknown = node.keywords.unknown := by
  cases part <;> rfl

/-- The lists of a node are no part's content. -/
theorem get_lists (polymorphism unknown : List String) (validation : Attributes) :
    part.get { node with
      keywords := { node.keywords with polymorphism, validation, unknown } } = part.get node := by
  cases part <;> rfl

end Set

end Part

/-- The parts of a node after members have been read into it. -/
structure Filled (limit depth : Nat) (members : Members Json) (old new : SchemaNode) : Prop where
  path : new.path = old.path
  type : Leaves (members.get? "type") old.keywords.type new.keywords.type YieldsType
  reference : Leaves (members.get? "$ref") old.keywords.reference new.keywords.reference
    YieldsReference
  required : Leaves (members.get? "required") old.keywords.required new.keywords.required
    YieldsNames
  readOnly : Leaves (members.get? "readOnly") old.keywords.readOnly new.keywords.readOnly
    YieldsFlag
  description : Leaves (members.get? "description") old.keywords.description
    new.keywords.description YieldsText
  polymorphism : new.keywords.polymorphism =
    old.keywords.polymorphism ++ members.names.filter (Keyword.classOf · = .polymorphism)
  validation : new.keywords.validation =
    old.keywords.validation ++ members.filter (Keyword.classOf ·.1 = .validation)
  unknown : new.keywords.unknown =
    old.keywords.unknown ++ members.names.filter (Keyword.classOf · = .unknown)
  properties : Leaves (members.get? "properties") old.properties new.properties
    (YieldsProperties limit (depth + 1) (old.path.key "properties"))
  additional : Leaves (members.get? "additionalProperties") old.additional new.additional
    (YieldsAdditional limit (depth + 1) (old.path.key "additionalProperties"))
  items : Leaves (members.get? "items") old.items new.items
    (YieldsItems limit (depth + 1) (old.path.key "items"))

/-- Each part is told from its own keyword, and the lists from the classes of the names. -/
theorem filled_iff_parts {members : Members Json} {old new : SchemaNode} :
    Filled limit depth members old new ↔
      new.path = old.path ∧
      (∀ part : Part, Leaves (members.get? part.keyword) (part.get old) (part.get new)
        (part.Yields limit depth old.path)) ∧
      new.keywords.polymorphism = old.keywords.polymorphism ++
        members.names.filter (Keyword.classOf · = .polymorphism) ∧
      new.keywords.validation = old.keywords.validation ++
        members.filter (Keyword.classOf ·.1 = .validation) ∧
      new.keywords.unknown =
        old.keywords.unknown ++ members.names.filter (Keyword.classOf · = .unknown) := by
  constructor
  · intro h
    refine ⟨h.path, fun part => ?_, h.polymorphism, h.validation, h.unknown⟩
    cases part with
    | type => exact h.type
    | reference => exact h.reference
    | required => exact h.required
    | readOnly => exact h.readOnly
    | description => exact h.description
    | properties => exact h.properties
    | additional => exact h.additional
    | items => exact h.items
  · rintro ⟨hpath, hparts, hpolymorphism, hvalidation, hunknown⟩
    exact ⟨hpath, hparts .type, hparts .reference, hparts .required, hparts .readOnly,
      hparts .description, hpolymorphism, hvalidation, hunknown, hparts .properties,
      hparts .additional, hparts .items⟩

theorem filled_nil {old new : SchemaNode} : Filled limit depth [] old new ↔ new = old := by
  constructor
  · rintro ⟨hpath, htype, hreference, hrequired, hreadOnly, hdescription, hpolymorphism,
      hvalidation, hunknown, hproperties, hadditional, hitems⟩
    obtain ⟨path, keywords, properties, additional, items⟩ := new
    obtain ⟨path', keywords', properties', additional', items'⟩ := old
    obtain ⟨type, reference, required, readOnly, description, polymorphism, validation, unknown⟩ :=
      keywords
    simp_all [Leaves, Members.get?]
  · rintro rfl
    constructor <;> simp [Leaves, Members.get?]

/-- Reading a keyword keeps a validation keyword at most under its own name. -/
theorem names_readKeyword {keywords result : Keywords} {name other : String} {value : Json}
    (h : readKeyword path keywords name value = .ok result)
    (hmem : other ∈ result.validation.names) :
    other ∈ keywords.validation.names ∨ other = name := by
  unfold readKeyword at h
  split at h
  · cases h
    exact .inl hmem
  iterate 4
    obtain ⟨_, -, h⟩ := bind_eq_ok_iff.1 h
    cases h
    exact .inl hmem
  · split at h <;> cases h
    · exact .inl hmem
    · simp only [Members.names_insert] at hmem
      split at hmem
      · exact .inl hmem
      · rwa [List.mem_append, List.mem_singleton] at hmem
    · exact .inl hmem

section Cons

variable {value : Json} {rest : Members Json} {old new : SchemaNode}

/-- A keyword with a part of its own fills that part first, then the others are filled. -/
theorem filled_part (part : Part) (hfresh : rest.get? part.keyword = none) :
    Filled limit depth ((part.keyword, value) :: rest) old new ↔
      ∃ content, part.Yields limit depth old.path value content ∧
        Filled limit depth rest (part.set old content) new := by
  obtain ⟨hpolymorphism, hvalidation, hunknown⟩ := part.not_listed
  simp only [filled_iff_parts, Part.set_path, Part.set_polymorphism, Part.set_validation,
    Part.set_unknown, Members.names_cons, List.filter_cons, hpolymorphism, hvalidation,
    hunknown, decide_false, Bool.false_eq_true, if_false]
  constructor
  · rintro ⟨hpath, hparts, hlists⟩
    obtain ⟨content, hcontent, hyields⟩ : ∃ content, part.get new = some content ∧
        part.Yields limit depth old.path value content := by
      simpa [Leaves, Members.get?] using hparts part
    refine ⟨content, hyields, hpath, fun other => ?_, hlists⟩
    by_cases hother : other = part
    · subst hother
      rw [hfresh, Part.get_set]
      exact hcontent
    · have hkeyword : part.keyword ≠ other.keyword := fun h => hother (Part.keyword_inj h).symm
      rw [Part.get_set_ne _ _ _ hother]
      simpa [Members.get?, hkeyword] using hparts other
  · rintro ⟨content, hyields, hpath, hparts, hlists⟩
    refine ⟨hpath, fun other => ?_, hlists⟩
    have hleaves := hparts other
    by_cases hother : other = part
    · subst hother
      rw [hfresh, Part.get_set] at hleaves
      simpa [Leaves, Members.get?] using ⟨content, hleaves, hyields⟩
    · have hkeyword : part.keyword ≠ other.keyword := fun h => hother (Part.keyword_inj h).symm
      rw [Part.get_set_ne _ _ _ hother] at hleaves
      simpa [Members.get?, hkeyword] using hleaves

/-- The value of a keyword with a part of its own is read into that part. -/
theorem readMembers_part (part : Part) :
    readMembers limit depth ((part.keyword, value) :: rest) old = .ok new ↔
      ∃ content, part.Yields limit depth old.path value content ∧
        readMembers limit depth rest (part.set old content) = .ok new := by
  cases part with
  | type =>
      simp [Part.keyword, Part.Yields, Part.set, readMembers, readKeyword, bind_eq_ok_iff,
        YieldsType]
  | reference =>
      simp [Part.keyword, Part.Yields, Part.set, readMembers, readKeyword, bind_eq_ok_iff,
        readAs_eq_ok_iff, Json.text?_eq_some_iff, YieldsReference]
  | required =>
      simp [Part.keyword, Part.Yields, Part.set, readMembers, readKeyword, bind_eq_ok_iff,
        readRequired_eq_ok_iff, YieldsNames]
  | readOnly =>
      simp [Part.keyword, Part.Yields, Part.set, readMembers, readKeyword, bind_eq_ok_iff,
        readAs_eq_ok_iff, Json.flag?_eq_some_iff, YieldsFlag, -Bool.exists_bool]
  | description =>
      simp [Part.keyword, Part.Yields, Part.set, readMembers, readKeyword, bind_eq_ok_iff,
        readAs_eq_ok_iff, Json.text?_eq_some_iff, YieldsText]
  | properties =>
      cases value with
      | object schemas =>
          simp [Part.keyword, Part.Yields, Part.set, readMembers, bind_eq_ok_iff,
            YieldsProperties, readProperties_eq_ok_iff]
      | _ => simp [Part.keyword, Part.Yields, readMembers, YieldsProperties]
  | additional =>
      cases value with
      | bool flag => simp [Part.keyword, Part.Yields, Part.set, readMembers, YieldsAdditional]
      | object fields =>
          simp [Part.keyword, Part.Yields, Part.set, readMembers, bind_eq_ok_iff,
            YieldsAdditional]
      | _ => simp [Part.keyword, Part.Yields, readMembers, YieldsAdditional]
  | items =>
      cases value with
      | object fields =>
          simp [Part.keyword, Part.Yields, Part.set, readMembers, bind_eq_ok_iff, YieldsItems]
      | _ => simp [Part.keyword, Part.Yields, readMembers, YieldsItems]

variable {name : String}

/-- A keyword without a part of its own goes by its class. -/
theorem readMembers_other (hother : ∀ part : Part, part.keyword ≠ name) :
    readMembers limit depth ((name, value) :: rest) old = .ok new ↔
      ∃ keywords, readKeyword old.path old.keywords name value = .ok keywords ∧
        readMembers limit depth rest { old with keywords } = .ok new := by
  have hproperties : name ≠ "properties" := (hother .properties).symm
  have hadditional : name ≠ "additionalProperties" := (hother .additional).symm
  have hitems : name ≠ "items" := (hother .items).symm
  simp only [readMembers, bind_eq_ok_iff]

/-- Such a keyword is kept by its class, and says nothing about the schemas inside. -/
theorem filled_other (hother : ∀ part : Part, part.keyword ≠ name)
    (hfresh : name ∉ old.keywords.validation.names) :
    Filled limit depth ((name, value) :: rest) old new ↔
      ∃ keywords, readKeyword old.path old.keywords name value = .ok keywords ∧
        Filled limit depth rest { old with keywords } new := by
  have hskip (part : Part) : Members.get? ((name, value) :: rest) part.keyword =
      rest.get? part.keyword := by
    simp [Members.get?, (hother part).symm]
  simp only [filled_iff_parts, hskip]
  unfold readKeyword
  split
  · exact absurd rfl (hother .type)
  · exact absurd rfl (hother .reference)
  · exact absurd rfl (hother .required)
  · exact absurd rfl (hother .readOnly)
  · exact absurd rfl (hother .description)
  · rcases Part.keyword_or_listed name with ⟨part, hpart⟩ | hlisted
    · exact absurd hpart (hother part)
    · rcases hlisted with hclass | hclass | hclass <;>
        simp [hclass, Part.get_lists, Members.insert_of_not_mem hfresh]

end Cons

/-- The members of an object fill the parts of a node, each its own. -/
theorem readMembers_eq_ok_iff {members : Members Json} {old new : SchemaNode}
    (hnodup : members.names.Nodup)
    (hfresh : ∀ name ∈ members.names, name ∉ old.keywords.validation.names) :
    readMembers limit depth members old = .ok new ↔ Filled limit depth members old new := by
  induction members generalizing old with
  | nil => rw [readMembers, filled_nil, Except.ok.injEq, eq_comm]
  | cons pair rest ih =>
      obtain ⟨name, value⟩ := pair
      rw [Members.names_cons, List.nodup_cons] at hnodup
      obtain ⟨hname, hrest⟩ := hnodup
      have hold {other : String} (h : other ∈ Members.names rest) :
          other ∉ old.keywords.validation.names := hfresh other (List.mem_cons_of_mem _ h)
      by_cases hpart : ∃ part : Part, part.keyword = name
      · obtain ⟨part, rfl⟩ := hpart
        rw [readMembers_part, filled_part part (Members.get?_eq_none_iff.2 hname)]
        refine exists_congr fun content => and_congr_right fun _ => ih hrest fun other h => ?_
        rw [Part.set_validation]
        exact hold h
      · have hother := not_exists.1 hpart
        rw [readMembers_other hother, filled_other hother (hfresh name List.mem_cons_self)]
        -- a name is kept only once, so it is fresh for what follows
        refine exists_congr fun keywords => and_congr_right fun hkeywords => ih hrest ?_
        intro other h hmem
        rcases names_readKeyword hkeywords hmem with hmem | rfl
        · exact hold h hmem
        · exact hname h

/-- A value is read as a schema if it is an object that is not too deep, and
its members fill an empty node. -/
theorem readNode_eq_ok_iff {members : Members Json} {node : SchemaNode}
    (hnodup : members.names.Nodup) :
    readNode limit path depth (.object members) = .ok node ↔
      depth ≤ limit ∧ Filled limit depth members (.blank path) node := by
  rw [readNode]
  split
  · next hdeep => simp [Nat.not_le.2 hdeep]
  · next hdeep =>
    rw [readMembers_eq_ok_iff hnodup (by simp [SchemaNode.blank, Keywords.none])]
    simp [Nat.le_of_not_lt hdeep]

theorem eq_object_of_readNode {value : Json} {node : SchemaNode}
    (h : readNode limit path depth value = .ok node) : ∃ members, value = .object members := by
  cases value with
  | object members => exact ⟨members, rfl⟩
  | _ =>
      rw [readNode] at h
      · split at h <;> cases h
      · simp

section Leaves

variable {α β : Type} {found : Option α} {old new : Option β} {Yields : α → β → Prop}

theorem Leaves.yields (h : Leaves found old new Yields) {value : α} (hvalue : found = some value) :
    ∃ result, new = some result ∧ Yields value result := by
  rwa [hvalue] at h

theorem Leaves.isSome_eq (h : Leaves found none new Yields) : new.isSome = found.isSome := by
  cases found with
  | none => rw [h]; rfl
  | some value =>
      obtain ⟨result, hnew, -⟩ := h
      rw [hnew]
      rfl

theorem Leaves.source (h : Leaves found none new Yields) {result : β}
    (hnew : new = some result) : ∃ value, found = some value ∧ Yields value result := by
  cases found with
  | none => cases hnew.symm.trans h
  | some value =>
      obtain ⟨other, hother, hyields⟩ := h
      obtain rfl := Option.some.inj (hother.symm.trans hnew)
      exact ⟨value, rfl, hyields⟩

theorem Leaves.isSome_iff {members : Members α} {key : String}
    (h : Leaves (members.get? key) none new Yields) : new.isSome = true ↔ key ∈ members.names := by
  rw [h.isSome_eq, Members.mem_names_iff]

theorem Leaves.eq_none_iff {members : Members α} {key : String}
    (h : Leaves (members.get? key) none new Yields) : new = none ↔ key ∉ members.names := by
  rw [← h.isSome_iff, Option.not_isSome_iff_eq_none]

theorem exists_leaves (h : ∀ value, found = some value → ∃ result, Yields value result) :
    ∃ new, Leaves found none new Yields := by
  cases found with
  | none => exact ⟨none, rfl⟩
  | some value =>
      obtain ⟨result, hresult⟩ := h value rfl
      exact ⟨some result, result, rfl, hresult⟩

end Leaves

end Schema

end ResourceTypes
