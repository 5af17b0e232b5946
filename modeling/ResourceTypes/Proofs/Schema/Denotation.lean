import ResourceTypes.Proofs.Acceptance
import ResourceTypes.Proofs.Descriptor.Alike
import ResourceTypes.Proofs.Json.Place

/-!
What a schema of the language stands for, told on JSON values alone: which
type its members spell, and where the notes beside it go. Whatever is compiled
stands for its type in this sense.
-/

namespace ResourceTypes

theorem SpelledKind.eq_name_of_ofName? {word : String} {declared : SpelledKind}
    (h : SpelledKind.ofName? word = some declared) : word = declared.kind.name := by
  unfold SpelledKind.ofName? at h
  split at h <;> cases h <;> rfl

/-- The kind of a type that is written in place. -/
def TypeHandle.form : TypeHandle → Option Kind
  | .authored type => some type.kind
  | .referenced .. => none

namespace Language

/-- The text beside a schema. -/
def descriptionOf (schema : Json) : Option String :=
  match schema.member? "description" with
  | some (.string text) => some text
  | _ => none

/-- Whether a schema is marked as read-only; it is not unless it says so. -/
def isReadOnly (schema : Json) : Bool :=
  match schema.member? "readOnly" with
  | some (.bool flag) => flag
  | _ => false

/-- The schemas of the keyword `properties`, in their order. -/
def schemasOf (members : Members Json) : Members Json :=
  match members.get? "properties" with
  | some (.object schemas) => schemas
  | _ => []

/-- The validation keywords with their values. -/
def attributesOf (members : Members Json) : Attributes :=
  members.filter (Keyword.classOf ·.1 = .validation)

/-- The keyword `required` lists a name. -/
def Requires (members : Members Json) (name : String) : Prop :=
  ∃ entries, members.get? "required" = some (.array entries) ∧ .string name ∈ entries

/-- The type of this shape, with the attributes and notes of a schema. -/
def written (members : Members Json) (shape : Shape) : TypeDescriptor :=
  ⟨shape, attributesOf members, descriptionOf (.object members), isReadOnly (.object members)⟩

/-- The handle of a map value or of items, which keeps the notes beside a reference. -/
def noted (schema : Json) (handle : TypeHandle) : TypeHandle :=
  handle.withNotes (descriptionOf schema) (isReadOnly schema)

/-- A property carries the notes of its schema, and is required if it is listed. -/
structure Marked (members : Members Json) (schema : Json) (property : Property) : Prop where
  required : property.required = true ↔ Requires members property.name
  readOnly : property.readOnly = isReadOnly schema
  description : property.description = descriptionOf schema

/-- What a schema stands for in a table of types: a shared type under the id it
refers to, or a type written in place. -/
inductive Denotes (table : TypeTable) : Json → TypeHandle → Prop
  | reference {members : Members Json} {id : String} {entry : Entry} (shaped : Shaped members)
      (refers : Refers members) (names : members.get? "$ref" = some (.string id))
      (found : table.find? id = some entry) :
      Denotes table (.object members) (.referenced id entry.type none false)
  | scalar {members : Members Json} {kind : ScalarKind} (shaped : Shaped members)
      (declares : Declares members (.scalar kind)) :
      Denotes table (.object members) (.authored (written members (.scalar kind)))
  | array {members : Members Json} {item : Json} {handle : TypeHandle} (shaped : Shaped members)
      (declares : Declares members .array) (found : members.get? "items" = some item)
      (inside : Denotes table item handle) :
      Denotes table (.object members) (.authored (written members (.array (noted item handle))))
  | map {members fields : Members Json} {handle : TypeHandle} (shaped : Shaped members)
      (declares : Declares members .object)
      (found : members.get? "additionalProperties" = some (.object fields))
      (inside : Denotes table (.object fields) handle) :
      Denotes table (.object members)
        (.authored (written members (.map (noted (.object fields) handle))))
  | object {members : Members Json} {properties : List Property} (shaped : Shaped members)
      (declares : Declares members .object) (closed : maps members = false)
      (names : properties.map (·.name) = (schemasOf members).names)
      (marked : ∀ property ∈ properties, ∀ schema, (property.name, schema) ∈ schemasOf members →
        Marked members schema property)
      (inside : ∀ property ∈ properties, ∀ schema, (property.name, schema) ∈ schemasOf members →
        Denotes table schema property.type) :
      Denotes table (.object members) (.authored (written members (.object properties)))

/-! ### What stands for something -/

section Members

variable {members : Members Json} {name : String}

theorem Refers.get?_eq_none (h : Refers members)
    (hname : name ∉ ["$ref", "description", "readOnly"]) : members.get? name = none :=
  Members.get?_eq_none_iff.2 fun hmem => hname (h.alone name hmem)

/-- The kind that a schema declares, if it declares one. -/
def formOf (members : Members Json) : Option Kind :=
  match members.get? "type" with
  | some (.string word) => (SpelledKind.ofName? word).map (kindOf members)
  | _ => none

theorem Declares.formOf_eq {declared : SpelledKind} (h : Declares members declared) :
    formOf members = some (kindOf members declared) := by
  obtain ⟨word, hword, hdeclared⟩ := h.type
  simp [formOf, hword, hdeclared]

theorem Denotes.form_eq {table : TypeTable} {handle : TypeHandle}
    (h : Denotes table (.object members) handle) : handle.form = formOf members := by
  cases h with
  | reference shaped refers =>
      rw [formOf, refers.get?_eq_none (by decide)]
      rfl
  | scalar shaped declares => exact declares.formOf_eq.symm
  | array shaped declares => exact declares.formOf_eq.symm
  | map shaped declares found =>
      rw [declares.formOf_eq, kindOf, if_pos ⟨rfl, by rw [maps, found]⟩]
      rfl
  | object shaped declares closed =>
      rw [declares.formOf_eq, kindOf, if_neg (by simp [closed])]
      rfl

/-- What stands for something refers to a shared type, or is written in place. -/
theorem Denotes.handle {table : TypeTable} {schema : Json} {handle : TypeHandle}
    (h : Denotes table schema handle) :
    (∃ id target, handle = .referenced id target none false) ∨
      ∃ members shape, schema = .object members ∧ handle = .authored (written members shape) := by
  cases h with
  | reference => exact .inl ⟨_, _, rfl⟩
  | _ => exact .inr ⟨_, _, rfl, rfl⟩

/-- A type that is written in place carries the notes of its schema. -/
theorem Denotes.notes {table : TypeTable} {schema : Json} {type : TypeDescriptor}
    (h : Denotes table schema (.authored type)) :
    type.description = descriptionOf schema ∧ type.readOnly = isReadOnly schema := by
  rcases h.handle with ⟨id, target, heq⟩ | ⟨members, shape, rfl, heq⟩
  · cases heq
  · obtain rfl := TypeHandle.authored.inj heq
    exact ⟨rfl, rfl⟩

/-- Each property is made from a schema of its name. -/
theorem exists_schema {properties : List Property}
    (hnames : properties.map (·.name) = (schemasOf members).names) {property : Property}
    (h : property ∈ properties) : ∃ schema, (property.name, schema) ∈ schemasOf members := by
  refine Members.exists_of_mem_names ?_
  rw [← hnames]
  exact List.mem_map_of_mem h

theorem get?_properties {schema : Json} (h : (name, schema) ∈ schemasOf members) :
    members.get? "properties" = some (.object (schemasOf members)) := by
  unfold schemasOf at h ⊢
  split at h
  · next schemas hfound => rw [hfound]
  · cases h

end Members

open Schema

section Node

variable {limit depth : Nat} {path : Path} {members : Members Json} {node : SchemaNode}

theorem descriptionOf_eq (h : Filled limit depth members (.blank path) node) :
    descriptionOf (.object members) = node.keywords.description := by
  have hleaves := h.description
  rw [descriptionOf, Json.member?_object]
  cases hfound : members.get? "description" with
  | none =>
      rw [hfound] at hleaves
      exact (show node.keywords.description = none from hleaves).symm
  | some value =>
      obtain ⟨text, hnode, htext⟩ := hleaves.yields hfound
      obtain rfl : value = .string text := htext
      exact hnode.symm

theorem isReadOnly_eq (h : Filled limit depth members (.blank path) node) :
    isReadOnly (.object members) = node.keywords.readOnly.getD false := by
  have hleaves := h.readOnly
  rw [isReadOnly, Json.member?_object]
  cases hfound : members.get? "readOnly" with
  | none =>
      rw [hfound] at hleaves
      rw [show node.keywords.readOnly = none from hleaves]
      rfl
  | some value =>
      obtain ⟨flag, hnode, hflag⟩ := hleaves.yields hfound
      obtain rfl : value = .bool flag := hflag
      rw [hnode]
      rfl

theorem written_eq (h : Filled limit depth members (.blank path) node) (shape : Shape) :
    written members shape = Meaning.describe node.keywords shape := by
  have hattributes : attributesOf members = node.keywords.validation := h.validation.symm
  rw [written, Meaning.describe, hattributes, descriptionOf_eq h, isReadOnly_eq h]

/-- The properties are read from the schemas of the keyword, one by one. -/
theorem forall₂_schemasOf (h : Filled limit depth members (.blank path) node) :
    List.Forall₂ (fun schema child => schema.1 = child.1 ∧
      readNode limit ((path.key "properties").key schema.1) (depth + 1) schema.2 = .ok child.2)
      (schemasOf members) (node.properties.getD []) := by
  have hleaves := h.properties
  unfold schemasOf
  cases hfound : members.get? "properties" with
  | none =>
      rw [hfound] at hleaves
      rw [show node.properties = none from hleaves]
      exact .nil
  | some value =>
      obtain ⟨nodes, hnode, schemas, rfl, hall⟩ := hleaves.yields hfound
      rw [hnode]
      exact hall

theorem proper_schemasOf (hproper : (Json.object members).Proper) :
    (Json.object (schemasOf members)).Proper := by
  unfold schemasOf
  split
  · next schemas hfound =>
    exact Json.properMembers_iff.1 hproper.2 _ (Members.mem_of_get? hfound)
  · exact ⟨List.nodup_nil, trivial⟩

theorem proper_of_mem_schemasOf (hproper : (Json.object members).Proper) {pair : String × Json}
    (hpair : pair ∈ schemasOf members) : pair.2.Proper :=
  Json.properMembers_iff.1 (proper_schemasOf hproper).2 pair hpair

/-- The value of a map is read from its additional properties. -/
theorem value_of_mapValue? (h : Filled limit depth members (.blank path) node)
    {value : SchemaNode} (hvalue : node.mapValue? = some value) :
    ∃ fields, members.get? "additionalProperties" = some (.object fields) ∧
      readNode limit (path.key "additionalProperties") (depth + 1) (.object fields) =
        .ok value := by
  have hadditional : node.additional = some (.typed value) := by
    unfold SchemaNode.mapValue? at hvalue
    split at hvalue
    · next hfound => rw [hfound, Option.some.inj hvalue]
    · cases hvalue
  obtain ⟨_, hfound, ⟨_, -, hflag⟩ | ⟨fields, _, rfl, htyped, hread⟩⟩ :=
    h.additional.source hadditional
  · cases hflag
  · obtain rfl := Additional.typed.inj htyped
    exact ⟨fields, hfound, hread⟩

/-- A schema without a reference that keeps to the grammar declares its type. -/
theorem declares_of_type (h : Filled limit depth members (.blank path) node)
    (hnodup : members.names.Nodup) (hown : Grammar.checkOwn .member node = [])
    (hplain : node.keywords.reference = none) {declared : SpelledKind}
    (htype : node.keywords.type = some (.known declared)) : Declares members declared := by
  rcases (checkOwn_iff h hnodup).1 hown with hrefers | ⟨other, hother⟩
  · exact absurd hrefers.reference (h.reference.eq_none_iff.1 hplain)
  · have hsame := (type_eq_known_iff h).2 hother.type
    obtain rfl := DeclaredType.known.inj (Option.some.inj (hsame.symm.trans htype))
    exact hother

end Node

/-- A reference is bound to the type that is registered under its id. -/
theorem found_of_settle {scope : Binding.Scope} {id other : String} {target : TypeDescriptor}
    (h : Binding.settle scope (.unbound id) = .bound other target) :
    other = id ∧ ∃ entry, scope.table.find? id = some entry ∧ target = entry.type := by
  have hbindable : Binding.Bindable scope id := Binding.isBound_settle_iff.1 (by rw [h]; rfl)
  obtain ⟨entry, hentry⟩ := hbindable.registered
  rw [Binding.settle_of_bindable hbindable hentry] at h
  obtain ⟨rfl, rfl⟩ := Reference.bound.inj h
  exact ⟨rfl, entry, hentry, rfl⟩

/-- The notes beside a schema are those of its node. -/
theorem notes_of_readNode {limit depth : Nat} {path : Path} {schema : Json} {node : SchemaNode}
    (hproper : schema.Proper) (hread : readNode limit path depth schema = .ok node) :
    descriptionOf schema = node.keywords.description ∧
      isReadOnly schema = node.keywords.readOnly.getD false := by
  obtain ⟨members, rfl, -, -, hfilled⟩ := filled_of_readNode hproper hread
  exact ⟨descriptionOf_eq hfilled, isReadOnly_eq hfilled⟩

theorem noted_eq {limit depth : Nat} {path : Path} {schema : Json} {node : SchemaNode}
    (hproper : schema.Proper) (hread : readNode limit path depth schema = .ok node)
    (f : Reference → Reference) (handle : TypeHandle) :
    noted schema handle = Meaning.noted (node.mapReferences f) handle := by
  obtain ⟨hdescription, hreadOnly⟩ := notes_of_readNode hproper hread
  rw [noted, Meaning.noted, hdescription, hreadOnly, SchemaNode.map_keywords]

section Properties

variable {limit depth : Nat} {path : Path} {members : Members Json} {node : SchemaNode}
  {f : Reference → Reference} {properties : List Property}

/-- The properties that a node means once its references are replaced. -/
abbrev MeansProperties (f : Reference → Reference) (node : SchemaNode)
    (properties : List Property) : Prop :=
  List.Forall₂ (fun pair property => ∃ handle, Meaning.handleOf pair.2 = .ok handle ∧
    property = Meaning.propertyOf ((node.mapReferences f).keywords.required.getD []) pair.1 pair.2
      handle) ((node.mapReferences f).properties.getD []) properties

theorem properties_mapReferences (f : Reference → Reference) (node : SchemaNode) :
    (node.mapReferences f).properties.getD [] =
      (node.properties.getD []).map fun pair => (pair.1, pair.2.mapReferences f) := by
  rw [SchemaNode.map_properties]
  cases node.properties <;> rfl

theorem names_of_means (h : Filled limit depth members (.blank path) node)
    (hmeans : MeansProperties f node properties) :
    properties.map (·.name) = (schemasOf members).names := by
  rw [Meaning.name_eq_of_means hmeans, properties_mapReferences,
    names_eq_of_forall₂ (forall₂_schemasOf h) fun _ _ hpair => hpair.1]
  simp [Members.names, Function.comp_def]

/-- The property of a name is made from the child that was read under that name. -/
theorem child_of_property (h : Filled limit depth members (.blank path) node)
    (hproper : (Json.object members).Proper) (hmeans : MeansProperties f node properties)
    {property : Property} (hproperty : property ∈ properties) {schema : Json}
    (hschema : (property.name, schema) ∈ schemasOf members) :
    ∃ child ∈ node.children,
      readNode limit ((path.key "properties").key property.name) (depth + 1) schema = .ok child ∧
        ∃ handle, Meaning.handleOf (child.mapReferences f) = .ok handle ∧
          property = Meaning.propertyOf (node.keywords.required.getD []) property.name child
            handle := by
  have hschemas := forall₂_schemasOf h
  obtain ⟨⟨name, child⟩, hchild, hname, hread⟩ := exists_mem_right hschemas hschema
  obtain ⟨pair, hpair, handle, hhandle, heq⟩ := exists_mem_left hmeans hproperty
  rw [properties_mapReferences] at hpair
  obtain ⟨⟨other, made⟩, hmade, rfl⟩ := List.mem_map.1 hpair
  obtain rfl : property.name = name := hname
  obtain rfl : property.name = other := by rw [heq, Meaning.propertyOf]
  have hdistinct : (Members.names (node.properties.getD [])).Nodup := by
    rw [← names_eq_of_forall₂ hschemas fun _ _ hpair => hpair.1]
    exact (proper_schemasOf hproper).1
  -- a name is written only once, so that there is one child to choose from
  obtain rfl := Option.some.inj
    ((Members.get?_of_mem hdistinct hmade).symm.trans (Members.get?_of_mem hdistinct hchild))
  refine ⟨made, ?_, hread, handle, hhandle, heq.trans ?_⟩
  · exact List.mem_append_left _ (List.mem_append_left _ (List.mem_map_of_mem hmade))
  · simp only [Meaning.propertyOf, SchemaNode.map_keywords]

end Properties

/-! ### One level

What a schema stands for, told from what its children stand for. -/

section Level

variable {scope : Binding.Scope} {limit depth : Nat} {path : Path} {members : Members Json}
  {node : SchemaNode} {f : Reference → Reference}

/-- What was read inside a schema stands for the handle that its bound node means. -/
def ChildrenDenote (scope : Binding.Scope) (limit depth : Nat) (node : SchemaNode) : Prop :=
  ∀ (child : SchemaNode) (place : Path) (inner : Json) (handle : TypeHandle),
    child ∈ node.children → inner.Proper → readNode limit place (depth + 1) inner = .ok child →
      Meaning.handleOf (child.mapReferences (Binding.settle scope)) = .ok handle →
        Denotes scope.table inner handle

theorem describe_eq (h : Filled limit depth members (.blank path) node) (shape : Shape) :
    Meaning.describe (node.mapReferences f).keywords shape = written members shape := by
  rw [written_eq h, SchemaNode.map_keywords]
  rfl

/-- A bound schema without a reference declares its type. -/
theorem declares_of_bound (h : Filled limit depth members (.blank path) node)
    (hnodup : members.names.Nodup) (hown : Grammar.checkOwn .member node = [])
    (hplain : (node.mapReferences f).keywords.reference = none) {declared : SpelledKind}
    (htype : (node.mapReferences f).keywords.type = some (.known declared)) :
    Declares members declared := by
  rw [SchemaNode.map_keywords, Option.map_eq_none_iff] at hplain
  rw [SchemaNode.map_keywords] at htype
  exact declares_of_type h hnodup hown hplain htype

theorem denotes_reference (h : Filled limit depth members (.blank path) node)
    (hnodup : members.names.Nodup) (hown : Grammar.checkOwn .member node = []) {id : String}
    {target : TypeDescriptor}
    (hbound : (node.mapReferences (Binding.settle scope)).keywords.reference =
      some (.bound id target)) :
    Denotes scope.table (.object members) (.referenced id target none false) := by
  rw [SchemaNode.map_keywords] at hbound
  obtain ⟨reference, hreference, hsettle⟩ := Option.map_eq_some_iff.1 hbound
  obtain ⟨id, hid, rfl⟩ := (reference_eq_some_iff h).1 hreference
  obtain ⟨rfl, entry, hentry, rfl⟩ := found_of_settle hsettle
  rcases (checkOwn_iff h hnodup).1 hown with hrefers | ⟨declared, hdeclares⟩
  · exact .reference (shaped_of_filled h) hrefers hid hentry
  · exact absurd (Members.mem_names_of_get? hid) hdeclares.inPlace

theorem denotes_array (h : Filled limit depth members (.blank path) node)
    (hproper : (Json.object members).Proper) (hinside : ChildrenDenote scope limit depth node)
    (hdeclares : Declares members .array) {items : SchemaNode} {handle : TypeHandle}
    (hfound : (node.mapReferences (Binding.settle scope)).items = some items)
    (hmeans : Meaning.handleOf items = .ok handle) :
    Denotes scope.table (.object members)
      (.authored (written members (.array (Meaning.noted items handle)))) := by
  rw [SchemaNode.map_items, Option.map_eq_some_iff] at hfound
  obtain ⟨item, hitem, rfl⟩ := hfound
  obtain ⟨inner, hinner, fields, rfl, hread⟩ := h.items.source hitem
  have hitemProper := (Inside.items hinner).proper hproper
  have hchild : item ∈ node.children := SchemaNode.mem_children.2 (.inr (.inr hitem))
  rw [← noted_eq hitemProper hread]
  exact .array (shaped_of_filled h) hdeclares hinner
    (hinside _ _ _ _ hchild hitemProper hread hmeans)

theorem denotes_map (h : Filled limit depth members (.blank path) node)
    (hproper : (Json.object members).Proper) (hinside : ChildrenDenote scope limit depth node)
    (hdeclares : Declares members .object) {value : SchemaNode} {handle : TypeHandle}
    (hfound : (node.mapReferences (Binding.settle scope)).mapValue? = some value)
    (hmeans : Meaning.handleOf value = .ok handle) :
    Denotes scope.table (.object members)
      (.authored (written members (.map (Meaning.noted value handle)))) := by
  rw [SchemaNode.map_mapValue?, Option.map_eq_some_iff] at hfound
  obtain ⟨value, hvalue, rfl⟩ := hfound
  obtain ⟨fields, hfields, hread⟩ := value_of_mapValue? h hvalue
  have hvalueProper := (Inside.value hfields).proper hproper
  have hchild : value ∈ node.children := by simp [SchemaNode.children, hvalue]
  rw [← noted_eq hvalueProper hread]
  exact .map (shaped_of_filled h) hdeclares hfields
    (hinside _ _ _ _ hchild hvalueProper hread hmeans)

theorem denotes_object (h : Filled limit depth members (.blank path) node)
    (hproper : (Json.object members).Proper) (hinside : ChildrenDenote scope limit depth node)
    (hdeclares : Declares members .object) {properties : List Property}
    (hclosed : (node.mapReferences (Binding.settle scope)).mapValue? = none)
    (hmeans : MeansProperties (Binding.settle scope) node properties) :
    Denotes scope.table (.object members) (.authored (written members (.object properties))) := by
  rw [SchemaNode.map_mapValue?, Option.map_eq_none_iff] at hclosed
  have hmaps : maps members = false := by rw [← isSome_mapValue? h, hclosed]; rfl
  refine .object (shaped_of_filled h) hdeclares hmaps (names_of_means h hmeans) ?_ ?_
  · intro property hproperty schema hschema
    obtain ⟨child, -, hread, handle, -, heq⟩ :=
      child_of_property h hproper hmeans hproperty hschema
    obtain ⟨hdescription, hreadOnly⟩ :=
      notes_of_readNode (proper_of_mem_schemasOf hproper hschema) hread
    rw [heq]
    refine ⟨?_, hreadOnly.symm, hdescription.symm⟩
    exact List.contains_iff_mem.trans (mem_required_iff h)
  · intro property hproperty schema hschema
    obtain ⟨child, hchild, hread, handle, hhandle, heq⟩ :=
      child_of_property h hproper hmeans hproperty hschema
    rw [heq]
    exact hinside _ _ _ _ hchild (proper_of_mem_schemasOf hproper hschema) hread hhandle

end Level

/-- A schema stands for the handle that its bound node means. -/
theorem denotes_of_handleOf {scope : Binding.Scope} {limit depth : Nat} {path : Path}
    {schema : Json} {node : SchemaNode} {handle : TypeHandle} (hproper : schema.Proper)
    (hread : readNode limit path depth schema = .ok node)
    (hgrammar : ∀ inner, node.Holds inner → Grammar.checkOwn .member inner = [])
    (hhandle : Meaning.handleOf (node.mapReferences (Binding.settle scope)) = .ok handle) :
    Denotes scope.table schema handle := by
  induction node using SchemaNode.induct generalizing schema path depth handle with
  | step node ih =>
      obtain ⟨members, rfl, hnodup, -, hfilled⟩ := filled_of_readNode hproper hread
      have hinside : ChildrenDenote scope limit depth node := fun child _ _ _ hchild hinner hread =>
        ih child hchild hinner hread fun node hnode => hgrammar node (.head hchild hnode)
      have hown := hgrammar node .refl
      cases Meaning.handleOf_eq_ok_iff.1 hhandle with
      | reference bound => exact denotes_reference hfilled hnodup hown bound
      | scalar plain declared =>
          rw [describe_eq hfilled]
          exact .scalar (shaped_of_filled hfilled)
            (declares_of_bound hfilled hnodup hown plain declared)
      | array plain declared found means =>
          rw [describe_eq hfilled]
          exact denotes_array hfilled hproper hinside
            (declares_of_bound hfilled hnodup hown plain declared) found means
      | map plain declared found means =>
          rw [describe_eq hfilled]
          exact denotes_map hfilled hproper hinside
            (declares_of_bound hfilled hnodup hown plain declared) found means
      | object plain declared closed means =>
          rw [describe_eq hfilled]
          exact denotes_object hfilled hproper hinside
            (declares_of_bound hfilled hnodup hown plain declared) closed means

end Language

open ResourceTypes.Language

/-- A document that compiles stands for its type. -/
theorem denotes_of_compile {table : TypeTable} {maxDepth : Nat} {document : Option String}
    {schema : Json} {type : TypeDescriptor} (hproper : schema.Proper)
    (h : compile table maxDepth document schema = .ok type) :
    Denotes table schema (.authored type) := by
  obtain ⟨source, hread, hviolations, -, hdescriptor⟩ := compile_eq_ok_iff.1 h
  obtain ⟨-, hbelow⟩ := Grammar.violations_eq_nil_iff.1 hviolations
  obtain ⟨-, hhandle⟩ := Meaning.descriptor_eq_ok_iff.1 hdescriptor
  have hdenotes := denotes_of_handleOf hproper hread hbelow hhandle
  exact hdenotes

/-- A document that compiles is in the language. -/
theorem inLanguage_of_compile {table : TypeTable} {maxDepth : Nat} {document : Option String}
    {schema : Json} {type : TypeDescriptor} (hproper : schema.Proper)
    (h : compile table maxDepth document schema = .ok type) :
    InLanguage ⟨table, document⟩ maxDepth schema := by
  refine (check_accepts_iff table maxDepth document hproper).1 ?_
  rcases compile_eq table maxDepth document schema with ⟨root, _, hcheck, -⟩ | ⟨error, -, hcompile⟩
  · exact ⟨root, hcheck⟩
  · cases hcompile.symm.trans h

end ResourceTypes
