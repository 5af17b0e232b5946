import ResourceTypes.Proofs.Schema.Relocation

/-!
Documents with a hole where a schema stands. What fills the hole is read as a
schema of its own, and all that is around it is read alike whatever fills it.
-/

namespace ResourceTypes

theorem Members.get?_append {α : Type} (xs ys : Members α) (name : String) :
    Members.get? (xs ++ ys) name = (xs.get? name).or (ys.get? name) := by
  induction xs with
  | nil => rfl
  | cons pair rest ih =>
      obtain ⟨key, value⟩ := pair
      by_cases hkey : key = name <;> simp [Members.get?, hkey, ih]

/-- Where the hole is: one of the schemas under `properties`, or the schema that
another keyword holds. -/
inductive Slot where
  | property (left : Members Json) (name : String) (right : Members Json)
  | value
  | items

namespace Slot

def keyword : Slot → String
  | .property _ _ _ => "properties"
  | .value => "additionalProperties"
  | .items => "items"

/-- The value of the keyword once the hole is filled. -/
def fill : Slot → Json → Json
  | .property left name right, schema => .object (left ++ (name, schema) :: right)
  | .value, schema | .items, schema => schema

def hop : Slot → Hop
  | .property _ name _ => .property name
  | .value => .value
  | .items => .items

end Slot

/-- A schema with a hole in place of a schema directly inside it. -/
structure Frame where
  before : Members Json
  slot : Slot
  after : Members Json

namespace Frame

def members (frame : Frame) (schema : Json) : Members Json :=
  frame.before ++ (frame.slot.keyword, frame.slot.fill schema) :: frame.after

def fill (frame : Frame) (schema : Json) : Json := .object (frame.members schema)

end Frame

/-- A document with a hole somewhere below its root. -/
structure Context where
  outer : Frame
  inner : List Frame

namespace Context

def fill (context : Context) (schema : Json) : Json :=
  context.outer.fill (context.inner.foldr Frame.fill schema)

/-- The address of the hole. -/
def address (context : Context) : Address :=
  context.outer.slot.hop :: context.inner.map (·.slot.hop)

end Context

namespace SchemaNode

/-- A node with a hole in place of one of its children. -/
inductive Around where
  | property (path : Path) (keywords : Keywords) (left : List (String × SchemaNode)) (name : String)
      (right : List (String × SchemaNode)) (additional : Option Additional)
      (items : Option SchemaNode)
  | value (path : Path) (keywords : Keywords) (properties : Option (List (String × SchemaNode)))
      (items : Option SchemaNode)
  | items (path : Path) (keywords : Keywords) (properties : Option (List (String × SchemaNode)))
      (additional : Option Additional)

namespace Around

def fill : Around → SchemaNode → SchemaNode
  | .property path keywords left name right additional item, child =>
    ⟨path, keywords, some (left ++ (name, child) :: right), additional, item⟩
  | .value path keywords properties item, child =>
    ⟨path, keywords, properties, some (.typed child), item⟩
  | .items path keywords properties additional, child =>
    ⟨path, keywords, properties, additional, some child⟩

def hop : Around → Hop
  | .property _ _ _ name _ _ _ => .property name
  | .value _ _ _ _ => .value
  | .items _ _ _ _ => .items

/-- The children on the left and on the right of the hole are fixed. -/
theorem exists_hops (around : Around) : ∃ left right, ∀ child,
    (around.fill child).hops = left ++ (around.hop, child) :: right := by
  cases around with
  | property path keywords left name right additional items =>
      refine ⟨left.map fun pair => (.property pair.1, pair.2),
        (right.map fun pair => (.property pair.1, pair.2)) ++
          (⟨path, keywords, none, additional, items⟩ : SchemaNode).hops, fun child => ?_⟩
      simp [SchemaNode.hops, mapValue?, fill, hop]
  | value path keywords properties items =>
      refine ⟨(⟨path, keywords, properties, none, none⟩ : SchemaNode).hops,
        (⟨path, keywords, none, none, items⟩ : SchemaNode).hops, fun child => ?_⟩
      simp [SchemaNode.hops, mapValue?, fill, hop]
  | items path keywords properties additional =>
      refine ⟨(⟨path, keywords, properties, additional, none⟩ : SchemaNode).hops, [],
        fun child => ?_⟩
      simp [SchemaNode.hops, mapValue?, fill, hop]

end Around

end SchemaNode

namespace Grammar

open SchemaNode

variable (around : Around) (child other : SchemaNode)

theorem checkKind_fill (declared : SpelledKind) :
    checkKind (around.fill child) declared = checkKind (around.fill other) declared := by
  have hobject : checkObject (around.fill child) = checkObject (around.fill other) := by
    cases around with
    | property => simp [checkObject, Around.fill, SchemaNode.mapValue?, Members.names]
    | value | items => rfl
  have harray : checkArray (around.fill child) = checkArray (around.fill other) := by
    cases around <;> rfl
  have hkind : (around.fill child).effectiveKind declared =
      (around.fill other).effectiveKind declared := by
    cases around <;> rfl
  unfold checkKind
  rw [hobject, harray, hkind]
  cases around <;> rfl

/-- What a schema breaks by itself does not depend on a schema inside it. -/
theorem checkOwn_fill (position : Position) :
    checkOwn position (around.fill child) = checkOwn position (around.fill other) := by
  have hreference : checkReference (around.fill child) = checkReference (around.fill other) := by
    cases around <;> rfl
  have htype : checkType position (around.fill child) = checkType position (around.fill other) := by
    unfold checkType
    simp only [checkKind_fill around child other]
    cases around <;> rfl
  rw [checkOwn, checkOwn, hreference, htype]
  cases around <;> rfl

theorem checkRoot_fill : checkRoot (around.fill child) = checkRoot (around.fill other) := by
  cases around <;> rfl

end Grammar

namespace Frame

variable {frame : Frame} {schema other : Json}

/-- What fills the hole of a proper schema is proper. -/
theorem proper_of_fill (h : (frame.fill schema).Proper) : schema.Proper := by
  have hslot : (frame.slot.fill schema).Proper :=
    Json.properMembers_iff.1 h.2 _ (List.mem_append_right _ List.mem_cons_self)
  cases hkind : frame.slot with
  | property left name right =>
      rw [hkind] at hslot
      exact Json.properMembers_iff.1 hslot.2 _ (List.mem_append_right _ List.mem_cons_self)
  | value | items =>
      rw [hkind] at hslot
      exact hslot

theorem proper_of_frames {frames : List Frame} (h : (frames.foldr Frame.fill schema).Proper) :
    schema.Proper := by
  induction frames with
  | nil => exact h
  | cons frame rest ih => exact ih (proper_of_fill h)

/-- What fills the outer frame is an object, as the inner frames are. -/
theorem exists_object (frames : List Frame) (members : Members Json) :
    ∃ inner, frames.foldr Frame.fill (.object members) = .object inner := by
  cases frames with
  | nil => exact ⟨members, rfl⟩
  | cons frame rest => exact ⟨_, rfl⟩

theorem names_members :
    (frame.members schema).names =
      frame.before.names ++ frame.slot.keyword :: frame.after.names := by
  simp [members, Members.names]

theorem classOf_keyword (slot : Slot) : Keyword.classOf slot.keyword = .structural := by
  cases slot <;> simp only [Slot.keyword] <;> decide

/-- The keyword around the hole is there once, with the hole in its value. -/
theorem get?_keyword (hproper : (frame.fill schema).Proper) :
    (frame.members schema).get? frame.slot.keyword = some (frame.slot.fill schema) :=
  Members.get?_of_mem hproper.1 (List.mem_append_right _ List.mem_cons_self)

theorem get?_other {name : String} (hname : name ≠ frame.slot.keyword) :
    (frame.members schema).get? name = (frame.members other).get? name := by
  simp [members, Members.get?_append, Members.get?, hname.symm]

theorem filter_members :
    (frame.members schema).filter (Keyword.classOf ·.1 = .validation) =
      (frame.members other).filter (Keyword.classOf ·.1 = .validation) := by
  simp [members, List.filter_append, classOf_keyword]

end Frame

theorem forall₂_append_cons {α β : Type} {R : α → β → Prop} {xs ys : List α} {y : α} {zs : List β}
    (h : List.Forall₂ R (xs ++ y :: ys) zs) :
    ∃ left z right, zs = left ++ z :: right ∧ List.Forall₂ R xs left ∧ R y z ∧
      List.Forall₂ R ys right := by
  induction xs generalizing zs with
  | nil =>
      cases h with
      | cons hfirst hrest => exact ⟨[], _, _, rfl, .nil, hfirst, hrest⟩
  | cons x xs ih =>
      cases h with
      | cons hfirst hrest =>
          obtain ⟨left, z, right, rfl, hleft, hz, hright⟩ := ih hrest
          exact ⟨_ :: left, z, right, rfl, .cons hfirst hleft, hz, hright⟩

attribute [ext] Keywords

namespace Schema

/-- What a keyword leaves is told by its value if that yields one result. -/
theorem Leaves.unique {α β : Type} {found : Option α} {old new other : Option β}
    {Yields : α → β → Prop} (h : Leaves found old new Yields)
    (h' : Leaves found old other Yields)
    (hyields : ∀ value, ∀ result result', Yields value result → Yields value result' →
      result = result') : new = other := by
  cases found with
  | none => rw [show new = old from h, show other = old from h']
  | some value =>
      obtain ⟨result, rfl, hresult⟩ := h
      obtain ⟨result', rfl, hresult'⟩ := h'
      rw [hyields value result result' hresult hresult']

variable {limit depth : Nat} {path : Path} {frame : Frame} {schema schema' : Json}
  {node node' : SchemaNode}

theorem YieldsProperties.unique {value : Json} {nodes nodes' : List (String × SchemaNode)}
    (h : YieldsProperties limit depth path value nodes)
    (h' : YieldsProperties limit depth path value nodes') : nodes = nodes' := by
  obtain ⟨schemas, rfl, hall⟩ := h
  obtain ⟨schemas', hschemas, hall'⟩ := h'
  obtain rfl := Json.object.inj hschemas
  rw [← readProperties_eq_ok_iff] at hall hall'
  exact Except.ok.inj (hall.symm.trans hall')

theorem YieldsAdditional.unique {value : Json} {additional additional' : Additional}
    (h : YieldsAdditional limit depth path value additional)
    (h' : YieldsAdditional limit depth path value additional') : additional = additional' := by
  rcases h with ⟨flag, rfl, rfl⟩ | ⟨fields, child, rfl, rfl, hread⟩ <;>
    rcases h' with ⟨flag', hflag, rfl⟩ | ⟨fields', child', hfields, rfl, hread'⟩
  · rw [Json.bool.inj hflag]
  · cases hfields
  · cases hflag
  · rw [Except.ok.inj (hread.symm.trans hread')]

theorem YieldsItems.unique {value : Json} {child child' : SchemaNode}
    (h : YieldsItems limit depth path value child)
    (h' : YieldsItems limit depth path value child') : child = child' := by
  obtain ⟨-, -, hread⟩ := h
  obtain ⟨-, -, hread'⟩ := h'
  exact Except.ok.inj (hread.symm.trans hread')

/-- The keywords that hold no schema are the same whatever fills the hole. -/
theorem keywords_eq_of_filled (h : Filled limit depth (frame.members schema) (.blank path) node)
    (h' : Filled limit depth (frame.members schema') (.blank path) node') :
    node.keywords = node'.keywords := by
  -- the hole is under one of three keywords, and the others are found as before
  have hsame {name : String} (hname : name ∉ ["properties", "additionalProperties", "items"]) :
      (frame.members schema').get? name = (frame.members schema).get? name := by
    refine Frame.get?_other ?_
    rintro rfl
    cases hslot : frame.slot <;> simp [hslot, Slot.keyword] at hname
  have htype := h'.type
  have hreference := h'.reference
  have hrequired := h'.required
  have hreadOnly := h'.readOnly
  have hdescription := h'.description
  rw [hsame (by decide)] at htype hreference hrequired hreadOnly hdescription
  have hnames : (frame.members schema).names = (frame.members schema').names := by
    rw [Frame.names_members, Frame.names_members]
  ext1
  · exact h.type.unique htype fun value type type' hvalue hvalue' => hvalue.trans hvalue'.symm
  · refine h.reference.unique hreference ?_
    rintro _ _ _ ⟨id, rfl, rfl⟩ ⟨id', hid, rfl⟩
    rw [Json.string.inj hid]
  · refine h.required.unique hrequired ?_
    rintro _ names names' rfl hnames'
    exact (List.map_injective_iff.2 fun _ _ => Json.string.inj) (Json.array.inj hnames')
  · refine h.readOnly.unique hreadOnly ?_
    rintro _ flag flag' rfl hflag
    exact Json.bool.inj hflag
  · refine h.description.unique hdescription ?_
    rintro _ text text' rfl htext
    exact Json.string.inj htext
  · rw [h.polymorphism, h'.polymorphism, hnames]
  · rw [h.validation, h'.validation, Frame.filter_members]
  · rw [h.unknown, h'.unknown, hnames]

/-- The properties around the hole are read in order, the hole among them. -/
theorem properties_of_filled {left right : Members Json} {name : String}
    {properties : Option (List (String × SchemaNode))} {found : Option Json}
    (h : Leaves found none properties (YieldsProperties limit depth path))
    (hfound : found = some (.object (left ++ (name, schema) :: right))) :
    ∃ before child after, properties = some (before ++ (name, child) :: after) ∧
      readProperties limit path depth left = .ok before ∧
      readNode limit (path.key name) depth schema = .ok child ∧
      readProperties limit path depth right = .ok after := by
  obtain ⟨nodes, hnodes, schemas, hschemas, hall⟩ := h.yields hfound
  obtain rfl := Json.object.inj hschemas
  obtain ⟨before, ⟨other, child⟩, after, rfl, hbefore, ⟨hname, hread⟩, hafter⟩ :=
    forall₂_append_cons hall
  obtain rfl : name = other := hname
  exact ⟨before, child, after, hnodes, (readProperties_eq_ok_iff _ _).2 hbefore, hread,
    (readProperties_eq_ok_iff _ _).2 hafter⟩

/-- What two nodes have in common that are read from one frame: all that is not
held by the keyword around the hole. -/
structure Agree (keyword : String) (node other : SchemaNode) : Prop where
  path : other.path = node.path
  keywords : other.keywords = node.keywords
  properties : "properties" ≠ keyword → other.properties = node.properties
  additional : "additionalProperties" ≠ keyword → other.additional = node.additional
  items : "items" ≠ keyword → other.items = node.items

theorem agree_of_filled (h : Filled limit depth (frame.members schema) (.blank path) node)
    (h' : Filled limit depth (frame.members schema') (.blank path) node') :
    Agree frame.slot.keyword node node' where
  path := h'.path.trans h.path.symm
  keywords := keywords_eq_of_filled h' h
  properties hslot := h'.properties.unique (Frame.get?_other hslot ▸ h.properties)
    fun _ _ _ => YieldsProperties.unique
  additional hslot := h'.additional.unique (Frame.get?_other hslot ▸ h.additional)
    fun _ _ _ => YieldsAdditional.unique
  items hslot := h'.items.unique (Frame.get?_other hslot ▸ h.items)
    fun _ _ _ => YieldsItems.unique

/-- A node and what fills its hole, when a frame is filled. -/
theorem around_of_filled {members : Members Json} (hproper : (frame.fill (.object members)).Proper)
    (h : Filled limit depth (frame.members (.object members)) (.blank path) node) :
    ∃ around : SchemaNode.Around, around.hop = frame.slot.hop ∧
      ∀ (members' : Members Json) (node' : SchemaNode), (frame.fill (.object members')).Proper →
        Filled limit depth (frame.members (.object members')) (.blank path) node' →
          ∃ child, node' = around.fill child ∧
            readNode limit (path ++ frame.slot.hop.steps) (depth + 1) (.object members') =
              .ok child := by
  have hhole := Frame.get?_keyword hproper
  have hagree (members' : Members Json) (node' : SchemaNode)
      (h' : Filled limit depth (frame.members (.object members')) (.blank path) node') :
      Agree frame.slot.keyword node node' := agree_of_filled h h'
  -- the parts beside the hole are taken from the one filling that is known to be read
  obtain ⟨before, slot, after⟩ := frame
  cases slot with
  | property left name right =>
      obtain ⟨first, -, last, -, hfirst, -, hlast⟩ := properties_of_filled h.properties hhole
      refine ⟨.property node.path node.keywords first name last node.additional node.items, rfl,
        fun members' node' hproper' h' => ?_⟩
      obtain ⟨hpath, hkeywords, -, hadditional, hitems⟩ := hagree members' node' h'
      obtain ⟨first', child, last', hproperties, hfirst', hread, hlast'⟩ :=
        properties_of_filled h'.properties (Frame.get?_keyword hproper')
      obtain rfl := Except.ok.inj (hfirst.symm.trans hfirst')
      obtain rfl := Except.ok.inj (hlast.symm.trans hlast')
      rw [Slot.hop, Hop.append_steps_property]
      refine ⟨child, ?_, hread⟩
      rw [SchemaNode.Around.fill, ← hpath, ← hkeywords, ← hproperties,
        ← hadditional (by simp [Slot.keyword]), ← hitems (by simp [Slot.keyword])]
      cases node'
      rfl
  | value =>
      refine ⟨.value node.path node.keywords node.properties node.items, rfl,
        fun members' node' hproper' h' => ?_⟩
      obtain ⟨hpath, hkeywords, hproperties, -, hitems⟩ := hagree members' node' h'
      obtain ⟨_, hvalue, ⟨_, hflag, -⟩ | ⟨_, child, -, rfl, hread⟩⟩ :=
        h'.additional.yields (Frame.get?_keyword hproper')
      · cases hflag
      refine ⟨child, ?_, hread⟩
      rw [SchemaNode.Around.fill, ← hpath, ← hkeywords, ← hproperties (by simp [Slot.keyword]),
        ← hvalue, ← hitems (by simp [Slot.keyword])]
      cases node'
      rfl
  | items =>
      refine ⟨.items node.path node.keywords node.properties node.additional, rfl,
        fun members' node' hproper' h' => ?_⟩
      obtain ⟨hpath, hkeywords, hproperties, hadditional, -⟩ := hagree members' node' h'
      obtain ⟨child, hchild, _, -, hread⟩ := h'.items.yields (Frame.get?_keyword hproper')
      refine ⟨child, ?_, hread⟩
      rw [SchemaNode.Around.fill, ← hpath, ← hkeywords, ← hproperties (by simp [Slot.keyword]),
        ← hadditional (by simp [Slot.keyword]), ← hchild]
      cases node'
      rfl

/-- Whatever fills the hole of a schema, it is read to one node with a hole, filled
with what the filling is read to. -/
theorem exists_around (limit depth : Nat) (path : Path) (frame : Frame) :
    ∃ around : SchemaNode.Around, ∀ (members : Members Json) (node : SchemaNode),
      (frame.fill (.object members)).Proper →
        readNode limit path depth (frame.fill (.object members)) = .ok node →
          ∃ child, around.hop = frame.slot.hop ∧ node = around.fill child ∧
            readNode limit (path ++ frame.slot.hop.steps) (depth + 1) (.object members) =
              .ok child := by
  -- where no filling can be read, nothing is asked of the node around the hole
  by_cases hany : ∃ members node, (frame.fill (.object members)).Proper ∧
      readNode limit path depth (frame.fill (.object members)) = .ok node
  · obtain ⟨members, node, hproper, hread⟩ := hany
    obtain ⟨-, hfilled⟩ := (readNode_eq_ok_iff hproper.1).1 hread
    obtain ⟨around, hhop, hall⟩ := around_of_filled hproper hfilled
    refine ⟨around, fun members' node' hproper' hread' => ?_⟩
    obtain ⟨-, hfilled'⟩ := (readNode_eq_ok_iff hproper'.1).1 hread'
    obtain ⟨child, hnode, hchild⟩ := hall members' node' hproper' hfilled'
    exact ⟨child, hhop, hnode, hchild⟩
  · refine ⟨.value .root .none none none, fun members node hproper hread => ?_⟩
    exact (hany ⟨members, node, hproper, hread⟩).elim

end Schema

namespace Grammar

open Schema

/-- The violations around a hole are fixed, those before it and those after it. -/
theorem check_fill (around : SchemaNode.Around) (position : Position) :
    ∃ before after : Findings, ∀ child,
      check position (around.fill child) = before ++ check around.hop.position child ++ after := by
  obtain ⟨left, right, hhops⟩ := around.exists_hops
  refine ⟨checkOwn position (around.fill default) ++
    left.flatMap (fun pair => check pair.1.position pair.2),
    right.flatMap fun pair => check pair.1.position pair.2, fun child => ?_⟩
  rw [check_eq_hops, hhops, checkOwn_fill around child default, List.flatMap_append,
    List.flatMap_cons, List.append_assoc, List.append_assoc]

/-- The violations around a hole in frame after frame are fixed. -/
theorem check_frames (limit : Nat) (frames : List Frame) (depth : Nat) (path : Path)
    (position : Position) :
    ∃ before after : Findings, ∀ (members : Members Json) (root : SchemaNode),
      (frames.foldr Frame.fill (.object members)).Proper →
        readNode limit path depth (frames.foldr Frame.fill (.object members)) = .ok root →
          ∃ hole, readNode limit (path ++ Address.path (frames.map (·.slot.hop)))
              (depth + frames.length) (.object members) = .ok hole ∧
            check position root =
              before ++ check (Address.positionFrom position (frames.map (·.slot.hop))) hole ++
                after := by
  induction frames generalizing depth path position with
  | nil =>
      refine ⟨[], [], fun members root _ hread => ⟨root, ?_, ?_⟩⟩
      · simpa [Path.root] using hread
      · simp [Address.positionFrom]
  | cons frame rest ih =>
      obtain ⟨around, haround⟩ := exists_around limit depth path frame
      obtain ⟨before, after, hcheck⟩ := check_fill around position
      obtain ⟨before', after', hrest⟩ :=
        ih (depth + 1) (path ++ frame.slot.hop.steps) frame.slot.hop.position
      refine ⟨before ++ before', after' ++ after, fun members root hproper hread => ?_⟩
      obtain ⟨inner, hinner⟩ := Frame.exists_object rest members
      rw [List.foldr_cons] at hproper hread
      rw [hinner] at hread
      obtain ⟨child, hhop, rfl, hchild⟩ := haround inner root (hinner ▸ hproper) hread
      rw [← hinner] at hchild
      obtain ⟨hole, hhole, hfixed⟩ := hrest members child (Frame.proper_of_fill hproper) hchild
      refine ⟨hole, ?_, ?_⟩
      · rw [List.map_cons, Address.path_cons, ← List.append_assoc, List.length_cons,
          Nat.add_comm rest.length, ← Nat.add_assoc]
        exact hhole
      · rw [hcheck, hhop, hfixed]
        simp [Address.positionFrom]

end Grammar

end ResourceTypes
