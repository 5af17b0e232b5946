import Mathlib.Data.List.Permutation
import ResourceTypes.Proofs.Schema.Place

/-!
Addresses of schemas, as the hops that lead to them from the root. The nodes of
a tree that was read are the schemas of its document, one for each address, and
no two of them have the same path.
-/

namespace ResourceTypes

/-- A hop from a schema to one directly inside it. -/
inductive Hop where
  | property (name : String)
  | value
  | items
deriving DecidableEq, Repr

/-- The hops from a schema down to another. -/
abbrev Address := List Hop

namespace Hop

/-- The steps that a hop adds to a path. -/
def steps : Hop → Path
  | .property name => [.key "properties", .key name]
  | .value => [.key "additionalProperties"]
  | .items => [.key "items"]

/-- What kind of place a hop ends at. -/
def position : Hop → Grammar.Position
  | .property _ | .value => .member
  | .items => .item

/-- The schema that a hop leads to from one with these members. -/
def schema? (members : Members Json) : Hop → Option Json
  | .property name => (members.get? "properties").bind (·.member? name)
  | .value =>
    match members.get? "additionalProperties" with
    | some (.object fields) => some (.object fields)
    | _ => none
  | .items => members.get? "items"

theorem append_steps_property (path : Path) (name : String) :
    path ++ steps (.property name) = (path.key "properties").key name := by
  simp [steps, Path.key]

theorem schema?_property_iff {members : Members Json} {name : String} {schema : Json} :
    schema? members (.property name) = some schema ↔
      ∃ schemas, members.get? "properties" = some (.object schemas) ∧
        Members.get? schemas name = some schema := by
  rw [schema?, Option.bind_eq_some_iff]
  constructor
  · rintro ⟨properties, hfound, hmember⟩
    cases properties with
    | object schemas => exact ⟨schemas, hfound, hmember⟩
    | _ => cases hmember
  · rintro ⟨schemas, hfound, hmember⟩
    exact ⟨.object schemas, hfound, hmember⟩

theorem schema?_value_iff {members : Members Json} {schema : Json} :
    schema? members .value = some schema ↔
      ∃ fields, members.get? "additionalProperties" = some (.object fields) ∧
        schema = .object fields := by
  simp only [schema?]
  split
  · next fields hfound => simp [hfound, eq_comm]
  · next hother =>
    refine iff_of_false nofun ?_
    rintro ⟨fields, hfound, -⟩
    exact hother fields hfound

/-- A hop leads to a schema inside. -/
theorem inside {members : Members Json} {schema : Json} {hop : Hop}
    (h : hop.schema? members = some schema) : Language.Inside members schema := by
  cases hop with
  | property name =>
      obtain ⟨schemas, hfound, hmember⟩ := schema?_property_iff.1 h
      exact .property hfound (Members.mem_of_get? hmember)
  | value =>
      obtain ⟨fields, hfound, rfl⟩ := schema?_value_iff.1 h
      exact .value hfound
  | items => exact .items h

end Hop

namespace Address

def path (address : Address) : Path := address.flatMap Hop.steps

/-- What kind of place an address ends at, told what kind it starts from. -/
def positionFrom (start : Grammar.Position) : Address → Grammar.Position
  | [] => start
  | hop :: rest => positionFrom hop.position rest

/-- What kind of place the schema at an address is; the root is none of an array's items. -/
def position (address : Address) : Grammar.Position := address.positionFrom .member

@[simp] theorem path_nil : path [] = .root := rfl

@[simp] theorem path_cons (hop : Hop) (rest : Address) :
    path (hop :: rest) = hop.steps ++ path rest := rfl

/-- Different addresses have different paths: from a schema on, a path shows by
its next keyword which hop it takes. -/
theorem path_injective : Function.Injective path := by
  intro address other h
  induction address generalizing other with
  | nil =>
      cases other with
      | nil => rfl
      | cons hop rest => cases hop <;> simp [Hop.steps, Path.root] at h
  | cons hop rest ih =>
      cases other with
      | nil => cases hop <;> simp [Hop.steps, Path.root] at h
      | cons hop' rest' =>
          cases hop <;> cases hop' <;> simp [Hop.steps] at h
          · obtain ⟨rfl, hrest⟩ := h
            rw [ih hrest]
          · rw [ih h]
          · rw [ih h]

end Address

/-- The schema at an address of a document. -/
def Json.schemaAt? : Json → Address → Option Json
  | schema, [] => some schema
  | .object members, hop :: rest => (hop.schema? members).bind (·.schemaAt? rest)
  | _, _ :: _ => none

namespace SchemaNode

/-- The schemas directly inside, each with the hop to it. -/
def hops (node : SchemaNode) : List (Hop × SchemaNode) :=
  (node.properties.getD []).map (fun pair => (.property pair.1, pair.2)) ++
    node.mapValue?.toList.map (.value, ·) ++ node.items.toList.map (.items, ·)

theorem map_snd_hops (node : SchemaNode) : node.hops.map (·.2) = node.children := by
  simp [hops, children, Function.comp_def]

theorem mem_hops {node child : SchemaNode} {hop : Hop} :
    (hop, child) ∈ node.hops ↔
      (∃ name properties, hop = .property name ∧ node.properties = some properties ∧
          (name, child) ∈ properties) ∨
        (hop = .value ∧ node.additional = some (.typed child)) ∨
          (hop = .items ∧ node.items = some child) := by
  obtain ⟨path, keywords, properties, additional, items⟩ := node
  rcases additional with _ | _ | value <;> cases properties <;> cases items <;>
    simp [hops, mapValue?, eq_comm, and_comm]

theorem mem_children_of_hops {node child : SchemaNode} {hop : Hop} (h : (hop, child) ∈ node.hops) :
    child ∈ node.children := by
  rw [← map_snd_hops]
  exact List.mem_map_of_mem h

/-- The nodes of a tree with their addresses, each before those below it. -/
def nodes (node : SchemaNode) : List (Address × SchemaNode) :=
  ([], node) :: node.hops.attach.flatMap fun ⟨pair, _⟩ =>
    pair.2.nodes.map fun below => (pair.1 :: below.1, below.2)
termination_by sizeOf node
decreasing_by exact sizeOf_child_lt (mem_children_of_hops ‹_›)

theorem nodes_eq (node : SchemaNode) :
    node.nodes = ([], node) :: node.hops.flatMap fun pair =>
      pair.2.nodes.map fun below => (pair.1 :: below.1, below.2) := by
  rw [nodes, List.flatMap_subtype fun pair _ => rfl, List.unattach_attach]

theorem mem_nodes_nil {root node : SchemaNode} : ([], node) ∈ root.nodes ↔ node = root := by
  rw [nodes_eq]
  simp

theorem mem_nodes_cons {root node : SchemaNode} {hop : Hop} {rest : Address} :
    (hop :: rest, node) ∈ root.nodes ↔
      ∃ child, (hop, child) ∈ root.hops ∧ (rest, node) ∈ child.nodes := by
  rw [nodes_eq]
  simp

/-- The addresses of a tree are distinct if no node has two properties of one name. -/
theorem nodup_addresses (root : SchemaNode)
    (h : ∀ node, root.Holds node → (node.hops.map (·.1)).Nodup) :
    (root.nodes.map (·.1)).Nodup := by
  induction root using induct with
  | step root ih =>
      obtain ⟨hroot, hbelow⟩ := forall_holds_iff.1 h
      rw [nodes_eq, List.map_cons, List.map_flatMap, List.nodup_cons]
      constructor
      · simp
      · rw [List.nodup_flatMap]
        constructor
        · intro pair hpair
          have hchild : pair.2 ∈ root.children := mem_children_of_hops hpair
          have hnodup := ih pair.2 hchild (hbelow pair.2 hchild)
          rw [List.map_map]
          have hmap := hnodup.map (List.cons_injective (a := pair.1))
          rwa [List.map_map] at hmap
        -- addresses below two hops differ in their first step
        · refine (List.pairwise_map.1 hroot).imp fun {first second} hhops => ?_
          rw [Function.onFun, List.disjoint_left]
          intro address hfirst hsecond
          simp only [List.map_map, List.mem_map, Function.comp_apply] at hfirst hsecond
          obtain ⟨_, -, rfl⟩ := hfirst
          obtain ⟨_, -, heq⟩ := hsecond
          exact hhops (List.cons.inj heq).1.symm

/-- The references of a tree are those of its nodes, each at the path of its node. -/
theorem references_eq_nodes (root : SchemaNode) :
    root.references = root.nodes.flatMap fun pair =>
      pair.2.keywords.reference.toList.map (pair.2.path, ·) := by
  induction root using induct with
  | step root ih =>
      rw [references_eq, nodes_eq, List.flatMap_cons, List.flatMap_assoc, ← map_snd_hops,
        List.flatMap_map]
      congr 1
      refine List.flatMap_congr fun pair hpair => ?_
      rw [ih pair.2 (mem_children_of_hops hpair), List.flatMap_map]

end SchemaNode

namespace Grammar

/-- The violations of a tree: its own, then those of its children by their hops. -/
theorem check_eq_hops (position : Position) (node : SchemaNode) :
    check position node = checkOwn position node ++
      node.hops.flatMap fun pair => check pair.1.position pair.2 := by
  rw [check_eq]
  simp [SchemaNode.hops, List.flatMap_map, Hop.position]

/-- The violations of a tree are those of its nodes. -/
theorem check_eq_nodes (position : Position) (root : SchemaNode) :
    check position root = root.nodes.flatMap fun pair =>
      checkOwn (pair.1.positionFrom position) pair.2 := by
  induction root using SchemaNode.induct generalizing position with
  | step root ih =>
      rw [check_eq_hops, SchemaNode.nodes_eq, List.flatMap_cons, List.flatMap_assoc]
      congr 1
      refine List.flatMap_congr fun pair hpair => ?_
      rw [ih pair.2 (SchemaNode.mem_children_of_hops hpair), List.flatMap_map]
      rfl

end Grammar

namespace Schema

section Read

variable {limit depth : Nat} {path : Path} {members : Members Json} {document : Json}
  {root node child : SchemaNode} {hop : Hop} {address : Address}

/-- What a hop leads to is read as a node inside. -/
theorem exists_hop (h : Filled limit depth members (.blank path) node) {schema : Json}
    (hschema : hop.schema? members = some schema) :
    ∃ child, (hop, child) ∈ node.hops ∧
      readNode limit (path ++ hop.steps) (depth + 1) schema = .ok child := by
  simp only [SchemaNode.mem_hops]
  cases hop with
  | property name =>
      obtain ⟨schemas, hfound, hmember⟩ := Hop.schema?_property_iff.1 hschema
      obtain ⟨nodes, hnodes, _, hschemas, hall⟩ := h.properties.yields hfound
      obtain rfl := Json.object.inj hschemas
      obtain ⟨⟨name', child⟩, hmem, hname, hread⟩ :=
        exists_mem_right hall (Members.mem_of_get? hmember)
      obtain rfl : name = name' := hname
      rw [Hop.append_steps_property]
      exact ⟨child, .inl ⟨name, nodes, rfl, hnodes, hmem⟩, hread⟩
  | value =>
      obtain ⟨fields, hfound, rfl⟩ := Hop.schema?_value_iff.1 hschema
      obtain ⟨_, hvalue, ⟨_, hflag, -⟩ | ⟨_, child, -, rfl, hread⟩⟩ := h.additional.yields hfound
      · cases hflag
      · exact ⟨child, .inr (.inl ⟨rfl, hvalue⟩), hread⟩
  | items =>
      obtain ⟨child, hitem, _, -, hread⟩ := h.items.yields hschema
      exact ⟨child, .inr (.inr ⟨rfl, hitem⟩), hread⟩

/-- A node inside is read from what the hop to it leads to. -/
theorem schema_of_hop (h : Filled limit depth members (.blank path) node)
    (hproper : (Json.object members).Proper) (hchild : (hop, child) ∈ node.hops) :
    ∃ schema, hop.schema? members = some schema ∧
      readNode limit (path ++ hop.steps) (depth + 1) schema = .ok child := by
  rcases SchemaNode.mem_hops.1 hchild with ⟨name, nodes, rfl, hnodes, hmem⟩ | ⟨rfl, hvalue⟩ |
    ⟨rfl, hitem⟩
  · obtain ⟨_, hfound, schemas, rfl, hall⟩ := h.properties.source hnodes
    obtain ⟨⟨name', schema⟩, hschema, hname, hread⟩ := exists_mem_left hall hmem
    obtain rfl : name' = name := hname
    have hschemas := Json.properMembers_iff.1 hproper.2 _ (Members.mem_of_get? hfound)
    rw [Hop.append_steps_property]
    exact ⟨schema, Hop.schema?_property_iff.2
      ⟨schemas, hfound, Members.get?_of_mem hschemas.1 hschema⟩, hread⟩
  · obtain ⟨_, hfound, ⟨flag, -, hflag⟩ | ⟨fields, _, rfl, htyped, hread⟩⟩ :=
      h.additional.source hvalue
    · cases hflag
    · obtain rfl := Additional.typed.inj htyped
      exact ⟨.object fields, Hop.schema?_value_iff.2 ⟨fields, hfound, rfl⟩, hread⟩
  · obtain ⟨schema, hfound, _, -, hread⟩ := h.items.source hitem
    exact ⟨schema, hfound, hread⟩

/-- A proper schema has no two properties of one name, so its hops are distinct. -/
theorem nodup_hops (h : Filled limit depth members (.blank path) node)
    (hproper : (Json.object members).Proper) : (node.hops.map (·.1)).Nodup := by
  have hnames : ((node.properties.getD []).map (·.1)).Nodup := by
    cases hproperties : node.properties with
    | none => exact List.nodup_nil
    | some nodes =>
        obtain ⟨_, hfound, schemas, rfl, hall⟩ := h.properties.source hproperties
        have hschemas := Json.properMembers_iff.1 hproper.2 _ (Members.mem_of_get? hfound)
        have hsame := names_eq_of_forall₂ hall fun _ _ hpair => hpair.1
        rw [Option.getD_some, ← Members.names, ← hsame]
        exact hschemas.1
  have hproperties := hnames.map (f := Hop.property) fun _ _ heq => Hop.property.inj heq
  rw [List.map_map] at hproperties
  simp only [SchemaNode.hops, List.map_append, List.map_map]
  -- a property, the map value and the items are hops of three forms, none equal to another
  refine (hproperties.append ?_ ?_).append ?_ ?_
  · cases node.mapValue? <;> simp
  · rw [List.disjoint_left]
    rintro _ hleft hright
    simp only [List.mem_map, Function.comp_apply] at hleft hright
    obtain ⟨_, -, rfl⟩ := hleft
    obtain ⟨_, -, heq⟩ := hright
    cases heq
  · cases node.items <;> simp
  · rw [List.disjoint_left]
    rintro _ hleft hright
    simp only [List.mem_append, List.mem_map, Function.comp_apply] at hleft hright
    obtain ⟨_, -, rfl⟩ := hright
    rcases hleft with ⟨_, -, heq⟩ | ⟨_, -, heq⟩ <;> cases heq

/-- The nodes of a tree are read from the schemas of the document, address by address. -/
theorem schema_of_mem_nodes (hproper : document.Proper)
    (hread : readNode limit path depth document = .ok root) (h : (address, node) ∈ root.nodes) :
    ∃ schema, document.schemaAt? address = some schema ∧ schema.Proper ∧
      readNode limit (path ++ address.path) (depth + address.length) schema = .ok node := by
  induction address generalizing path depth document root with
  | nil =>
      obtain rfl := SchemaNode.mem_nodes_nil.1 h
      rw [Address.path_nil, Path.root, List.append_nil]
      exact ⟨document, by rw [Json.schemaAt?], hproper, hread⟩
  | cons hop rest ih =>
      obtain ⟨members, rfl, -, -, hfilled⟩ := Language.filled_of_readNode hproper hread
      obtain ⟨child, hchild, hnode⟩ := SchemaNode.mem_nodes_cons.1 h
      obtain ⟨inner, hinner, hread'⟩ := schema_of_hop hfilled hproper hchild
      obtain ⟨schema, hschema, hproper', hnode⟩ :=
        ih ((Hop.inside hinner).proper hproper) hread' hnode
      refine ⟨schema, Option.bind_eq_some_iff.2 ⟨inner, hinner, hschema⟩, hproper', ?_⟩
      rw [Address.path_cons, ← List.append_assoc, List.length_cons, Nat.add_comm rest.length,
        ← Nat.add_assoc]
      exact hnode

/-- Every schema of the document is read as the node of its address. -/
theorem exists_mem_nodes (hproper : document.Proper)
    (hread : readNode limit path depth document = .ok root) {schema : Json}
    (h : document.schemaAt? address = some schema) : ∃ node, (address, node) ∈ root.nodes := by
  induction address generalizing path depth document root with
  | nil => exact ⟨root, SchemaNode.mem_nodes_nil.2 rfl⟩
  | cons hop rest ih =>
      obtain ⟨members, rfl, -, -, hfilled⟩ := Language.filled_of_readNode hproper hread
      obtain ⟨inner, hinner, hschema⟩ := Option.bind_eq_some_iff.1 h
      obtain ⟨child, hchild, hread'⟩ := exists_hop hfilled hinner
      obtain ⟨node, hnode⟩ := ih ((Hop.inside hinner).proper hproper) hread' hschema
      exact ⟨node, SchemaNode.mem_nodes_cons.2 ⟨child, hchild, hnode⟩⟩

/-- The schema at an address of a document, and the node that it was read as. -/
structure Seated (limit : Nat) (document : Json) (address : Address) (members : Members Json)
    (node : SchemaNode) : Prop where
  here : document.schemaAt? address = some (.object members)
  path : node.path = address.path
  proper : (Json.object members).Proper
  filled : Filled limit address.length members (.blank node.path) node

theorem seated_of_mem_nodes (hproper : document.Proper) (hread : read limit document = .ok root)
    (h : (address, node) ∈ root.nodes) : ∃ members, Seated limit document address members node := by
  obtain ⟨schema, hschema, hproper', hnode⟩ := schema_of_mem_nodes hproper hread h
  rw [Path.root, List.nil_append, Nat.zero_add] at hnode
  obtain ⟨members, rfl, -, -, hfilled⟩ := Language.filled_of_readNode hproper' hnode
  have hpath : node.path = address.path := hfilled.path
  exact ⟨members, hschema, hpath, hproper', hpath ▸ hfilled⟩

theorem exists_seated (hproper : document.Proper) (hread : read limit document = .ok root)
    (h : document.schemaAt? address = some (.object members)) :
    ∃ node, (address, node) ∈ root.nodes ∧ Seated limit document address members node := by
  obtain ⟨node, hnode⟩ := exists_mem_nodes hproper hread h
  obtain ⟨_, hseated⟩ := seated_of_mem_nodes hproper hread hnode
  obtain rfl := Json.object.inj (Option.some.inj (hseated.here.symm.trans h))
  exact ⟨node, hnode, hseated⟩

/-- The nodes of a document have different paths. -/
theorem nodup_paths (hproper : document.Proper) (hread : read limit document = .ok root) :
    (root.nodes.map (·.2.path)).Nodup := by
  have haddresses := SchemaNode.nodup_addresses root fun node hnode => by
    obtain ⟨_, _, hstanding⟩ := Language.standing_of_holds hproper hread hnode
    exact nodup_hops hstanding.filled hstanding.proper
  have hpaths : root.nodes.map (·.2.path) = (root.nodes.map (·.1)).map Address.path := by
    rw [List.map_map]
    refine List.map_congr_left fun pair hpair => ?_
    obtain ⟨_, hseated⟩ := seated_of_mem_nodes hproper hread hpair
    exact hseated.path
  rw [hpaths]
  exact haddresses.map Address.path_injective

end Read

end Schema

end ResourceTypes
