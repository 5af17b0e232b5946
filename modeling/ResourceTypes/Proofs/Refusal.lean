import ResourceTypes.Proofs.Schema.Overlooked

/-!
What reading a document comes to. The documents that are shaped like schemas are
read, to a tree that knows where its nodes come from; the others are refused at
the first place in document order that offends.
-/

namespace ResourceTypes

open ResourceTypes.Language

namespace Language

/-- Every schema of a document is an object that is not too deep, and its keywords
have values of the JSON types that they ask for. -/
def ShapedWithin (limit : Nat) (document : Json) : Prop :=
  ∀ hops schema, Stands document hops schema →
    hops ≤ limit ∧ ∃ members, schema = .object members ∧ Shaped members

end Language

/-- The steps of a hop lead to the schema that the hop leads to. -/
theorem Json.at?_steps {members : Members Json} {hop : Hop} {schema : Json}
    (h : hop.schema? members = some schema) :
    (Json.object members).at? hop.steps = some schema := by
  cases hop with
  | property name =>
      obtain ⟨schemas, hfound, hnamed⟩ := Hop.schema?_property_iff.1 h
      simp [Hop.steps, at?, hfound, hnamed]
  | value =>
      obtain ⟨fields, hfound, rfl⟩ := Hop.schema?_value_iff.1 h
      simp [Hop.steps, at?, hfound]
  | items =>
      have hfound : members.get? "items" = some schema := h
      simp [Hop.steps, at?, hfound]

theorem Json.at?_of_schemaAt? {document schema : Json} {address : Address}
    (h : document.schemaAt? address = some schema) :
    document.at? address.path = some schema := by
  induction address generalizing document with
  | nil =>
      rw [schemaAt?] at h
      rw [Address.path_nil, at?_root, h]
  | cons hop rest ih =>
      cases document with
      | object members =>
          obtain ⟨inner, hinner, hschema⟩ := Option.bind_eq_some_iff.1 h
          rw [Address.path_cons, at?_append, at?_steps hinner, Option.bind_some]
          exact ih hschema
      | _ => cases h

namespace Schema

section Document

variable {limit limit' : Nat} {document : Json} {root root' : SchemaNode}

theorem exists_root_iff (hproper : document.Proper) :
    (∃ root, read limit document = .ok root) ↔ ShapedWithin limit document := by
  constructor
  · rintro ⟨root, hread⟩ hops schema hstands
    obtain ⟨node, -, place, hnode⟩ := node_of_stands hproper hread hstands
    obtain ⟨members, rfl, -, hdepth, hfilled⟩ :=
      filled_of_readNode (hstands.proper hproper) hnode
    rw [Nat.zero_add] at hdepth
    exact ⟨hdepth, members, rfl, shaped_of_filled hfilled⟩
  · intro hshaped
    apply exists_root .root 0 document hproper
    intro hops schema hstands
    rw [Nat.zero_add]
    exact hshaped hops schema hstands

/-- The limit decides whether a document is read, but not what it is read as. -/
theorem read_unique (hread : read limit document = .ok root)
    (hread' : read limit' document = .ok root') : root = root' := by
  rcases Nat.le_total limit limit' with hlimit | hlimit
  · exact Except.ok.inj ((readNode_mono hlimit hread).symm.trans hread')
  · exact Except.ok.inj (hread.symm.trans (readNode_mono hlimit hread'))

/-- A node says where it was read from. -/
structure ReadFrom (limit : Nat) (document : Json) (address : Address) (node : SchemaNode) :
    Prop where
  path : node.path = address.path
  here : ∃ members, document.at? node.path = some (.object members) ∧
    readNode limit node.path address.length (.object members) = .ok node

theorem readFrom_of_mem_nodes (hproper : document.Proper) (hread : read limit document = .ok root)
    {address : Address} {node : SchemaNode} (h : (address, node) ∈ root.nodes) :
    ReadFrom limit document address node := by
  obtain ⟨schema, hschema, hproper', hnode⟩ := schema_of_mem_nodes hproper hread h
  rw [Path.root, List.nil_append, Nat.zero_add] at hnode
  obtain ⟨members, rfl, -, -, hfilled⟩ := filled_of_readNode hproper' hnode
  have hpath : node.path = address.path := hfilled.path
  refine ⟨hpath, members, ?_, ?_⟩
  · rw [hpath]
    exact Json.at?_of_schemaAt? hschema
  · rw [hpath]
    exact hnode

theorem refused_iff (hproper : document.Proper) (path : Path) :
    (∃ cause, read limit document = .error ⟨path, cause⟩) ↔ FirstOffence limit document path := by
  have hrefused : refusedAt? (read limit document) =
      Json.first? (Offends limit 0 document) document.places := by
    rw [read, refused_node document .root 0 hproper]
    simp [Path.root]
  rw [FirstOffence, ← Json.first?_eq_some_iff, ← hrefused]
  cases hread : read limit document with
  | ok root => simp [refusedAt?, complaint?]
  | error offence =>
      obtain ⟨place, cause⟩ := offence
      simp [refusedAt?, complaint?, eq_comm]

end Document

/-- A document is read exactly if it is shaped within the limit, whatever the limit
to the same tree, whose nodes keep the places that they were read from. Any other
is refused at its first offence, and alike with other values under the keywords
that ask for no type. -/
theorem read_or_refused {document : Json} (hproper : document.Proper) (limit : Nat) :
    ((∃ root, read limit document = .ok root) ↔ ShapedWithin limit document) ∧
      (∀ root, read limit document = .ok root →
        (∀ limit' root', read limit' document = .ok root' → root' = root) ∧
          ∀ address node, (address, node) ∈ root.nodes → ReadFrom limit document address node) ∧
      (∀ path, (∃ cause, read limit document = .error ⟨path, cause⟩) ↔
        FirstOffence limit document path) ∧
      ∀ (frames : List Frame) (before after : Members Json) (name : String) (value value' : Json),
        Keyword.demand? name = none →
          document = frames.foldr Frame.fill (.object (before ++ (name, value) :: after)) →
            complaint? (read limit document) = complaint? (read limit
              (frames.foldr Frame.fill (.object (before ++ (name, value') :: after)))) := by
  refine ⟨exists_root_iff hproper, fun root hread => ⟨?_, ?_⟩, refused_iff hproper, ?_⟩
  · intro limit' root' hread'
    exact read_unique hread' hread
  · intro address node hnode
    exact readFrom_of_mem_nodes hproper hread hnode
  · rintro frames before after name value value' hname rfl
    exact complaint?_exchanged frames hname

/-- A schema whose list of required names ends in a number. The flag behind it is no
flag either, and neither is the schema after the list. -/
def crookedDoor : Json :=
  .object [("type", .string "object"),
    ("properties", .object [
      ("frame", .object [("enum", .object [("items", .int 2)]),
        ("required", .array [.string "hinge", .int 3]), ("items", .null)])]),
    ("readOnly", .string "no")]

theorem read_or_refused_crookedDoor :
    crookedDoor.Proper ∧
      FirstOffence 1 crookedDoor
        [.key "properties", .key "frame", .key "required", .index 1] := by
  have hproper : crookedDoor.Proper := by
    simp [crookedDoor, Json.Proper, Json.ProperItems, Json.ProperMembers]
  exact ⟨hproper, ((read_or_refused hproper 1).2.2.1 _).1 ⟨_, rfl⟩⟩

end Schema

end ResourceTypes
