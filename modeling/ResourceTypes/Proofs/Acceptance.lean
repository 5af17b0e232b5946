import ResourceTypes.Proofs.Compile
import ResourceTypes.Proofs.Schema.Language

/-!
Which documents are accepted: checking and compiling take exactly those of the
restricted language. The schemas of a document and the nodes of its tree
correspond, so that what holds of all of one kind holds of all of the other.
-/

namespace ResourceTypes

namespace Language

open Schema

section Tree

variable {limit depth : Nat} {path : Path} {document schema : Json} {root node : SchemaNode}

theorem filled_of_readNode (hproper : schema.Proper)
    (hread : readNode limit path depth schema = .ok node) :
    ∃ members : Members Json, schema = .object members ∧ members.names.Nodup ∧ depth ≤ limit ∧
      Filled limit depth members (.blank path) node := by
  obtain ⟨members, rfl⟩ := eq_object_of_readNode hread
  obtain ⟨hdepth, hfilled⟩ := (readNode_eq_ok_iff hproper.1).1 hread
  exact ⟨members, rfl, hproper.1, hdepth, hfilled⟩

/-- Every schema of a document is read as a node of its tree. -/
theorem node_of_stands (hproper : document.Proper)
    (hread : readNode limit path depth document = .ok root) {hops : Nat}
    (h : Stands document hops schema) :
    ∃ node, root.Holds node ∧ ∃ place, readNode limit place (depth + hops) schema = .ok node := by
  induction h with
  | root => exact ⟨root, .refl, path, hread⟩
  | inside around hinside ih =>
      obtain ⟨parent, hholds, place, hparent⟩ := ih
      obtain ⟨_, heq, -, -, hfilled⟩ := filled_of_readNode (around.proper hproper) hparent
      obtain rfl := Json.object.inj heq
      obtain ⟨child, hchild, place', hread'⟩ := child_of_inside hfilled hinside
      exact ⟨child, hholds.tail hchild, place', hread'⟩

/-- Every node of a tree is read from a schema of the document. -/
theorem stands_of_holds (hproper : document.Proper)
    (hread : readNode limit path depth document = .ok root) (h : root.Holds node) :
    ∃ hops schema, Stands document hops schema ∧
      ∃ place, readNode limit place (depth + hops) schema = .ok node := by
  induction h with
  | refl => exact ⟨0, document, .root, path, hread⟩
  | tail _ hchild ih =>
      obtain ⟨hops, schema, hstands, place, hparent⟩ := ih
      obtain ⟨members, rfl, -, -, hfilled⟩ :=
        filled_of_readNode (hstands.proper hproper) hparent
      obtain ⟨inner, hinside, place', hread'⟩ := inside_of_child hfilled hchild
      exact ⟨hops + 1, inner, .inside hstands hinside, place', hread'⟩

/-- A document whose schemas are all shaped and not too deep can be read. -/
theorem exists_root (path : Path) (depth : Nat) (document : Json) (hproper : document.Proper)
    (hshaped : ∀ hops schema, Stands document hops schema →
      depth + hops ≤ limit ∧ ∃ members, schema = .object members ∧ Shaped members) :
    ∃ root, readNode limit path depth document = .ok root := by
  obtain ⟨hdepth, members, hdocument, hmembers⟩ := hshaped 0 document .root
  have hproper' := hdocument ▸ hproper
  obtain ⟨node, hnode⟩ := exists_filled path hmembers fun schema hinside place =>
    exists_root place (depth + 1) schema (hinside.proper hproper') fun hops inner hstands => by
      obtain ⟨hlimit, hinner⟩ := hshaped (hops + 1) inner (hdocument ▸ hstands.under hinside)
      exact ⟨by omega, hinner⟩
  rw [hdocument]
  exact ⟨node, (readNode_eq_ok_iff hproper'.1).2 ⟨hdepth, hnode⟩⟩
termination_by sizeOf document
decreasing_by
  rw [hdocument]
  exact hinside.sizeOf_lt

end Tree

end Language

open ResourceTypes.Language Schema

/-- The root of a tree describes an object exactly if the document does. -/
theorem rooted_iff {limit depth : Nat} {path : Path} {members : Members Json} {node : SchemaNode}
    (h : Filled limit depth members (.blank path) node) (hnodup : members.names.Nodup)
    (hown : Grammar.checkOwn .member node = []) :
    Grammar.checkRoot node = [] ↔ Declares members .object ∧ maps members = false := by
  have hdeclared (declared : SpelledKind) :
      node.declaredKind? = some declared ↔ node.keywords.type = some (.known declared) := by
    unfold SchemaNode.declaredKind?
    rcases node.keywords.type with _ | _ | value <;> simp
  have hmaps : node.mapValue? = none ↔ maps members = false := by
    rw [← isSome_mapValue? h, Option.isSome_eq_false_iff, Option.isNone_iff_eq_none]
  simp only [Grammar.checkRoot_eq_nil_iff, hdeclared, hmaps]
  constructor
  · rintro ⟨hplace, hall⟩
    rcases (checkOwn_iff h hnodup).1 hown with hrefers | ⟨declared, hdeclares⟩
    · exact absurd hrefers.reference (h.reference.eq_none_iff.1 hplace)
    · obtain ⟨rfl, hfalse⟩ := hall declared ((type_eq_known_iff h).2 hdeclares.type)
      exact ⟨hdeclares, hfalse⟩
  · rintro ⟨hdeclares, hfalse⟩
    refine ⟨h.reference.eq_none_iff.2 hdeclares.inPlace, fun declared htype => ?_⟩
    rw [(type_eq_known_iff h).2 hdeclares.type] at htype
    obtain rfl := DeclaredType.known.inj (Option.some.inj htype)
    exact ⟨rfl, hfalse⟩

/-- The check accepts a document exactly if it belongs to the language. -/
theorem check_accepts_iff (table : TypeTable) (maxDepth : Nat) (document : Option String)
    {schema : Json} (hproper : schema.Proper) :
    (∃ root, check table maxDepth document schema = .ok root) ↔
      InLanguage ⟨table, document⟩ maxDepth schema := by
  simp only [check_eq_ok_iff, Grammar.violations_eq_nil_iff, Schema.read]
  constructor
  -- each schema of the document was read as a node, which broke no rule
  · rintro ⟨_, root, hread, ⟨hroot, hbelow⟩, hbound, -⟩
    constructor
    · intro hops inner hstands
      obtain ⟨node, -, place, hnode⟩ := node_of_stands hproper hread hstands
      obtain ⟨members, rfl, -, hdepth, hfilled⟩ :=
        filled_of_readNode (hstands.proper hproper) hnode
      exact ⟨by omega, members, rfl, shaped_of_filled hfilled⟩
    · obtain ⟨members, rfl, hnodup, -, hfilled⟩ := filled_of_readNode hproper hread
      exact ⟨members, rfl, (rooted_iff hfilled hnodup (hbelow root .refl)).1 hroot⟩
    · intro hops members hstands
      obtain ⟨node, hholds, place, hnode⟩ := node_of_stands hproper hread hstands
      obtain ⟨_, heq, hnodup, -, hfilled⟩ := filled_of_readNode (hstands.proper hproper) hnode
      obtain rfl := Json.object.inj heq
      exact (checkOwn_iff hfilled hnodup).1 (hbelow node hholds)
    · intro hops members id hstands hid
      obtain ⟨node, hholds, place, hnode⟩ := node_of_stands hproper hread hstands
      obtain ⟨_, heq, -, -, hfilled⟩ := filled_of_readNode (hstands.proper hproper) hnode
      obtain rfl := Json.object.inj heq
      have hreference := (reference_eq_some_iff hfilled).2 ⟨id, hid, rfl⟩
      exact Binding.isBound_settle_iff.1 (hbound (node.path, .unbound id)
        (SchemaNode.mem_references.2 ⟨node, hholds, rfl, hreference⟩))
  -- there is a tree, and each of its nodes was read from a schema
  · intro h
    obtain ⟨root, hread⟩ := exists_root .root 0 schema hproper fun hops inner hstands => by
      simpa using h.shaped hops inner hstands
    have hbelow : ∀ node, root.Holds node → Grammar.checkOwn .member node = [] := by
      intro node hholds
      obtain ⟨hops, inner, hstands, place, hnode⟩ := stands_of_holds hproper hread hholds
      obtain ⟨members, rfl, hnodup, -, hfilled⟩ :=
        filled_of_readNode (hstands.proper hproper) hnode
      exact (checkOwn_iff hfilled hnodup).2 (h.grammatical hops members hstands)
    refine ⟨_, root, hread, ⟨?_, hbelow⟩, ?_, rfl⟩
    · obtain ⟨members, rfl, hnodup, -, hfilled⟩ := filled_of_readNode hproper hread
      obtain ⟨_, heq, hrooted⟩ := h.rooted
      obtain rfl := Json.object.inj heq
      exact (rooted_iff hfilled hnodup (hbelow root .refl)).2 hrooted
    · rintro ⟨_, reference⟩ hmem
      obtain ⟨node, hholds, -, hreference⟩ := SchemaNode.mem_references.1 hmem
      obtain ⟨hops, inner, hstands, place, hnode⟩ := stands_of_holds hproper hread hholds
      obtain ⟨members, rfl, -, -, hfilled⟩ := filled_of_readNode (hstands.proper hproper) hnode
      obtain ⟨id, hid, rfl⟩ := (reference_eq_some_iff hfilled).1 hreference
      exact Binding.isBound_settle_iff.2 (h.bindable hops members id hstands hid)

/-- Checking and compiling accept the same documents: those of the language. -/
theorem accepts_iff_inLanguage (table : TypeTable) (maxDepth : Nat) (document : Option String)
    {schema : Json} (hproper : schema.Proper) :
    ((∃ root, check table maxDepth document schema = .ok root) ↔
        InLanguage ⟨table, document⟩ maxDepth schema) ∧
      ((∃ type, compile table maxDepth document schema = .ok type) ↔
        InLanguage ⟨table, document⟩ maxDepth schema) := by
  have hsame : (∃ type, compile table maxDepth document schema = .ok type) ↔
      ∃ root, check table maxDepth document schema = .ok root := by
    rcases compile_eq table maxDepth document schema with
      ⟨root, type, hcheck, -, -, hcompile⟩ | ⟨error, hcheck, hcompile⟩
    · exact iff_of_true ⟨type, hcompile⟩ ⟨root, hcheck⟩
    · simp [hcheck, hcompile]
  rw [hsame]
  exact ⟨check_accepts_iff table maxDepth document hproper,
    check_accepts_iff table maxDepth document hproper⟩

/-- An object with one property, which refers to a registered type, belongs to the language. -/
theorem inLanguage_owner :
    (Json.object [("type", .string "object"), ("properties", .object [("owner",
        .object [("$ref", .string "types#Owner")])])]).Proper ∧
      InLanguage ⟨⟨["types#"], [⟨"types#Owner", .plain (.scalar .string)⟩]⟩, none⟩ 1
        (.object [("type", .string "object"), ("properties", .object [("owner",
          .object [("$ref", .string "types#Owner")])])]) := by
  refine ⟨by simp [Json.Proper, Json.ProperMembers], ?_⟩
  refine (accepts_iff_inLanguage _ 1 none (by simp [Json.Proper, Json.ProperMembers])).1.1 ?_
  refine ⟨_, check_eq_ok_iff.2 ⟨_, rfl, rfl, ?_, rfl⟩⟩
  have hwalk : TypeTable.findCycle ⟨["types#"], [⟨"types#Owner", .plain (.scalar .string)⟩]⟩
      [] [] ["types#Owner"] = (none, ["types#Owner"]) := by
    simp [TypeTable.findCycle, TypeTable.references, TypeTable.find?, Entry.references,
      TypeDescriptor.directReferences, TypeDescriptor.references, Shape.references,
      TypeDescriptor.plain]
  intro pair hpair
  obtain rfl := List.mem_singleton.1 hpair
  rw [Binding.settle, Binding.verdict, Binding.lookup, if_neg (by decide), if_neg (by simp)]
  simp [TypeTable.find?, hwalk, Reference.isBound]

end ResourceTypes
