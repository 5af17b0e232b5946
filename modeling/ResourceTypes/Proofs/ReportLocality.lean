import ResourceTypes.Proofs.GrammarReport
import ResourceTypes.Proofs.Schema.Context

/-!
The report of the grammar is local. A schema in a document contributes what is
reported for it as a document of its own, between failures that are the same
whatever stands in its place.
-/

namespace ResourceTypes

open ResourceTypes.Language

/-- A failure of a schema that is a document of its own, where the schema stands at
an address. Of the items of an array the lack of a type is told in other words. -/
def Failure.within (address : Address) (members : Members Json) (failure : Failure) : Failure :=
  if address.position = .item ∧ "type" ∉ members.names ∧ "$ref" ∉ members.names ∧
      failure.path = .root ∧ failure.rule = .typeRequired then
    ⟨address.path, .arrayItemTypeRequired, Violation.message .untypedItem⟩
  else { failure with path := address.path ++ failure.path }

namespace Grammar

section Document

variable {limit : Nat} {members : Members Json} {root : SchemaNode} {finding : Located Violation}

/-- Without what is reported of the root alone, a report is that of the tree. -/
theorem filter_report {document : Json} (hproper : document.Proper)
    (hread : Schema.read limit document = .ok root) :
    (report root).filter (·.rule ≠ .rootMustBeObject) =
      (check .member root).map Located.failure := by
  obtain ⟨members, rfl, -, -, hfilled⟩ := filled_of_readNode hproper hread
  have hroot : ((checkRoot root).map Located.failure).filter
      (·.rule ≠ .rootMustBeObject) = [] := by
    refine List.filter_eq_nil_iff.2 fun failure hfailure => ?_
    obtain ⟨finding, hfinding, rfl⟩ := List.mem_map.1 hfailure
    simp [((mem_checkRoot hfilled).1 hfinding).rule_eq]
  have htree : ((check .member root).map Located.failure).filter (·.rule ≠ .rootMustBeObject) =
      (check .member root).map Located.failure := by
    refine List.filter_eq_self.2 fun failure hfailure => ?_
    obtain ⟨finding, hfinding, rfl⟩ := List.mem_map.1 hfailure
    rw [check_eq_nodes] at hfinding
    obtain ⟨pair, hpair, hown⟩ := List.mem_flatMap.1 hfinding
    obtain ⟨inner, hbreach, -⟩ := breach_of_mem_nodes hproper hread hpair hown
    simpa using hbreach.rule_ne
  rw [report, violations, List.map_append, List.filter_append, hroot, htree, List.nil_append]

/-- What is found below the root of a document is not at the root. -/
theorem path_ne_root (hproper : (Json.object members).Proper)
    (hread : Schema.read limit (.object members) = .ok root) {pair : Hop × SchemaNode}
    (hpair : pair ∈ root.hops) {position : Position} (hfinding : finding ∈ check position pair.2) :
    finding.path ≠ .root := by
  obtain ⟨-, hfilled⟩ := (Schema.readNode_eq_ok_iff hproper.1).1 hread
  obtain ⟨schema, -, hchild⟩ := Schema.schema_of_hop hfilled hproper hpair
  obtain ⟨own, -, hown⟩ := Schema.read_of_readNode hchild
  rw [hown, check_map] at hfinding
  obtain ⟨inner, -, rfl⟩ := List.mem_map.1 hfinding
  obtain ⟨hop, child⟩ := pair
  cases hop <;> simp [Located.moved, Path.root, Hop.steps]

/-- The position of a schema only matters if it has neither a type nor a reference. -/
theorem checkOwn_eq_member {position : Position} {node : SchemaNode}
    (h : ¬ (position = .item ∧ node.keywords.type = none ∧ node.keywords.reference = none)) :
    checkOwn position node = checkOwn .member node := by
  cases position with
  | member => rfl
  | item =>
      rcases hreference : node.keywords.reference with _ | reference
      · rcases htype : node.keywords.type with _ | type
        · exact absurd ⟨rfl, htype, hreference⟩ h
        · cases type <;> simp [checkOwn, checkType, htype, hreference]
      · simp [checkOwn, hreference]

theorem checkOwn_untyped (position : Position) {node : SchemaNode}
    (htype : node.keywords.type = none) (hreference : node.keywords.reference = none) :
    checkOwn position node =
      node.keywords.polymorphism.map (⟨node.path, .polymorphic ·⟩) ++
        node.keywords.unknown.map (⟨node.path, .unknownKeyword ·⟩) ++
        [⟨node.path, position.untyped⟩] := by
  simp [checkOwn, checkType, htype, hreference]

/-- All but the lack of a type at the root of an item moves as it is. -/
theorem failure_moved {address : Address} (hother : ¬ (address.position = .item ∧
    "type" ∉ members.names ∧ "$ref" ∉ members.names ∧ finding.path = .root ∧
      finding.failure.rule = .typeRequired)) :
    (finding.moved address.path).failure = finding.failure.within address members :=
  (if_neg hother).symm

/-- The failures of the schema itself at an address are those it has on its own. -/
theorem map_moved_own {depth : Nat} (h : Schema.Filled limit depth members (.blank .root) root)
    (address : Address) :
    ((checkOwn address.position root).map (Located.moved address.path)).map Located.failure =
      ((checkOwn .member root).map Located.failure).map (Failure.within address members) := by
  have hpath : root.path = .root := h.path
  rw [List.map_map, List.map_map]
  -- only the lack of a type is told in other words, where the schema is the items of an array
  by_cases huntyped : address.position = .item ∧ root.keywords.type = none ∧
      root.keywords.reference = none
  · obtain ⟨hposition, htype, hreference⟩ := huntyped
    rw [checkOwn_untyped _ htype hreference, checkOwn_untyped _ htype hreference, hposition]
    simp only [List.map_append, List.map_map, List.map_cons, List.map_nil]
    congr 1
    · congr 1
      · exact List.map_congr_left fun keyword _ => failure_moved fun ⟨_, _, _, _, hrule⟩ =>
          nomatch hrule
      · exact List.map_congr_left fun name _ => failure_moved fun ⟨_, _, _, _, hrule⟩ =>
          nomatch hrule
    · have hthis : address.position = .item ∧ "type" ∉ members.names ∧ "$ref" ∉ members.names ∧
          root.path = .root ∧ Rule.typeRequired = .typeRequired :=
        ⟨hposition, h.type.eq_none_iff.1 htype, h.reference.eq_none_iff.1 hreference, hpath, rfl⟩
      refine congrArg (fun failure => [failure]) (Eq.trans ?_ (if_pos hthis).symm)
      change (⟨address.path ++ root.path, _, _⟩ : Failure) = _
      rw [hpath, Path.root, List.append_nil]
      rfl
  · rw [checkOwn_eq_member huntyped]
    refine List.map_congr_left fun finding _ => failure_moved ?_
    rintro ⟨hposition, htype, hreference, -, -⟩
    exact huntyped
      ⟨hposition, h.type.eq_none_iff.2 htype, h.reference.eq_none_iff.2 hreference⟩

/-- The failures of a schema at an address are those of the schema on its own. -/
theorem map_moved_failure (hproper : (Json.object members).Proper)
    (hread : Schema.read limit (.object members) = .ok root) (address : Address) :
    ((check address.position root).map (Located.moved address.path)).map Located.failure =
      ((check .member root).map Located.failure).map (Failure.within address members) := by
  obtain ⟨-, hfilled⟩ := (Schema.readNode_eq_ok_iff hproper.1).1 hread
  rw [check_eq_hops, check_eq_hops]
  simp only [List.map_append, map_moved_own hfilled]
  congr 1
  rw [List.map_map, List.map_map]
  -- what stands below the root is not at its path
  refine List.map_congr_left fun finding hfinding => failure_moved ?_
  rintro ⟨-, -, -, hroot, -⟩
  obtain ⟨pair, hpair, hbelow⟩ := List.mem_flatMap.1 hfinding
  exact path_ne_root hproper hread hpair hbelow hroot

end Document

/-- The report of a document with a hole in it: before and after what the hole is
filled with it is fixed, and the filling contributes its own report, moved to the
hole and without what is reported of a root alone. -/
theorem report_local (limit : Nat) (context : Context) :
    ∃ before after : Report, ∀ (members : Members Json) (root : SchemaNode),
      (context.fill (.object members)).Proper →
        Schema.read limit (context.fill (.object members)) = .ok root →
          ∃ own, Schema.read limit (.object members) = .ok own ∧
            report root = before ++
              ((report own).filter (·.rule ≠ .rootMustBeObject)).map
                (Failure.within context.address members) ++ after := by
  obtain ⟨outer, inner⟩ := context
  obtain ⟨around, haround⟩ := Schema.exists_around limit 0 .root outer
  obtain ⟨first, last, hcheck⟩ := check_fill around .member
  obtain ⟨before, after, hframes⟩ :=
    check_frames limit inner 1 (Path.root ++ outer.slot.hop.steps) outer.slot.hop.position
  refine ⟨(checkRoot (around.fill default) ++ first ++ before).map Located.failure,
    (after ++ last).map Located.failure, fun members root hproper hread => ?_⟩
  obtain ⟨object, hobject⟩ := Frame.exists_object inner members
  rw [Context.fill] at hproper hread
  rw [hobject] at hread
  obtain ⟨child, hhop, rfl, hchild⟩ := haround object root (hobject ▸ hproper) hread
  rw [← hobject] at hchild
  obtain ⟨hole, hhole, hfixed⟩ := hframes members child (Frame.proper_of_fill hproper) hchild
  have hplace : Path.root ++ outer.slot.hop.steps ++ Address.path (inner.map (·.slot.hop)) =
      (Context.mk outer inner).address.path := by
    simp [Context.address, Path.root]
  rw [hplace] at hhole
  -- what fills the hole is read on its own to the same tree, at the root
  obtain ⟨own, hown, rfl⟩ := Schema.read_of_readNode hhole
  have hmembers : (Json.object members).Proper :=
    Frame.proper_of_frames (Frame.proper_of_fill hproper)
  have hposition : Address.positionFrom outer.slot.hop.position (inner.map (·.slot.hop)) =
      (Context.mk outer inner).address.position := rfl
  refine ⟨own, hown, ?_⟩
  rw [filter_report hmembers hown, ← map_moved_failure hmembers hown, report, violations, hcheck,
    hhop, hfixed, hposition, check_map, checkRoot_fill around child default]
  simp only [List.map_append, List.append_assoc]

/-- A shelf with a hole in place of the items of its boards. -/
def shelf : Context where
  outer := ⟨[("type", .string "object"), ("required", .array [.string "height"])],
    .property [] "boards" [("maker", .object [])], [("title", .string "Shelf")]⟩
  inner := [⟨[("type", .string "array")], .items, []⟩]

/-- A board without a type fails as an item does, between the failures of the shelf. -/
theorem report_shelf :
    (shelf.fill (.object [("minLength", .int 1)])).Proper ∧ ∃ before after root own,
      Schema.read 128 (shelf.fill (.object [("minLength", .int 1)])) = .ok root ∧
      Schema.read 128 (.object [("minLength", .int 1)]) = .ok own ∧
      (report root).map (fun failure => (failure.rule, failure.path)) =
        [(.unknownKeyword, []),
          (.unknownRequiredProperty, [.key "required", .index 0]),
          (.arrayItemTypeRequired, [.key "properties", .key "boards", .key "items"]),
          (.typeRequired, [.key "properties", .key "maker"])] ∧
      report root = before ++
        ((report own).filter (·.rule ≠ .rootMustBeObject)).map
          (Failure.within shelf.address [("minLength", .int 1)]) ++ after := by
  have hproper : (shelf.fill (.object [("minLength", .int 1)])).Proper := by
    simp [shelf, Context.fill, Frame.fill, Frame.members, Slot.keyword, Slot.fill, Json.Proper,
      Json.ProperItems, Json.ProperMembers]
  obtain ⟨before, after, hlocal⟩ := report_local 128 shelf
  obtain ⟨root, hroot⟩ : ∃ root,
      Schema.read 128 (shelf.fill (.object [("minLength", .int 1)])) = .ok root := ⟨_, rfl⟩
  obtain ⟨own, hown, hreport⟩ := hlocal [("minLength", .int 1)] root hproper hroot
  refine ⟨hproper, before, after, root, own, hroot, hown, ?_, hreport⟩
  cases hroot
  decide +kernel

end Grammar

end ResourceTypes
