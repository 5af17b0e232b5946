import ResourceTypes.Proofs.Schema.Reading
import ResourceTypes.Proofs.Schema.Tree

/-!
Reading binds nothing: every reference of a tree that was read is unbound.
-/

namespace ResourceTypes

namespace Schema

variable {limit : Nat} {path : Path}

/-- No reference of a tree is bound yet. -/
def Unbound (node : SchemaNode) : Prop := ∀ pair ∈ node.references, pair.2.isBound = false

theorem unbound_iff {node : SchemaNode} :
    Unbound node ↔ (∀ reference ∈ node.keywords.reference, reference.isBound = false) ∧
      ∀ child ∈ node.children, Unbound child := by
  simp only [Unbound, SchemaNode.references_eq node, List.mem_append, or_imp, forall_and,
    List.forall_mem_map, Option.mem_toList, List.mem_flatMap, forall_exists_index, and_imp]
  exact and_congr_right fun _ => ⟨fun h child hchild pair hpair => h pair child hchild hpair,
    fun h pair child hchild hpair => h child hchild pair hpair⟩

theorem unbound_blank (path : Path) : Unbound (.blank path) := by
  rw [unbound_iff]
  simp [SchemaNode.blank, Keywords.none, SchemaNode.children, SchemaNode.mapValue?]

/-- A keyword that holds no schema leaves an unbound reference, or the old one. -/
theorem readKeyword_unbound {keywords result : Keywords} {name : String} {value : Json}
    (h : readKeyword path keywords name value = .ok result)
    (hold : ∀ reference ∈ keywords.reference, reference.isBound = false) :
    ∀ reference ∈ result.reference, reference.isBound = false := by
  unfold readKeyword at h
  split at h
  · cases h
    exact hold
  · obtain ⟨id, -, h⟩ := bind_eq_ok_iff.1 h
    cases h
    simp [Reference.isBound]
  iterate 3
    obtain ⟨_, -, h⟩ := bind_eq_ok_iff.1 h
    cases h
    exact hold
  · split at h <;> cases h <;> exact hold

section Unbound

variable {old : SchemaNode}

theorem Unbound.set_properties (hold : Unbound old) {nodes : List (String × SchemaNode)}
    (hnodes : ∀ pair ∈ nodes, Unbound pair.2) : Unbound { old with properties := some nodes } := by
  obtain ⟨hown, hchildren⟩ := unbound_iff.1 hold
  refine unbound_iff.2 ⟨hown, fun child hchild => ?_⟩
  rcases SchemaNode.mem_children.1 hchild with ⟨_, heq, _, hmem⟩ | hother
  · cases heq
    exact hnodes _ hmem
  · exact hchildren child (SchemaNode.mem_children.2 (.inr hother))

theorem Unbound.set_additional (hold : Unbound old) {additional : Additional}
    (hvalue : ∀ value, additional = .typed value → Unbound value) :
    Unbound { old with additional := some additional } := by
  obtain ⟨hown, hchildren⟩ := unbound_iff.1 hold
  refine unbound_iff.2 ⟨hown, fun child hchild => ?_⟩
  rcases SchemaNode.mem_children.1 hchild with hother | heq | hother
  · exact hchildren child (SchemaNode.mem_children.2 (.inl hother))
  · exact hvalue child (Option.some.inj heq)
  · exact hchildren child (SchemaNode.mem_children.2 (.inr (.inr hother)))

theorem Unbound.set_items (hold : Unbound old) {items : SchemaNode} (hitems : Unbound items) :
    Unbound { old with items := some items } := by
  obtain ⟨hown, hchildren⟩ := unbound_iff.1 hold
  refine unbound_iff.2 ⟨hown, fun child hchild => ?_⟩
  rcases SchemaNode.mem_children.1 hchild with hother | hother | heq
  · exact hchildren child (SchemaNode.mem_children.2 (.inl hother))
  · exact hchildren child (SchemaNode.mem_children.2 (.inr (.inl hother)))
  · cases heq
    exact hitems

end Unbound

mutual

theorem readNode_unbound : ∀ (value : Json) (path : Path) (depth : Nat) (node : SchemaNode),
    readNode limit path depth value = .ok node → Unbound node
  | .object members => by
    intro path depth node h
    rw [readNode] at h
    split at h
    · cases h
    · exact readMembers_unbound members depth (.blank path) node (unbound_blank path) h
  | .null | .bool _ | .int _ | .float _ | .string _ | .array _ => by
    intro path depth node h
    obtain ⟨members, hmembers⟩ := eq_object_of_readNode h
    cases hmembers

theorem readMembers_unbound : ∀ (members : List (String × Json)) (depth : Nat)
    (old new : SchemaNode), Unbound old → readMembers limit depth members old = .ok new →
      Unbound new
  | [] => by
    intro depth old new hold h
    rw [readMembers] at h
    cases h
    exact hold
  | (name, value) :: rest => by
    intro depth old new hold h
    -- what is put into the node was read by the recursion, or holds no schema
    by_cases hname : name = "properties"
    · subst hname
      cases value with
      | object schemas =>
          rw [readMembers] at h
          obtain ⟨nodes, hnodes, h⟩ := bind_eq_ok_iff.1 h
          exact readMembers_unbound rest depth _ new
            (hold.set_properties (readProperties_unbound schemas _ _ nodes hnodes)) h
      | _ => simp [readMembers] at h
    by_cases hname' : name = "additionalProperties"
    · subst hname'
      cases value with
      | bool flag =>
          rw [readMembers] at h
          exact readMembers_unbound rest depth _ new (hold.set_additional (by simp)) h
      | object fields =>
          rw [readMembers] at h
          obtain ⟨node, hnode, h⟩ := bind_eq_ok_iff.1 h
          refine readMembers_unbound rest depth _ new (hold.set_additional fun value hvalue => ?_) h
          cases hvalue
          exact readNode_unbound (.object fields) _ _ node hnode
      | _ => simp [readMembers] at h
    by_cases hname'' : name = "items"
    · subst hname''
      cases value with
      | object fields =>
          rw [readMembers] at h
          obtain ⟨node, hnode, h⟩ := bind_eq_ok_iff.1 h
          exact readMembers_unbound rest depth _ new
            (hold.set_items (readNode_unbound (.object fields) _ _ node hnode)) h
      | _ => simp [readMembers] at h
    simp only [readMembers, bind_eq_ok_iff] at h
    obtain ⟨keywords, hkeywords, h⟩ := h
    have hnext : Unbound { old with keywords } :=
      unbound_iff.2 ⟨readKeyword_unbound hkeywords (unbound_iff.1 hold).1, (unbound_iff.1 hold).2⟩
    exact readMembers_unbound rest depth _ new hnext h

theorem readProperties_unbound : ∀ (schemas : List (String × Json)) (path : Path) (depth : Nat)
    (nodes : List (String × SchemaNode)), readProperties limit path depth schemas = .ok nodes →
      ∀ pair ∈ nodes, Unbound pair.2
  | [] => by
    intro path depth nodes h
    rw [readProperties] at h
    cases h
    simp
  | (name, schema) :: rest => by
    intro path depth nodes h
    rw [readProperties] at h
    obtain ⟨node, hnode, h⟩ := bind_eq_ok_iff.1 h
    obtain ⟨others, hothers, h⟩ := bind_eq_ok_iff.1 h
    cases h
    rintro pair (_ | ⟨_, hpair⟩)
    · exact readNode_unbound schema _ depth node hnode
    · exact readProperties_unbound rest path depth others hothers pair hpair

end

end Schema

end ResourceTypes
