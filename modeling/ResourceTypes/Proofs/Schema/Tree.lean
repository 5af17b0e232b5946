import Mathlib.Data.List.Basic
import Mathlib.Logic.Relation
import ResourceTypes.Schema.Grammar

/-!
Schema trees as nodes with children: induction over a tree, its nodes, and the
references and violations of a tree as those of its nodes.
-/

namespace ResourceTypes

namespace SchemaNode

theorem mem_children {node child : SchemaNode} :
    child ∈ node.children ↔
      (∃ properties, node.properties = some properties ∧ ∃ name, (name, child) ∈ properties) ∨
        node.additional = some (.typed child) ∨ node.items = some child := by
  obtain ⟨path, keywords, properties, additional, items⟩ := node
  rcases additional with _ | _ | value <;> cases properties <;> cases items <;>
    simp [children, mapValue?, eq_comm]

theorem sizeOf_child_lt {node child : SchemaNode} (h : child ∈ node.children) :
    sizeOf child < sizeOf node := by
  obtain ⟨path, keywords, properties, additional, items⟩ := node
  rcases mem_children.1 h with ⟨list, hlist, name, hmem⟩ | hvalue | hitems
  · simp only at hlist
    subst hlist
    have hlt := List.sizeOf_lt_of_mem hmem
    simp only [Prod.mk.sizeOf_spec] at hlt
    simp only [mk.sizeOf_spec, Option.some.sizeOf_spec]
    omega
  · simp only at hvalue
    subst hvalue
    simp only [mk.sizeOf_spec, Option.some.sizeOf_spec, Additional.typed.sizeOf_spec]
    omega
  · simp only at hitems
    subst hitems
    simp only [mk.sizeOf_spec, Option.some.sizeOf_spec]
    omega

/-- Induction over a tree: a property goes from all children to their parent. -/
theorem induct {P : SchemaNode → Prop}
    (step : ∀ node : SchemaNode, (∀ child ∈ node.children, P child) → P node)
    (node : SchemaNode) : P node :=
  step node fun child _ => induct step child
termination_by sizeOf node
decreasing_by exact sizeOf_child_lt ‹_›

/-- A node stands somewhere in a tree, at its root or further down. -/
abbrev Holds : SchemaNode → SchemaNode → Prop :=
  Relation.ReflTransGen fun parent child => child ∈ parent.children

theorem forall_holds_iff {P : SchemaNode → Prop} {root : SchemaNode} :
    (∀ node, root.Holds node → P node) ↔
      P root ∧ ∀ child ∈ root.children, ∀ node, child.Holds node → P node := by
  constructor
  · intro h
    exact ⟨h root .refl, fun child hchild node hnode => h node (.head hchild hnode)⟩
  · rintro ⟨hroot, hbelow⟩ node hnode
    rcases hnode.cases_head with rfl | ⟨child, hchild, hrest⟩
    · exact hroot
    · exact hbelow child hchild node hrest

theorem listReferences_eq (nodes : List (String × SchemaNode)) :
    listReferences nodes = (nodes.map (·.2)).flatMap references := by
  induction nodes with
  | nil => rfl
  | cons pair rest ih => simp [listReferences, ih]

theorem references_eq (node : SchemaNode) :
    node.references =
      node.keywords.reference.toList.map (node.path, ·) ++ node.children.flatMap references := by
  obtain ⟨path, keywords, properties, additional, items⟩ := node
  rcases additional with _ | _ | value <;> cases properties <;> cases items <;>
    simp [references, propertyReferences, additionalReferences, itemReferences, children,
      mapValue?, listReferences_eq]

theorem mem_references {root : SchemaNode} {path : Path} {reference : Reference} :
    (path, reference) ∈ root.references ↔
      ∃ node, root.Holds node ∧ node.path = path ∧ node.keywords.reference = some reference := by
  induction root using induct with
  | step root ih =>
      rw [references_eq, List.mem_append, List.mem_flatMap]
      constructor
      · rintro (hown | ⟨child, hchild, hmem⟩)
        · simp only [List.mem_map, Option.mem_toList, Prod.mk.injEq] at hown
          obtain ⟨_, hown, hpath, rfl⟩ := hown
          exact ⟨root, .refl, hpath, hown⟩
        · obtain ⟨node, hnode, hfound⟩ := (ih child hchild).1 hmem
          exact ⟨node, .head hchild hnode, hfound⟩
      · rintro ⟨node, hnode, hpath, hreference⟩
        rcases hnode.cases_head with rfl | ⟨child, hchild, hrest⟩
        · simp [hpath, hreference]
        · exact .inr ⟨child, hchild, (ih child hchild).2 ⟨node, hrest, hpath, hreference⟩⟩

end SchemaNode

namespace Grammar

theorem checkList_eq (nodes : List (String × SchemaNode)) :
    checkList nodes = nodes.flatMap fun pair => check .member pair.2 := by
  induction nodes with
  | nil => rfl
  | cons pair rest ih => simp [checkList, ih]

/-- The violations of a tree: its own, then those of its children by position. -/
theorem check_eq (position : Position) (node : SchemaNode) :
    check position node =
      checkOwn position node ++
        (node.properties.getD []).flatMap (fun pair => check .member pair.2) ++
        node.mapValue?.toList.flatMap (check .member) ++
        node.items.toList.flatMap (check .item) := by
  obtain ⟨path, keywords, properties, additional, items⟩ := node
  rcases additional with _ | _ | value <;> cases properties <;> cases items <;>
    simp [check, checkProperties, checkAdditional, checkItems, SchemaNode.mapValue?, checkList_eq]

/-- The position decides how a missing type is reported, not whether it is. -/
theorem checkOwn_eq_nil_iff (position : Position) (node : SchemaNode) :
    checkOwn position node = [] ↔ checkOwn .member node = [] := by
  simp only [checkOwn, List.append_eq_nil_iff]
  refine and_congr_right fun _ => ?_
  split
  · exact Iff.rfl
  · unfold checkType
    split <;> simp

/-- A tree has no violations exactly if no node in it has any of its own. -/
theorem check_eq_nil_iff (position : Position) (root : SchemaNode) :
    check position root = [] ↔ ∀ node, root.Holds node → checkOwn .member node = [] := by
  induction root using SchemaNode.induct generalizing position with
  | step root ih =>
      rw [SchemaNode.forall_holds_iff, check_eq]
      simp only [List.append_eq_nil_iff, List.flatMap_eq_nil_iff, checkOwn_eq_nil_iff position,
        and_assoc]
      refine and_congr_right fun _ => ?_
      constructor
      · rintro ⟨hproperties, hvalue, hitems⟩ child hchild
        rcases SchemaNode.mem_children.1 hchild with ⟨list, hlist, name, hmem⟩ | hadditional | hitem
        · exact (ih child hchild .member).1
            (hproperties (name, child) (by simpa [hlist] using hmem))
        · exact (ih child hchild .member).1
            (hvalue child (by simp [SchemaNode.mapValue?, hadditional]))
        · exact (ih child hchild .item).1 (hitems child (by simp [hitem]))
      · intro hchildren
        refine ⟨fun pair hpair => ?_, fun value hvalue => ?_, fun item hitem => ?_⟩
        · have hchild : pair.2 ∈ root.children :=
            List.mem_append_left _ (List.mem_append_left _ (List.mem_map_of_mem hpair))
          exact (ih _ hchild .member).2 (hchildren _ hchild)
        · have hchild : value ∈ root.children :=
            List.mem_append_left _ (List.mem_append_right _ hvalue)
          exact (ih _ hchild .member).2 (hchildren _ hchild)
        · have hchild : item ∈ root.children := List.mem_append_right _ hitem
          exact (ih _ hchild .item).2 (hchildren _ hchild)

end Grammar

end ResourceTypes
