import ResourceTypes.Proofs.Schema.Address

/-!
Schema trees that are read at another place. A value yields the same tree
wherever it stands, save that the place comes before every path, and a deeper
limit changes nothing.
-/

namespace ResourceTypes

namespace SchemaNode

section Moved

variable (top : Path) (node : SchemaNode)

theorem moved_keywords : (node.moved top).keywords = node.keywords := by simp

theorem moved_setProperties (nodes : List (String × SchemaNode)) :
    { node.moved top with properties := some (nodes.map fun pair => (pair.1, pair.2.moved top)) } =
      ({ node with properties := some nodes } : SchemaNode).moved top := by
  obtain ⟨path, keywords, properties, additional, items⟩ := node
  simp [map, mapProperties, mapList_eq]

theorem moved_setKeywords (keywords : Keywords) :
    { node.moved top with keywords } = ({ node with keywords } : SchemaNode).moved top := by
  obtain ⟨path, _, properties, additional, items⟩ := node
  simp [map]

theorem moved_setAllowed (flag : Bool) :
    { node.moved top with additional := some (.allowed flag) } =
      ({ node with additional := some (.allowed flag) } : SchemaNode).moved top := by
  obtain ⟨path, keywords, properties, additional, items⟩ := node
  rfl

theorem moved_setValue (value : SchemaNode) :
    { node.moved top with additional := some (.typed (value.moved top)) } =
      ({ node with additional := some (.typed value) } : SchemaNode).moved top := by
  obtain ⟨path, keywords, properties, additional, items⟩ := node
  rfl

theorem moved_setItems (items : SchemaNode) :
    { node.moved top with items := some (items.moved top) } =
      ({ node with items := some items } : SchemaNode).moved top := by
  obtain ⟨path, keywords, properties, additional, _⟩ := node
  rfl

end Moved

end SchemaNode

namespace Schema

variable {limit limit' : Nat} {top : Path}

theorem readKeyword_moved {path : Path} {keywords result : Keywords} {name : String} {value : Json}
    (h : readKeyword (top ++ path) keywords name value = .ok result) :
    readKeyword path keywords name value = .ok result := by
  unfold readKeyword at h ⊢
  split at h <;>
    simpa only [bind_eq_ok_iff, readAs_eq_ok_iff, readRequired_eq_ok_iff] using h

/-! ### Reading at another place

By the recursion of the reading. What is left of the depth limit may only grow. -/

mutual

theorem readNode_moved : ∀ (value : Json) (path : Path) (depth depth' : Nat) (node : SchemaNode),
    limit + depth' ≤ limit' + depth → readNode limit (top ++ path) depth value = .ok node →
      ∃ own, readNode limit' path depth' value = .ok own ∧ node = own.moved top
  | .object members => by
    intro path depth depth' node hlimit h
    rw [readNode] at h ⊢
    split at h
    · cases h
    · rw [if_neg (by omega)]
      exact readMembers_moved members depth depth' (.blank path) node hlimit h
  | .null | .bool _ | .int _ | .float _ | .string _ | .array _ => by
    intro path depth depth' node hlimit h
    simp only [readNode] at h
    split at h <;> cases h

theorem readMembers_moved : ∀ (rest : List (String × Json)) (depth depth' : Nat)
    (old new : SchemaNode), limit + depth' ≤ limit' + depth →
      readMembers limit depth rest (old.moved top) = .ok new →
        ∃ own, readMembers limit' depth' rest old = .ok own ∧ new = own.moved top
  | [] => by
    intro depth depth' old new hlimit h
    rw [readMembers] at h
    exact ⟨old, by rw [readMembers], (Except.ok.inj h).symm⟩
  | (name, value) :: rest => by
    intro depth depth' old new hlimit h
    have hkey (name : String) : (old.moved top).path.key name = top ++ old.path.key name := by
      simp [Path.key]
    -- the reader goes into the values of three keywords
    by_cases hproperties : name = "properties"
    · subst hproperties
      cases value with
      | object schemas =>
          rw [readMembers] at h
          obtain ⟨nodes, hnodes, h⟩ := bind_eq_ok_iff.1 h
          rw [hkey] at hnodes
          obtain ⟨own, hown, rfl⟩ :=
            readProperties_moved schemas _ _ (depth' + 1) _ (by omega) hnodes
          rw [SchemaNode.moved_setProperties] at h
          obtain ⟨final, hfinal, rfl⟩ := readMembers_moved rest _ depth' _ _ hlimit h
          exact ⟨final, by simp [readMembers, bind_eq_ok_iff, hown, hfinal], rfl⟩
      | _ =>
          simp only [readMembers] at h
          cases h
    by_cases hadditional : name = "additionalProperties"
    · subst hadditional
      cases value with
      | bool flag =>
          rw [readMembers, SchemaNode.moved_setAllowed] at h
          obtain ⟨final, hfinal, rfl⟩ := readMembers_moved rest _ depth' _ _ hlimit h
          exact ⟨final, by simp [readMembers, hfinal], rfl⟩
      | object fields =>
          rw [readMembers] at h
          obtain ⟨node, hnode, h⟩ := bind_eq_ok_iff.1 h
          rw [hkey] at hnode
          obtain ⟨own, hown, rfl⟩ :=
            readNode_moved (.object fields) _ _ (depth' + 1) _ (by omega) hnode
          rw [SchemaNode.moved_setValue] at h
          obtain ⟨final, hfinal, rfl⟩ := readMembers_moved rest _ depth' _ _ hlimit h
          exact ⟨final, by simp [readMembers, bind_eq_ok_iff, hown, hfinal], rfl⟩
      | _ =>
          simp only [readMembers] at h
          cases h
    by_cases hitems : name = "items"
    · subst hitems
      cases value with
      | object fields =>
          rw [readMembers] at h
          obtain ⟨node, hnode, h⟩ := bind_eq_ok_iff.1 h
          rw [hkey] at hnode
          obtain ⟨own, hown, rfl⟩ :=
            readNode_moved (.object fields) _ _ (depth' + 1) _ (by omega) hnode
          rw [SchemaNode.moved_setItems] at h
          obtain ⟨final, hfinal, rfl⟩ := readMembers_moved rest _ depth' _ _ hlimit h
          exact ⟨final, by simp [readMembers, bind_eq_ok_iff, hown, hfinal], rfl⟩
      | _ =>
          simp only [readMembers] at h
          cases h
    simp only [readMembers] at h
    obtain ⟨keywords, hkeywords, h⟩ := bind_eq_ok_iff.1 h
    rw [SchemaNode.map_path, SchemaNode.moved_keywords] at hkeywords
    rw [SchemaNode.moved_setKeywords] at h
    obtain ⟨final, hfinal, rfl⟩ := readMembers_moved rest _ depth' _ _ hlimit h
    exact ⟨final, by simp [readMembers, bind_eq_ok_iff, readKeyword_moved hkeywords, hfinal], rfl⟩

theorem readProperties_moved : ∀ (rest : List (String × Json)) (path : Path) (depth depth' : Nat)
    (nodes : List (String × SchemaNode)), limit + depth' ≤ limit' + depth →
      readProperties limit (top ++ path) depth rest = .ok nodes →
        ∃ own, readProperties limit' path depth' rest = .ok own ∧
          nodes = own.map fun pair => (pair.1, pair.2.moved top)
  | [] => by
    intro path depth depth' nodes hlimit h
    rw [readProperties] at h
    exact ⟨[], by rw [readProperties], (Except.ok.inj h).symm⟩
  | (name, schema) :: rest => by
    intro path depth depth' nodes hlimit h
    rw [readProperties] at h
    obtain ⟨node, hnode, h⟩ := bind_eq_ok_iff.1 h
    obtain ⟨others, hothers, h⟩ := bind_eq_ok_iff.1 h
    have hkey : (top ++ path).key name = top ++ path.key name := by simp [Path.key]
    rw [hkey] at hnode
    obtain ⟨own, hown, rfl⟩ := readNode_moved schema _ _ depth' _ hlimit hnode
    obtain ⟨owns, howns, rfl⟩ := readProperties_moved rest _ _ depth' _ hlimit hothers
    refine ⟨(name, own) :: owns, ?_, (Except.ok.inj h).symm⟩
    simp [readProperties, bind_eq_ok_iff, hown, howns]

end

/-- A schema that was read anywhere is read as a document of its own, to the same tree. -/
theorem read_of_readNode {depth : Nat} {value : Json} {node : SchemaNode}
    (h : readNode limit top depth value = .ok node) :
    ∃ own, read limit value = .ok own ∧ node = own.moved top := by
  rw [← List.append_nil top] at h
  exact readNode_moved value .root depth 0 node (by omega) h

/-- A deeper limit changes nothing in what can be read. -/
theorem readNode_mono (hlimit : limit ≤ limit') {path : Path} {depth : Nat} {value : Json}
    {node : SchemaNode} (h : readNode limit path depth value = .ok node) :
    readNode limit' path depth value = .ok node := by
  rw [← List.nil_append path] at h
  have hroom : limit + depth ≤ limit' + depth := by omega
  obtain ⟨own, hown, rfl⟩ := readNode_moved value path depth depth node hroom h
  exact hown.trans (congrArg Except.ok own.map_id.symm)

end Schema

end ResourceTypes
