import ResourceTypes.Proofs.Schema.Tree

/-!
Schema trees that differ from another in their paths and references alone: the
tree after its references are bound, and the tree read at another place.
-/

namespace ResourceTypes

/-- A cause below a place. -/
def Located.moved {α : Type} (top : Path) (located : Located α) : Located α :=
  { located with path := top ++ located.path }

theorem Located.moved_nil {α : Type} : moved (α := α) [] = id := rfl

@[simp] def Additional.map (g : SchemaNode → SchemaNode) : Additional → Additional
  | .allowed flag => .allowed flag
  | .typed value => .typed (g value)

namespace SchemaNode

mutual

/-- The tree with every path and every reference replaced, and all else as it was. -/
def map (p : Path → Path) (f : Reference → Reference) : SchemaNode → SchemaNode
  | ⟨path, keywords, properties, additional, items⟩ =>
    ⟨p path, { keywords with reference := keywords.reference.map f },
      mapProperties p f properties, mapAdditional p f additional, mapItems p f items⟩

def mapProperties (p : Path → Path) (f : Reference → Reference) :
    Option (List (String × SchemaNode)) → Option (List (String × SchemaNode))
  | some properties => some (mapList p f properties)
  | none => none

def mapList (p : Path → Path) (f : Reference → Reference) :
    List (String × SchemaNode) → List (String × SchemaNode)
  | [] => []
  | (name, node) :: rest => (name, node.map p f) :: mapList p f rest

def mapAdditional (p : Path → Path) (f : Reference → Reference) :
    Option Additional → Option Additional
  | some (.typed value) => some (.typed (value.map p f))
  | some (.allowed flag) => some (.allowed flag)
  | none => none

def mapItems (p : Path → Path) (f : Reference → Reference) : Option SchemaNode → Option SchemaNode
  | some items => some (items.map p f)
  | none => none

end

/-- The tree with every reference replaced. -/
abbrev mapReferences (f : Reference → Reference) : SchemaNode → SchemaNode := map id f

/-- The tree with a place before every path. -/
abbrev moved (top : Path) : SchemaNode → SchemaNode := map (top ++ ·) id

section Map

variable (p : Path → Path) (f : Reference → Reference) (node : SchemaNode)

theorem mapList_eq (nodes : List (String × SchemaNode)) :
    mapList p f nodes = nodes.map fun pair => (pair.1, pair.2.map p f) := by
  induction nodes with
  | nil => rfl
  | cons pair rest ih => simp [mapList, ih]

@[simp] theorem map_path : (node.map p f).path = p node.path := by
  obtain ⟨path, keywords, properties, additional, items⟩ := node
  rfl

@[simp] theorem map_keywords :
    (node.map p f).keywords =
      { node.keywords with reference := node.keywords.reference.map f } := by
  obtain ⟨path, keywords, properties, additional, items⟩ := node
  rfl

@[simp] theorem map_properties :
    (node.map p f).properties =
      node.properties.map (·.map fun pair => (pair.1, pair.2.map p f)) := by
  obtain ⟨path, keywords, properties, additional, items⟩ := node
  cases properties <;> simp [map, mapProperties, mapList_eq]

@[simp] theorem map_additional :
    (node.map p f).additional = node.additional.map (Additional.map (map p f)) := by
  obtain ⟨path, keywords, properties, additional, items⟩ := node
  rcases additional with _ | _ | value <;> rfl

@[simp] theorem map_mapValue? : (node.map p f).mapValue? = node.mapValue?.map (map p f) := by
  rw [mapValue?, map_additional, mapValue?]
  rcases node.additional with _ | _ | value <;> rfl

@[simp] theorem map_items : (node.map p f).items = node.items.map (map p f) := by
  obtain ⟨path, keywords, properties, additional, items⟩ := node
  cases items <;> rfl

@[simp] theorem map_children : (node.map p f).children = node.children.map (map p f) := by
  cases hproperties : node.properties <;>
    simp [children, hproperties, Option.toList_map, Function.comp_def]

@[simp] theorem present_map {α β : Type} (name : String) (g : α → β) (value : Option α) :
    present name (value.map g) = present name value := by
  cases value <;> rfl

@[simp] theorem map_nonReferenceKeywords :
    (node.map p f).nonReferenceKeywords = node.nonReferenceKeywords := by
  simp [nonReferenceKeywords]

@[simp] theorem map_effectiveKind (declared : SpelledKind) :
    (node.map p f).effectiveKind declared = node.effectiveKind declared := by
  simp [effectiveKind]

theorem references_map :
    (node.map p f).references = node.references.map fun pair => (p pair.1, f pair.2) := by
  induction node using induct with
  | step node ih =>
      rw [references_eq, references_eq, List.map_append, List.map_flatMap]
      congr 1
      · cases hreference : node.keywords.reference <;> simp [hreference]
      · rw [map_children, List.flatMap_map]
        exact List.flatMap_congr ih

theorem references_mapReferences :
    (node.mapReferences f).references = node.references.map fun pair => (pair.1, f pair.2) :=
  node.references_map id f

/-- What replaces the children alike replaces the parts of the schema alike. -/
theorem parts_congr {node : SchemaNode} {g h : SchemaNode → SchemaNode}
    (hchildren : ∀ child ∈ node.children, g child = h child) :
    node.properties.map (·.map fun pair => (pair.1, g pair.2)) =
        node.properties.map (·.map fun pair => (pair.1, h pair.2)) ∧
      node.additional.map (Additional.map g) = node.additional.map (Additional.map h) ∧
      node.items.map g = node.items.map h := by
  refine ⟨Option.map_congr fun nodes hnodes => List.map_congr_left fun pair hpair => ?_,
    Option.map_congr fun additional hadditional => ?_, Option.map_congr fun item hitem => ?_⟩
  · rw [hchildren pair.2 (mem_children.2 (.inl ⟨nodes, hnodes, pair.1, hpair⟩))]
  · cases additional with
    | allowed flag => rfl
    | typed value =>
        exact congrArg Additional.typed (hchildren value (mem_children.2 (.inr (.inl hadditional))))
  · exact hchildren item (mem_children.2 (.inr (.inr hitem)))

theorem eq_of_parts {node other : SchemaNode} (hpath : node.path = other.path)
    (hkeywords : node.keywords = other.keywords) (hproperties : node.properties = other.properties)
    (hadditional : node.additional = other.additional) (hitems : node.items = other.items) :
    node = other := by
  obtain ⟨path, keywords, properties, additional, items⟩ := node
  obtain ⟨_, _, _, _, _⟩ := other
  cases hpath
  cases hkeywords
  cases hproperties
  cases hadditional
  cases hitems
  rfl

theorem map_congr {p : Path → Path} {f g : Reference → Reference} {node : SchemaNode}
    (h : ∀ pair ∈ node.references, f pair.2 = g pair.2) : node.map p f = node.map p g := by
  induction node using induct with
  | step node ih =>
      have hown : node.keywords.reference.map f = node.keywords.reference.map g :=
        Option.map_congr fun reference hreference =>
          h (node.path, reference) (mem_references.2 ⟨node, .refl, rfl, hreference⟩)
      have hchildren : ∀ child ∈ node.children, child.map p f = child.map p g := by
        intro child hchild
        refine ih child hchild fun pair hpair => h pair ?_
        rw [references_eq]
        exact List.mem_append_right _ (List.mem_flatMap.2 ⟨child, hchild, hpair⟩)
      obtain ⟨hproperties, hadditional, hitems⟩ := parts_congr hchildren
      exact eq_of_parts (by simp) (by simp [hown]) (by simp [hproperties])
        (by simp [hadditional]) (by simp [hitems])

/-- Nothing changes where every path and every reference stays. -/
theorem map_id : node.map id id = node := by
  induction node using induct with
  | step node ih =>
      have hvalue : Additional.map id = id := funext fun additional => by cases additional <;> rfl
      obtain ⟨hproperties, hadditional, hitems⟩ := @parts_congr node (map id id) id ih
      exact eq_of_parts (by simp) (by simp) (by simp [hproperties])
        (by simp [hadditional, hvalue]) (by simp [hitems])

end Map

end SchemaNode

namespace Grammar

section Moved

variable (top path : Path)

theorem checkEntries_moved (kind : Kind) (position : Nat) (entries : List Json) :
    checkEntries (top ++ path) kind position entries =
      (checkEntries path kind position entries).map (Located.moved top) := by
  induction entries generalizing position with
  | nil => rfl
  | cons entry rest ih =>
      rw [checkEntries, checkEntries, ih, List.map_append]
      split <;> simp [Located.moved, Path.index]

theorem checkRequired_moved (declared : List String) (position : Nat) (names : List String) :
    checkRequired (top ++ path) declared position names =
      (checkRequired path declared position names).map (Located.moved top) := by
  induction names generalizing position with
  | nil => rfl
  | cons name rest ih =>
      rw [checkRequired, checkRequired, ih, List.map_append]
      split <;> simp [Located.moved, Path.index]

theorem misplacedIf_moved (present : Bool) (keyword : String) (kind : Kind) :
    misplacedIf present (top ++ path) keyword kind =
      (misplacedIf present path keyword kind).map (Located.moved top) := by
  cases present <;> simp [misplacedIf, Located.moved, Path.key]

theorem checkAttribute_moved (kind : Kind) (name : String) (value : Json) :
    checkAttribute (top ++ path) kind name value =
      (checkAttribute path kind name value).map (Located.moved top) := by
  have hkey (name : String) : (top ++ path).key name = top ++ path.key name := by simp [Path.key]
  unfold checkAttribute
  split
  · simp [Located.moved, hkey]
  · split
    · cases value with
      | array entries => simp only [hkey, checkEntries_moved]
      | _ => simp [Located.moved, hkey]
    · split <;> simp [Located.moved, hkey]

end Moved

section Map

variable (top : Path) (f : Reference → Reference)

theorem checkObject_map (node : SchemaNode) :
    checkObject (node.map (top ++ ·) f) = (checkObject node).map (Located.moved top) := by
  have hnames : Members.names ((node.map (top ++ ·) f).properties.getD []) =
      Members.names (node.properties.getD []) := by
    cases hproperties : node.properties <;> simp [hproperties, Members.names, Function.comp_def]
  have hkey (name : String) : (top ++ node.path).key name = top ++ node.path.key name := by
    simp [Path.key]
  unfold checkObject
  rw [hnames, SchemaNode.map_path, hkey, hkey, checkRequired_moved, SchemaNode.map_keywords,
    List.map_append, List.map_append]
  congr 1
  congr 1
  · cases hproperties : node.properties <;> cases hvalue : node.mapValue? <;>
      simp [hproperties, hvalue, Located.moved]
  · rcases hadditional : node.additional with _ | (_ | _) | value <;>
      simp [hadditional, Located.moved]

theorem checkKind_map (node : SchemaNode) (declared : SpelledKind) :
    checkKind (node.map (top ++ ·) f) declared =
      (checkKind node declared).map (Located.moved top) := by
  have harray : checkArray (node.map (top ++ ·) f) =
      (checkArray node).map (Located.moved top) := by
    cases hitems : node.items <;> simp [checkArray, hitems, Located.moved]
  cases declared <;>
    simp [checkKind, misplacedIf_moved, checkAttribute_moved, checkObject_map, harray,
      List.map_flatMap]

/-- The violations of a schema move with it, and do not tell what a reference stands for. -/
theorem checkOwn_map (position : Position) (node : SchemaNode) :
    checkOwn position (node.map (top ++ ·) f) =
      (checkOwn position node).map (Located.moved top) := by
  have hreference : checkReference (node.map (top ++ ·) f) =
      (checkReference node).map (Located.moved top) := by
    unfold checkReference
    rw [SchemaNode.map_nonReferenceKeywords, SchemaNode.map_path]
    split <;> simp [Located.moved]
  have htype : checkType position (node.map (top ++ ·) f) =
      (checkType position node).map (Located.moved top) := by
    simp only [checkType, SchemaNode.map_keywords, SchemaNode.map_path]
    split
    · simp [Located.moved]
    · simp [Located.moved]
    · exact checkKind_map top f node _
  rw [checkOwn, checkOwn, hreference, htype, SchemaNode.map_keywords, SchemaNode.map_path]
  cases node.keywords.reference <;> simp [Located.moved, Function.comp_def]

/-- The violations of a tree move with it, and do not tell what its references stand for. -/
theorem check_map (position : Position) (root : SchemaNode) :
    check position (root.map (top ++ ·) f) = (check position root).map (Located.moved top) := by
  induction root using SchemaNode.induct generalizing position with
  | step root ih =>
      rw [check_eq, check_eq, checkOwn_map]
      simp only [List.map_append, List.map_flatMap]
      congr 1
      · congr 1
        · congr 1
          cases hproperties : root.properties with
          | none => simp [hproperties]
          | some nodes =>
              simp only [SchemaNode.map_properties, hproperties, Option.map_some,
                Option.getD_some, List.flatMap_map]
              refine List.flatMap_congr fun pair hpair => ih pair.2 ?_ .member
              exact SchemaNode.mem_children.2 (.inl ⟨nodes, hproperties, pair.1, hpair⟩)
        · rw [SchemaNode.map_mapValue?, Option.toList_map, List.flatMap_map]
          refine List.flatMap_congr fun value hvalue => ih value ?_ .member
          exact List.mem_append_left _ (List.mem_append_right _ hvalue)
      · rw [SchemaNode.map_items, Option.toList_map, List.flatMap_map]
        exact List.flatMap_congr fun item hitem => ih item (List.mem_append_right _ hitem) .item

theorem check_mapReferences (position : Position) (root : SchemaNode) :
    check position (root.mapReferences f) = check position root :=
  (check_map [] f position root).trans (by rw [Located.moved_nil, List.map_id])

end Map

end Grammar

end ResourceTypes
