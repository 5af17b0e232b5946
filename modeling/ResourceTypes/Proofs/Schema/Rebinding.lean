import ResourceTypes.Proofs.Schema.Alike
import ResourceTypes.Proofs.Schema.Verdict

/-!
What binding does to a tree. It changes nothing but references, each of which
stays as it was or is bound to the type of its id; it lists one fault for each
that stays unbound; and to bind the result again changes and lists no more.
-/

namespace ResourceTypes

namespace SchemaNode

/-- Two schemas of one name. -/
inductive Named (R : SchemaNode → SchemaNode → Prop) :
    String × SchemaNode → String × SchemaNode → Prop
  | named (name : String) {a b : SchemaNode} (schemas : R a b) : Named R (name, a) (name, b)

/-- Trees that differ in their references alone, and there by a relation: all
else is the same in every schema, at the same place. -/
inductive Rebound (R : Reference → Reference → Prop) : SchemaNode → SchemaNode → Prop
  | node {path : Path} {keywords : Keywords} {reference : Option Reference}
      {properties properties' : Option (List (String × SchemaNode))}
      {additional additional' : Option Additional} {items items' : Option SchemaNode}
      (own : Option.Rel R keywords.reference reference)
      (members : Option.Rel (List.Forall₂ (Named (Rebound R))) properties properties')
      (value : Option.Rel (Additional.Matches (Rebound R)) additional additional')
      (item : Option.Rel (Rebound R) items items') :
      Rebound R ⟨path, keywords, properties, additional, items⟩
        ⟨path, { keywords with reference }, properties', additional', items'⟩

/-- The references of a tree that are not bound, each with its place, in their order. -/
def unboundReferences (node : SchemaNode) : List (Path × Reference) :=
  node.references.filter fun pair => !pair.2.isBound

theorem rebound_mapReferences {R : Reference → Reference → Prop} {f : Reference → Reference}
    (hf : ∀ reference, R reference (f reference)) (node : SchemaNode) :
    node.Rebound R (node.mapReferences f) := by
  induction node using induct with
  | step node ih =>
      obtain ⟨path, keywords, properties, additional, items⟩ := node
      refine .node ?_ ?_ ?_ ?_
      · cases keywords.reference with
        | none => exact .none
        | some reference => exact .some (hf reference)
      · cases properties with
        | none => exact .none
        | some nodes =>
            refine .some ?_
            rw [mapList_eq, List.forall₂_map_right_iff, List.forall₂_same]
            intro pair hpair
            exact .named pair.1 (ih pair.2 (mem_children.2 (.inl ⟨nodes, rfl, pair.1, hpair⟩)))
      · rcases additional with _ | flag | value
        · exact .none
        · exact .some (.allowed flag)
        · exact .some (.typed (ih value (mem_children.2 (.inr (.inl rfl)))))
      · cases items with
        | none => exact .none
        | some items => exact .some (ih items (mem_children.2 (.inr (.inr rfl))))

/-- A tree stays as it is if every reference in it does. -/
theorem mapReferences_eq_self {f : Reference → Reference} {node : SchemaNode}
    (h : ∀ pair ∈ node.references, f pair.2 = pair.2) : node.mapReferences f = node :=
  (map_congr h).trans node.map_id

end SchemaNode

namespace Binding

variable {scope : Scope}

/-- A reference before and after a tree was bound: the same, or bound to the type
that the table has under its id. -/
inductive Binds (table : TypeTable) : Reference → Reference → Prop
  | kept (reference : Reference) : Binds table reference reference
  | bound {id : String} {entry : Entry} (found : table.find? id = some entry) :
      Binds table (.unbound id) (.bound id entry.type)

/-- A fault says of an unbound reference, at its place, why it is not bound. -/
inductive Tells (scope : Scope) : Located BindingFault → Path × Reference → Prop
  | unbound (path : Path) {id : String} {fault : BindingFault}
      (verdict : Verdict scope id (.error fault)) : Tells scope ⟨path, fault⟩ (path, .unbound id)

theorem binds_settle (reference : Reference) :
    Binds scope.table reference (settle scope reference) := by
  cases reference with
  | bound id target => exact .kept _
  | unbound id =>
      have hexact := verdict_exact scope id
      rw [settle]
      generalize verdict scope id = result at hexact
      cases hexact with
      | bound known inside other registered clear => exact .bound registered
      | _ => exact .kept _

@[simp] theorem settle_settle (reference : Reference) :
    settle scope (settle scope reference) = settle scope reference := by
  cases reference with
  | bound id target => rfl
  | unbound id => cases hverdict : verdict scope id <;> simp [settle, hverdict]

/-- A reference that stays unbound fails again for the same reason. -/
theorem faultOf_settle (pair : Path × Reference) :
    faultOf scope (pair.1, settle scope pair.2) = faultOf scope pair := by
  rcases pair with ⟨path, ⟨id⟩ | ⟨id, target⟩⟩
  · cases hverdict : verdict scope id <;> simp [settle, faultOf, hverdict]
  · rfl

/-- The faults of references in a row are one for each that stays unbound. -/
theorem forall₂_tells (pairs : List (Path × Reference)) :
    List.Forall₂ (Tells scope) (pairs.filterMap (faultOf scope))
      ((pairs.map fun pair => (pair.1, settle scope pair.2)).filter fun pair =>
        !pair.2.isBound) := by
  induction pairs with
  | nil => exact .nil
  | cons pair rest ih =>
      rw [List.map_cons]
      rcases pair with ⟨path, ⟨id⟩ | ⟨id, target⟩⟩
      · have hexact := verdict_exact scope id
        cases hverdict : verdict scope id with
        | ok target =>
            rw [List.filterMap_cons_none (by simp [faultOf, hverdict]),
              List.filter_cons_of_neg (by simp [settle, hverdict, Reference.isBound])]
            exact ih
        | error fault =>
            have hsettle : settle scope (.unbound id) = .unbound id := by simp [settle, hverdict]
            have hfault : faultOf scope (path, .unbound id) = some ⟨path, fault⟩ := by
              simp [faultOf, hverdict]
            rw [List.filterMap_cons_some hfault, hsettle,
              List.filter_cons_of_pos (by simp [Reference.isBound])]
            exact .cons (.unbound path (hverdict ▸ hexact)) ih
      · rw [List.filterMap_cons_none rfl,
          List.filter_cons_of_neg (by simp [settle, Reference.isBound])]
        exact ih

/-- Binding a tree changes its references alone, and each of them stays as it was
or is bound to the type of its id. There is one fault for each reference that
stays unbound, in their order, and binding the result again gives it back with
the same faults. -/
theorem bind_references_alone (scope : Scope) (root : SchemaNode) :
    root.Rebound (Binds scope.table) (bind scope root).1 ∧
      List.Forall₂ (Tells scope) (bind scope root).2 (bind scope root).1.unboundReferences ∧
      bind scope (bind scope root).1 = bind scope root := by
  rw [bind_eq]
  have hreferences := SchemaNode.references_mapReferences (settle scope) root
  refine ⟨SchemaNode.rebound_mapReferences binds_settle root, ?_, ?_⟩
  · rw [SchemaNode.unboundReferences, hreferences]
    exact forall₂_tells root.references
  · rw [bind_eq, Prod.mk.injEq]
    constructor
    · refine SchemaNode.mapReferences_eq_self fun pair hpair => ?_
      rw [hreferences] at hpair
      obtain ⟨before, -, rfl⟩ := List.mem_map.1 hpair
      exact settle_settle before.2
    · rw [hreferences, List.filterMap_map]
      exact List.filterMap_congr fun pair _ => faultOf_settle pair

end Binding

end ResourceTypes
