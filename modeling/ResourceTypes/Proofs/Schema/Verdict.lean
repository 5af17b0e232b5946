import ResourceTypes.Proofs.Registry.Walk
import ResourceTypes.Proofs.Schema.Map

/-!
The verdict on each reference of a tree. What a reference is bound to, or why
it is not, is told by the table and the document alone: the references before
it leave behind cleared ids, and those change nothing.
-/

namespace ResourceTypes

/-- The characters that part a namespace from the names in it. -/
def IsDelimiter (mark : Char) : Prop := mark = '#' ∨ mark = '/'

def EndsInDelimiter (space : String) : Prop := ∃ mark ∈ space.toList.getLast?, IsDelimiter mark

/-- A namespace goes on to a name: it ends in a delimiter, or one follows. -/
def Continues (space : String) (rest : List Char) : Prop :=
  (EndsInDelimiter space ∧ rest ≠ []) ∨
    (¬ EndsInDelimiter space ∧ ∃ mark name, IsDelimiter mark ∧ name ≠ [] ∧ rest = mark :: name)

/-- An id lies in a namespace: it is the namespace and a name in it. -/
def Within (space id : String) : Prop :=
  space ≠ "" ∧ ∃ rest, id.toList = space.toList ++ rest ∧ Continues space rest

theorem continues_iff (space : String) (rest : List Char) :
    (if space.toList.getLast?.any (fun c => c = '#' || c = '/') then !rest.isEmpty
      else rest.head?.any (fun c => c = '#' || c = '/') && 1 < rest.length) = true ↔
      Continues space rest := by
  have hmark : space.toList.getLast?.any (fun c => c = '#' || c = '/') = true ↔
      EndsInDelimiter space := by
    unfold EndsInDelimiter
    cases space.toList.getLast? <;> simp [IsDelimiter]
  unfold Continues
  by_cases hends : EndsInDelimiter space
  · rw [if_pos (hmark.2 hends)]
    simp [hends]
  · rw [if_neg (mt hmark.1 hends)]
    cases rest with
    | nil => simp [hends]
    | cons mark name =>
        simp [hends, IsDelimiter, List.length_pos_iff]
        exact and_comm.trans and_or_left

theorem inNamespace_iff (space id : String) : inNamespace space id = true ↔ Within space id := by
  unfold inNamespace Within
  dsimp only
  by_cases hspace : space = ""
  · simp [hspace]
  · by_cases hpre : space.toList <+: id.toList
    · have hif : (space.toList.isPrefixOf id.toList && !space.isEmpty) = true := by
        simp [hspace, hpre]
      obtain ⟨rest, hrest⟩ := hpre
      rw [if_pos hif, ← hrest, ← String.length_toList, List.drop_left, continues_iff]
      constructor
      · exact fun h => ⟨hspace, rest, rfl, h⟩
      · rintro ⟨-, rest', heq, h⟩
        rwa [List.append_cancel_left heq]
    · have hif : ¬ (space.toList.isPrefixOf id.toList && !space.isEmpty) = true := by
        simp [hpre]
      rw [if_neg hif]
      simp only [Bool.false_eq_true, false_iff, not_and, not_exists]
      exact fun _ rest hrest _ => hpre ⟨rest, hrest.symm⟩

/-- Tables with the same namespaces and the same entry under every id. -/
structure TypeTable.Agrees (table other : TypeTable) : Prop where
  namespaces : table.namespaces = other.namespaces
  find : ∀ id, table.find? id = other.find? id

theorem TypeTable.allows_iff (table : TypeTable) (id : String) :
    table.allows id = true ↔ ∃ space ∈ table.namespaces, Within space id := by
  simp [TypeTable.allows, inNamespace_iff]

namespace Binding

variable {scope : Scope}

section References

variable {id : String}

/-- What a table and a document say about an id, told without a walk. -/
inductive Verdict (scope : Scope) (id : String) : Except BindingFault TypeDescriptor → Prop
  | disallowed (outside : ∀ space ∈ scope.table.namespaces, ¬ Within space id) :
      Verdict scope id (.error (.disallowed id))
  | selfReference {space : String} (known : space ∈ scope.table.namespaces)
      (inside : Within space id) (self : scope.document = some id) :
      Verdict scope id (.error (.selfReference id))
  | unregistered {space : String} (known : space ∈ scope.table.namespaces)
      (inside : Within space id) (other : scope.document ≠ some id)
      (missing : scope.table.find? id = none) : Verdict scope id (.error (.unregistered id))
  | cycle {space : String} (known : space ∈ scope.table.namespaces)
      (inside : Within space id) (other : scope.document ≠ some id)
      {entry : Entry} (registered : scope.table.find? id = some entry)
      {target : String} (leads : scope.table.Reaches id target)
      (back : scope.document = some target ∨ scope.table.OnCycle target) (chain : List String) :
      Verdict scope id (.error (.cycle chain))
  | bound {space : String} (known : space ∈ scope.table.namespaces)
      (inside : Within space id) (other : scope.document ≠ some id)
      {entry : Entry} (registered : scope.table.find? id = some entry)
      (clear : ∀ target, scope.table.Reaches id target →
        scope.document ≠ some target ∧ ¬ scope.table.OnCycle target) :
      Verdict scope id (.ok entry.type)

/-- The verdict on a reference that is looked up before any other. -/
def verdict (scope : Scope) (id : String) : Except BindingFault TypeDescriptor :=
  (lookup scope [] id).1

/-- A look-up decides as the walk without memory does, whatever has been cleared. -/
theorem lookup_fst {cleared : List String}
    (h : scope.table.Settled scope.document.toList cleared) (id : String) :
    (lookup scope cleared id).1 =
      if scope.table.allows id = false then .error (.disallowed id)
      else if scope.document = some id then .error (.selfReference id)
      else
        match scope.table.find? id with
        | none => .error (.unregistered id)
        | some entry =>
          match scope.table.firstCycle scope.document.toList [id] with
          | some chain => .error (.cycle chain)
          | none => .ok entry.type := by
  rw [← TypeTable.findCycle_fst h]
  unfold lookup
  split
  · rfl
  · split
    · rfl
    · cases scope.table.find? id with
      | none => rfl
      | some entry =>
          obtain ⟨found, cleared'⟩ := scope.table.findCycle scope.document.toList cleared [id]
          cases found <;> rfl

/-- What earlier references have cleared does not change the verdict on an id. -/
theorem lookup_eq_verdict {cleared : List String}
    (h : scope.table.Settled scope.document.toList cleared) (id : String) :
    (lookup scope cleared id).1 = verdict scope id := by
  rw [verdict, lookup_fst h, lookup_fst (TypeTable.settled_nil _ _)]

/-- A look-up clears no id wrongly. -/
theorem lookup_settled {cleared : List String}
    (h : scope.table.Settled scope.document.toList cleared) (id : String) :
    scope.table.Settled scope.document.toList (lookup scope cleared id).2 := by
  have hsettled := (TypeTable.findCycle_settled h [id]).1
  unfold lookup
  split
  · exact h
  · split
    · exact h
    · split
      · exact h
      · generalize scope.table.findCycle scope.document.toList cleared [id] = run at *
        obtain ⟨found, cleared'⟩ := run
        cases found <;> exact hsettled

theorem firstCycle_document_eq_none_iff :
    scope.table.firstCycle scope.document.toList [id] = none ↔
      ∀ target, scope.table.Reaches id target →
        scope.document ≠ some target ∧ ¬ scope.table.OnCycle target := by
  rw [TypeTable.firstCycle_eq_none_iff]
  simp [TypeTable.Harmless, Option.mem_toList]

/-- The walk decides what the verdict asks for. -/
theorem verdict_exact (scope : Scope) (id : String) : Verdict scope id (verdict scope id) := by
  rw [verdict, lookup_fst (TypeTable.settled_nil _ _)]
  split
  · next hallowed =>
    refine .disallowed fun space hspace hin => ?_
    have hallows := (scope.table.allows_iff id).2 ⟨space, hspace, hin⟩
    simp [hallowed] at hallows
  · next hallowed =>
    rw [Bool.not_eq_false, TypeTable.allows_iff] at hallowed
    obtain ⟨space, hspace, hin⟩ := hallowed
    split
    · next hself => exact .selfReference hspace hin hself
    · next hself =>
      split
      · next hentry => exact .unregistered hspace hin hself hentry
      · next entry hentry =>
        split
        · next chain hfound =>
          have hback : ∃ target, scope.table.Reaches id target ∧
              (scope.document = some target ∨ scope.table.OnCycle target) := by
            by_contra hclear
            simp only [not_exists, not_and, not_or] at hclear
            simp [firstCycle_document_eq_none_iff.2 hclear] at hfound
          obtain ⟨target, hleads, hback⟩ := hback
          exact .cycle hspace hin hself hentry hleads hback chain
        · next hfound =>
          exact .bound hspace hin hself hentry (firstCycle_document_eq_none_iff.1 hfound)

/-- Tables that agree give the same verdicts. -/
theorem verdict_congr {table other : TypeTable} (h : table.Agrees other)
    (document : Option String) (id : String) :
    verdict ⟨table, document⟩ id = verdict ⟨other, document⟩ id := by
  have hreferences : ∀ id, table.references id = other.references id := by
    intro id
    rw [TypeTable.references, TypeTable.references, h.find]
  have hallows : table.allows id = other.allows id := by
    rw [TypeTable.allows, TypeTable.allows, h.namespaces]
  rw [verdict, verdict, lookup_fst (TypeTable.settled_nil _ _),
    lookup_fst (TypeTable.settled_nil _ _)]
  simp only [hallows, h.find, TypeTable.firstCycle_congr hreferences]

/-- A reference after it was looked up: bound, if it stands for a type. -/
def settle (scope : Scope) : Reference → Reference
  | .unbound id =>
    match verdict scope id with
    | .ok target => .bound id target
    | .error _ => .unbound id
  | .bound id target => .bound id target

/-- An id that a reference can be bound to: allowed, not the document's own,
registered, and leading neither to the document nor to a cycle. -/
structure Bindable (scope : Scope) (id : String) : Prop where
  allowed : ∃ space ∈ scope.table.namespaces, Within space id
  other : scope.document ≠ some id
  registered : ∃ entry, scope.table.find? id = some entry
  clear : ∀ target, scope.table.Reaches id target →
    scope.document ≠ some target ∧ ¬ scope.table.OnCycle target

/-- An id can be bound if the walk that starts at it finds no cycle. -/
theorem bindable_of_findCycle {entry : Entry} (hallowed : scope.table.allows id = true)
    (hother : scope.document ≠ some id) (hfind : scope.table.find? id = some entry)
    (hwalk : (scope.table.findCycle scope.document.toList [] [id]).1 = none) :
    Bindable scope id := by
  rw [TypeTable.findCycle_fst (TypeTable.settled_nil _ _)] at hwalk
  exact ⟨(scope.table.allows_iff id).1 hallowed, hother, ⟨entry, hfind⟩,
    firstCycle_document_eq_none_iff.1 hwalk⟩

/-- A reference is bound exactly if it can be. -/
theorem isBound_settle_iff : (settle scope (.unbound id)).isBound = true ↔ Bindable scope id := by
  have hexact := verdict_exact scope id
  rw [settle]
  generalize verdict scope id = result at hexact
  cases hexact with
  | disallowed outside =>
      refine iff_of_false (by simp [Reference.isBound]) fun h => ?_
      obtain ⟨space, hspace, hin⟩ := h.allowed
      exact outside space hspace hin
  | selfReference known inside self =>
      exact iff_of_false (by simp [Reference.isBound]) fun h => h.other self
  | unregistered known inside other missing =>
      refine iff_of_false (by simp [Reference.isBound]) fun h => ?_
      obtain ⟨entry, hentry⟩ := h.registered
      rw [missing] at hentry
      cases hentry
  | cycle known inside other registered leads back chain =>
      refine iff_of_false (by simp [Reference.isBound]) fun h => ?_
      obtain ⟨hdocument, hcycle⟩ := h.clear _ leads
      exact back.elim hdocument hcycle
  | bound known inside other registered clear =>
      exact iff_of_true rfl ⟨⟨_, known, inside⟩, other, ⟨_, registered⟩, clear⟩

theorem settle_id (reference : Reference) : (settle scope reference).id = reference.id := by
  cases reference with
  | unbound id => cases hverdict : verdict scope id <;> simp [settle, hverdict, Reference.id]
  | bound id target => rfl

/-- A reference that can be bound is bound to the type registered under its id. -/
theorem settle_of_bindable (h : Bindable scope id) {entry : Entry}
    (hentry : scope.table.find? id = some entry) :
    settle scope (.unbound id) = .bound id entry.type := by
  have hbound := isBound_settle_iff.2 h
  have hexact := verdict_exact scope id
  rw [settle] at hbound ⊢
  generalize verdict scope id = result at hexact hbound
  cases hexact with
  | bound known inside other registered clear =>
      rw [hentry] at registered
      cases registered
      rfl
  | _ => cases hbound

theorem settle_congr {scope other : Scope} (h : Bindable scope id) (hother : Bindable other id)
    (hfind : scope.table.find? id = other.table.find? id) :
    settle scope (.unbound id) = settle other (.unbound id) := by
  obtain ⟨entry, hentry⟩ := h.registered
  rw [settle_of_bindable h hentry, settle_of_bindable hother (hfind ▸ hentry)]

/-- What is wrong with a reference, at the place of its schema. -/
def faultOf (scope : Scope) : Path × Reference → Option (Located BindingFault)
  | (path, .unbound id) =>
    match verdict scope id with
    | .ok _ => none
    | .error fault => some ⟨path, fault⟩
  | (_, .bound _ _) => none

theorem faultOf_eq_none_iff {pair : Path × Reference} :
    faultOf scope pair = none ↔ (settle scope pair.2).isBound = true := by
  rcases pair with ⟨path, ⟨id⟩ | ⟨id, target⟩⟩
  · cases hverdict : verdict scope id <;> simp [faultOf, settle, hverdict, Reference.isBound]
  · simp [faultOf, settle, Reference.isBound]

end References

/-- A step of the pass gives its result and its faults, whatever has been
cleared before it, and clears no id wrongly. -/
def Gives {α : Type} (scope : Scope) (step : Progress → α × Progress) (result : α)
    (faults : List (Located BindingFault)) : Prop :=
  ∀ cleared, scope.table.Settled scope.document.toList cleared →
    ∃ cleared', scope.table.Settled scope.document.toList cleared' ∧
      ∀ before, step ⟨cleared, before⟩ = (result, ⟨cleared', before ++ faults⟩)

theorem bindOwn_gives (path : Path) (keywords : Keywords) :
    Gives scope (bindOwn scope path keywords)
      { keywords with reference := keywords.reference.map (settle scope) }
      (keywords.reference.toList.filterMap fun reference => faultOf scope (path, reference)) := by
  intro cleared h
  obtain ⟨type, reference, required, readOnly, description, polymorphism, validation, unknown⟩ :=
    keywords
  rcases reference with _ | ⟨id⟩ | ⟨id, target⟩
  · exact ⟨cleared, h, by simp [bindOwn]⟩
  · have hverdict := lookup_eq_verdict h id
    refine ⟨(lookup scope cleared id).2, lookup_settled h id, fun before => ?_⟩
    simp only [bindOwn]
    generalize lookup scope cleared id = run at *
    obtain ⟨result, cleared'⟩ := run
    simp only at hverdict
    cases result <;> simp [settle, faultOf, ← hverdict]
  · exact ⟨cleared, h, by simp [bindOwn, settle, faultOf]⟩

mutual

theorem bindNode_gives : ∀ node : SchemaNode,
    Gives scope (bindNode scope node) (node.mapReferences (settle scope))
      (node.references.filterMap (faultOf scope))
  | ⟨path, keywords, properties, additional, items⟩ => by
    intro cleared h
    obtain ⟨cleared₁, h₁, own⟩ := bindOwn_gives path keywords cleared h
    obtain ⟨cleared₂, h₂, below⟩ := bindProperties_gives properties cleared₁ h₁
    obtain ⟨cleared₃, h₃, value⟩ := bindAdditional_gives additional cleared₂ h₂
    obtain ⟨cleared₄, h₄, item⟩ := bindItems_gives items cleared₃ h₃
    refine ⟨cleared₄, h₄, fun before => ?_⟩
    simp [bindNode, own, below, value, item, SchemaNode.map, SchemaNode.references,
      List.filterMap_map]

theorem bindProperties_gives : ∀ properties : Option (List (String × SchemaNode)),
    Gives scope (bindProperties scope properties)
      (SchemaNode.mapProperties id (settle scope) properties)
      ((SchemaNode.propertyReferences properties).filterMap (faultOf scope))
  | some nodes => by
    intro cleared h
    obtain ⟨cleared', hsettled, hlist⟩ := bindList_gives nodes cleared h
    refine ⟨cleared', hsettled, fun before => ?_⟩
    simp [bindProperties, hlist, SchemaNode.mapProperties, SchemaNode.propertyReferences]
  | none => fun cleared h => ⟨cleared, h, by
    simp [bindProperties, SchemaNode.mapProperties, SchemaNode.propertyReferences]⟩

theorem bindList_gives : ∀ nodes : List (String × SchemaNode),
    Gives scope (bindList scope nodes) (SchemaNode.mapList id (settle scope) nodes)
      ((SchemaNode.listReferences nodes).filterMap (faultOf scope))
  | [] => fun cleared h => ⟨cleared, h, by
    simp [bindList, SchemaNode.mapList, SchemaNode.listReferences]⟩
  | (name, node) :: rest => by
    intro cleared h
    obtain ⟨cleared₁, h₁, first⟩ := bindNode_gives node cleared h
    obtain ⟨cleared₂, h₂, others⟩ := bindList_gives rest cleared₁ h₁
    refine ⟨cleared₂, h₂, fun before => ?_⟩
    simp [bindList, first, others, SchemaNode.mapList, SchemaNode.listReferences]

theorem bindAdditional_gives : ∀ additional : Option Additional,
    Gives scope (bindAdditional scope additional)
      (SchemaNode.mapAdditional id (settle scope) additional)
      ((SchemaNode.additionalReferences additional).filterMap (faultOf scope))
  | some (.typed value) => by
    intro cleared h
    obtain ⟨cleared', hsettled, hvalue⟩ := bindNode_gives value cleared h
    refine ⟨cleared', hsettled, fun before => ?_⟩
    simp [bindAdditional, hvalue, SchemaNode.mapAdditional, SchemaNode.additionalReferences]
  | some (.allowed flag) => fun cleared h => ⟨cleared, h, by
    simp [bindAdditional, SchemaNode.mapAdditional, SchemaNode.additionalReferences]⟩
  | none => fun cleared h => ⟨cleared, h, by
    simp [bindAdditional, SchemaNode.mapAdditional, SchemaNode.additionalReferences]⟩

theorem bindItems_gives : ∀ items : Option SchemaNode,
    Gives scope (bindItems scope items) (SchemaNode.mapItems id (settle scope) items)
      ((SchemaNode.itemReferences items).filterMap (faultOf scope))
  | some items => by
    intro cleared h
    obtain ⟨cleared', hsettled, hitems⟩ := bindNode_gives items cleared h
    refine ⟨cleared', hsettled, fun before => ?_⟩
    simp [bindItems, hitems, SchemaNode.mapItems, SchemaNode.itemReferences]
  | none => fun cleared h => ⟨cleared, h, by
    simp [bindItems, SchemaNode.mapItems, SchemaNode.itemReferences]⟩

end

/-- Binding a tree settles each reference by its verdict, and lists the faults in order. -/
theorem bind_eq (scope : Scope) (root : SchemaNode) :
    bind scope root =
      (root.mapReferences (settle scope), root.references.filterMap (faultOf scope)) := by
  obtain ⟨cleared, -, hbind⟩ := @bindNode_gives scope root []
    (TypeTable.settled_nil _ _)
  simp [bind, hbind]

/-- Each reference of a tree is bound or fails as a resolver that has cleared
nothing decides for it alone, and that decision is its verdict. -/
theorem bind_verdicts (scope : Scope) (root : SchemaNode) :
    (bind scope root).1.references =
        root.references.map (fun pair => (pair.1, settle scope pair.2)) ∧
      (bind scope root).2 = root.references.filterMap (faultOf scope) ∧
      ∀ id, Verdict scope id (lookup scope [] id).1 := by
  rw [bind_eq]
  exact ⟨SchemaNode.references_mapReferences (settle scope) root, rfl, verdict_exact scope⟩

end Binding

end ResourceTypes
