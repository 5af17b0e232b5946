import ResourceTypes.Registry
import ResourceTypes.Report
import ResourceTypes.Schema.Node

/-!
Binding the references of a schema tree to the types of a table. A reference
stays unbound if it is not allowed, not registered, or lies on or leads to a
cycle; walks that found no cycle are remembered for the rest of the tree.
-/

namespace ResourceTypes

inductive BindingFault where
  | disallowed (id : String)
  | selfReference (id : String)
  | unregistered (id : String)
  | cycle (chain : List String)
deriving DecidableEq, Repr

namespace BindingFault

def rule : BindingFault → Rule
  | .disallowed _ => .disallowedReference
  | .selfReference _ | .cycle _ => .cyclicReference
  | .unregistered _ => .unknownReference

def message : BindingFault → String
  | .disallowed id => "'" ++ id ++ "' is outside the allowed reference namespaces"
  | .selfReference id => "schema references itself: " ++ id ++ " -> " ++ id
  | .unregistered id => "'" ++ id ++ "' is not a registered type"
  | .cycle chain => "reference cycle: " ++ " -> ".intercalate chain

end BindingFault

instance : Cause BindingFault := ⟨BindingFault.rule, BindingFault.message⟩

namespace TypeTable

/-- How many entries have an id that is not on the walk. -/
def unwalked (table : TypeTable) (walk : List String) : Nat :=
  table.entries.countP fun entry => !walk.contains entry.id

theorem unwalked_append_le (table : TypeTable) (walk : List String) (id : String) :
    table.unwalked (walk ++ [id]) ≤ table.unwalked walk :=
  List.countP_mono_left fun entry _ h => by
    simp only [Bool.not_eq_true', List.contains_eq_mem, decide_eq_false_iff_not] at h ⊢
    exact fun hw => h (List.mem_append_left _ hw)

theorem unwalked_append_lt {table : TypeTable} {walk : List String} {entry : Entry}
    (he : entry ∈ table.entries) (hw : walk.contains entry.id = false) :
    table.unwalked (walk ++ [entry.id]) < table.unwalked walk :=
  countP_lt_countP he (by simpa using hw) (by simp) fun other h => by
    simp only [Bool.not_eq_true', List.contains_eq_mem, decide_eq_false_iff_not] at h ⊢
    exact fun hm => h (List.mem_append_left _ hm)

/-- A step of the walk uses up an entry, or there is nothing to walk on to. -/
theorem step_decreases (table : TypeTable) (walk : List String) (id : String)
    (rest : List String) (hw : walk.contains id = false) :
    Prod.Lex (· < ·) (· < ·) (table.unwalked (walk ++ [id]), (table.references id).length)
      (table.unwalked walk, (id :: rest).length) := by
  unfold references
  split
  · next entry hfind =>
    have hmem := List.mem_of_find?_eq_some hfind
    have hid : entry.id = id := by simpa using List.find?_some hfind
    subst hid
    exact Prod.Lex.left _ _ (unwalked_append_lt hmem hw)
  · rcases Nat.lt_or_eq_of_le (table.unwalked_append_le walk id) with h | h
    · exact Prod.Lex.left _ _ h
    · rw [h]
      exact Prod.Lex.right _ (Nat.succ_pos _)

/--
Walks on from some ids, depth first, until one of them is on the walk already.
The result is the part of the walk between the two, and the ids known to lead
to no cycle.
-/
def findCycle (table : TypeTable) (walk cleared : List String) :
    List String → Option (List String) × List String
  | [] => (none, cleared)
  | id :: rest =>
    if walk.contains id then (some (walk.dropWhile (· != id) ++ [id]), cleared)
    -- an id that was cleared on another walk leads back to none of this one
    else if cleared.contains id then table.findCycle walk cleared rest
    else
      match table.findCycle (walk ++ [id]) cleared (table.references id) with
      | (some chain, cleared) => (some chain, cleared)
      | (none, cleared) => table.findCycle walk (id :: cleared) rest
termination_by ids => (table.unwalked walk, ids.length)
decreasing_by
  · exact Prod.Lex.right _ (Nat.lt_succ_self _)
  · rename_i hw _
    exact table.step_decreases walk id rest (by simpa using hw)
  · exact Prod.Lex.right _ (Nat.lt_succ_self _)

end TypeTable

namespace Binding

/-- Where references are looked up, and the id of the document around them. -/
structure Scope where
  table : TypeTable
  document : Option String

/-- What the references so far have left behind: ids without a cycle, and faults. -/
structure Progress where
  cleared : List String
  faults : List (Located BindingFault)

/-- The type that an id stands for, or what is wrong with it. -/
def lookup (scope : Scope) (cleared : List String) (id : String) :
    Except BindingFault TypeDescriptor × List String :=
  if scope.table.allows id = false then (.error (.disallowed id), cleared)
  else if scope.document = some id then (.error (.selfReference id), cleared)
  else
    match scope.table.find? id with
    | none => (.error (.unregistered id), cleared)
    | some entry =>
      -- the walk starts at the document, so that a way back to it is found as a cycle
      match scope.table.findCycle scope.document.toList cleared [id] with
      | (some chain, cleared) => (.error (.cycle chain), cleared)
      | (none, cleared) => (.ok entry.type, cleared)

/-- Binds the reference of a schema, if it has one that is not bound yet. -/
def bindOwn (scope : Scope) (path : Path) (keywords : Keywords) (progress : Progress) :
    Keywords × Progress :=
  match keywords.reference with
  | some (.unbound id) =>
    match lookup scope progress.cleared id with
    | (.ok target, cleared) =>
      ({ keywords with reference := some (.bound id target) }, { progress with cleared })
    | (.error fault, cleared) => (keywords, ⟨cleared, progress.faults ++ [⟨path, fault⟩]⟩)
  | _ => (keywords, progress)

mutual

/-- Binds the references of a tree, a schema's own before those inside it. -/
def bindNode (scope : Scope) : SchemaNode → Progress → SchemaNode × Progress
  | ⟨path, keywords, properties, additional, items⟩, progress =>
    let (keywords, progress) := bindOwn scope path keywords progress
    let (properties, progress) := bindProperties scope properties progress
    let (additional, progress) := bindAdditional scope additional progress
    let (items, progress) := bindItems scope items progress
    (⟨path, keywords, properties, additional, items⟩, progress)

def bindProperties (scope : Scope) :
    Option (List (String × SchemaNode)) → Progress →
      Option (List (String × SchemaNode)) × Progress
  | some properties, progress =>
    let (properties, progress) := bindList scope properties progress
    (some properties, progress)
  | none, progress => (none, progress)

def bindList (scope : Scope) :
    List (String × SchemaNode) → Progress → List (String × SchemaNode) × Progress
  | [], progress => ([], progress)
  | (name, node) :: rest, progress =>
    let (node, progress) := bindNode scope node progress
    let (rest, progress) := bindList scope rest progress
    ((name, node) :: rest, progress)

def bindAdditional (scope : Scope) : Option Additional → Progress → Option Additional × Progress
  | some (.typed value), progress =>
    let (value, progress) := bindNode scope value progress
    (some (.typed value), progress)
  | some (.allowed flag), progress => (some (.allowed flag), progress)
  | none, progress => (none, progress)

def bindItems (scope : Scope) : Option SchemaNode → Progress → Option SchemaNode × Progress
  | some items, progress =>
    let (items, progress) := bindNode scope items progress
    (some items, progress)
  | none, progress => (none, progress)

end

/-- The tree with its references bound as far as possible, and the faults of the others. -/
def bind (scope : Scope) (root : SchemaNode) : SchemaNode × List (Located BindingFault) :=
  let (root, progress) := bindNode scope root ⟨[], []⟩
  (root, progress.faults)

end Binding

end ResourceTypes
