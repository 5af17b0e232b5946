import ResourceTypes.Yaml.Tag
import ResourceTypes.Yaml.Token

/-!
Nodes of YAML documents: scalars, sequences, mappings, and aliases of nodes
that are anchored elsewhere in the document.
-/

namespace ResourceTypes.Yaml

structure Scalar where
  tag? : Option Octets
  style : Style
  text : String
deriving DecidableEq, Repr

/-- Anchors are known by numbers, since a name may be anchored more than once. -/
inductive Node where
  | scalar (anchor? : Option Nat) (content : Scalar)
  | sequence (anchor? : Option Nat) (tag? : Option Octets) (items : List Node)
  | mapping (anchor? : Option Nat) (tag? : Option Octets) (members : List (Node × Node))
  | alias (anchor : Nat)
deriving Inhabited

namespace Node

def empty : Node := .scalar none ⟨none, .plain, ""⟩

mutual

/-- How long a node is: one for a scalar or alias, two for the ends of a collection. -/
def size : Node → Nat
  | .scalar _ _ | .alias _ => 1
  | .sequence _ _ items => sizeItems items + 2
  | .mapping _ _ members => sizeMembers members + 2

def sizeItems : List Node → Nat
  | [] => 0
  | item :: rest => item.size + sizeItems rest

def sizeMembers : List (Node × Node) → Nat
  | [] => 0
  | (key, value) :: rest => key.size + value.size + sizeMembers rest

end

/-- A node under the number of its anchor, if it has one. -/
def labelled (anchor? : Option Nat) (node : Node) : List (Nat × Node) :=
  (anchor?.map (·, node)).toList

mutual

/-- The anchored nodes in the order in which they begin. -/
def anchored : Node → List (Nat × Node)
  | .scalar anchor? content => labelled anchor? (.scalar anchor? content)
  | .sequence anchor? tag? items =>
    labelled anchor? (.sequence anchor? tag? items) ++ anchoredItems items
  | .mapping anchor? tag? members =>
    labelled anchor? (.mapping anchor? tag? members) ++ anchoredMembers members
  | .alias _ => []

def anchoredItems : List Node → List (Nat × Node)
  | [] => []
  | item :: rest => item.anchored ++ anchoredItems rest

def anchoredMembers : List (Node × Node) → List (Nat × Node)
  | [] => []
  | (key, value) :: rest => key.anchored ++ value.anchored ++ anchoredMembers rest

end

end Node

/-- A document: its root, and the anchored nodes, the last one first. -/
structure Document where
  root : Node
  anchored : List (Nat × Node)

namespace Document

def ofRoot (root : Node) : Document := ⟨root, root.anchored.reverse⟩

/-- The node that an alias stands for: the last one under its number. -/
def target? (document : Document) (anchor : Nat) : Option Node :=
  (document.anchored.find? (·.1 = anchor)).map (·.2)

/-- How many aliases may be followed while the document is read. -/
def aliasLimit (document : Document) : Nat := 100 * document.root.size

end Document

end ResourceTypes.Yaml
