import ResourceTypes.Registry.Graph
import ResourceTypes.Registry.Table

/-!
Registries: tables of named types that grow by one type at a time and whose
references never form a cycle, not even through ids that are not registered.
-/

namespace ResourceTypes

inductive RegistryError where
  | duplicate (id : String)
  | cyclic (id via : String)
  | emptyId
deriving DecidableEq, Repr

def RegistryError.message : RegistryError → String
  | .duplicate id => "Registry entry already exists: " ++ id
  | .cyclic id via =>
    "Registering '" ++ id ++ "' would create a reference cycle through '" ++ via ++ "'"
  | .emptyId => "Invalid registry entry '': id must not be empty"

/-- A table together with the graph of its references. -/
structure Registry where
  table : TypeTable
  graph : ReferenceGraph

namespace Registry

/-- No types yet, and references allowed into some namespaces. -/
def empty (namespaces : List String) : Registry := ⟨⟨namespaces, []⟩, .empty⟩

def contains (registry : Registry) (id : String) : Bool := (registry.table.find? id).isSome

/-- The registered ids in ascending order. -/
def ids (registry : Registry) : List String :=
  (registry.table.entries.map (·.id)).mergeSort

/-- Adds an entry with its edges, whatever they do to the graph. -/
def add (registry : Registry) (entry : Entry) : Registry :=
  ⟨{ registry.table with entries := registry.table.entries ++ [entry] },
    entry.references.foldl (·.addEdge entry.id ·) registry.graph⟩

/--
Registers a type under a new id. Each reference is tested against the graph
as it was: no path leaves the new id there, so the edges do not help each
other to close a cycle.
-/
def register (registry : Registry) (id : String) (type : TypeDescriptor) :
    Except RegistryError Registry :=
  let entry : Entry := ⟨id, type⟩
  if id = "" then .error .emptyId
  else if registry.contains id then .error (.duplicate id)
  else
    match entry.references.find? (registry.graph.closesCycle id) with
    | some via => .error (.cyclic id via)
    | none => .ok (registry.add entry)

end Registry

end ResourceTypes
