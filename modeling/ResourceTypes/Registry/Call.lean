import ResourceTypes.Registry

/-!
Registrations as calls that change a registry in place. A call makes all its
tests first; then it enters the edges into the graph, one after another, and
the entry into the table.
-/

namespace ResourceTypes

namespace Registry

def enterEdge (source target : String) : EStateM RegistryError Registry Unit :=
  modify fun registry => { registry with graph := registry.graph.addEdge source target }

def enterEntry (entry : Entry) : EStateM RegistryError Registry Unit :=
  modify fun registry =>
    { registry with table.entries := registry.table.entries ++ [entry] }

/-- Registers an entry, or fails where the tests of it do. -/
def enter (entry : Entry) : EStateM RegistryError Registry Unit := do
  let registry ← get
  if entry.id = "" then
    throw .emptyId
  if registry.contains entry.id then
    throw (.duplicate entry.id)
  if let some via := entry.references.find? (registry.graph.closesCycle entry.id) then
    throw (.cyclic entry.id via)
  entry.references.forM (enterEdge entry.id)
  enterEntry entry

/-- The registry that a call leaves behind, also if it fails. -/
def after (registry : Registry) (entry : Entry) : Registry :=
  match (enter entry).run registry with
  | .ok _ next | .error _ next => next

/-- The registry after a number of calls, those that failed among them. -/
def afterAll (registry : Registry) (entries : List Entry) : Registry :=
  entries.foldl after registry

end Registry

end ResourceTypes
