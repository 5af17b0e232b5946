import ResourceTypes.Descriptor

/-!
Tables of named types, as far as binding references needs them: which ids are
allowed, what type an id stands for, and which ids that type refers to.
-/

namespace ResourceTypes

/-- A type under its id; the ids that it refers to are read off the type. -/
structure Entry where
  id : String
  type : TypeDescriptor

/-- The ids that an entry refers to directly. -/
def Entry.references (entry : Entry) : List String := entry.type.directReferences

/--
Entries, of which the first of an id counts, and the namespaces of allowed ids.
A table stands for every source of types that answers look-ups as documented:
an entry is found under its own id and refers to the ids that its type names,
and an id is allowed if it lies in one of the namespaces. No more is asked of
it: entries may refer to each other in a cycle, or to ids without an entry.
-/
structure TypeTable where
  namespaces : List String
  entries : List Entry

/--
Whether an id continues a namespace. A namespace that does not end in a
delimiter must be followed by one, so that it does not admit longer names.
-/
def inNamespace (space id : String) : Bool :=
  let isMark (c : Char) : Bool := c = '#' || c = '/'
  if space.toList.isPrefixOf id.toList && !space.isEmpty then
    let rest := id.toList.drop space.length
    if space.toList.getLast?.any isMark then !rest.isEmpty
    else rest.head?.any isMark && 1 < rest.length
  else false

namespace TypeTable

def find? (table : TypeTable) (id : String) : Option Entry :=
  table.entries.find? (·.id == id)

/-- Whether references to an id are allowed, registered or not. -/
def allows (table : TypeTable) (id : String) : Bool :=
  table.namespaces.any (inNamespace · id)

/-- The ids that an id refers to; an unknown id refers to none. -/
def references (table : TypeTable) (id : String) : List String :=
  match table.find? id with
  | some entry => entry.references
  | none => []

/-- Writes an entry in the place of the first of its id, or else at the end. -/
def put (table : TypeTable) (entry : Entry) : TypeTable :=
  if (table.find? entry.id).isSome then
    { table with entries := table.entries.map fun old => if old.id == entry.id then entry else old }
  else { table with entries := table.entries ++ [entry] }

end TypeTable

end ResourceTypes
