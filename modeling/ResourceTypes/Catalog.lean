import ResourceTypes.Compile
import ResourceTypes.Registry
import ResourceTypes.Settings

/-!
Catalogs: named schemas in any order, from which a registry is loaded. Entries
are compiled against the types registered so far, pass after pass, until all
are registered or a pass registers none.
-/

namespace ResourceTypes

/-- A named schema of a catalog. -/
structure CatalogEntry where
  id : String
  schema : Json

structure Catalog where
  namespaces : List String
  entries : List CatalogEntry

def CatalogEntry.decode {σ : Type} [Source σ] (source : σ) : Decoder CatalogEntry := do
  let fields ← Source.fields ["id", "schema"] source
  return ⟨← .required fields "id" Source.text, ← .required fields "schema" Source.value⟩

inductive LoadError where
  | registry (error : RegistryError)
  | unregistered (entries : List (String × CompileError))

namespace LoadError

def message : LoadError → String
  | .registry error => "Registry error: " ++ error.message
  | .unregistered entries =>
    toString entries.length ++ " catalog entries could not be registered: " ++
      ", ".intercalate (entries.map (·.1))

/-- The text of an entry that was given up, with the last error that it met. -/
def entryText (entry : String × CompileError) : String := entry.1 ++ ": " ++ entry.2.message

def toReport (error : LoadError) : Report := .internal error.message

end LoadError

namespace Catalog

def decode {σ : Type} [Source σ] (source : σ) : Decoder Catalog := do
  let fields ← Source.fields ["namespaces", "entries"] source
  let namespaces ← .optional fields "namespaces" (.list Source.text) []
  let entries ← .optional fields "entries" (.list CatalogEntry.decode) []
  return ⟨namespaces, entries⟩

def ofText? (format : Format) (text : String) : Option Catalog :=
  format.decode? text fun _ => decode

def toJson (catalog : Catalog) : Json :=
  .object [("namespaces", .array (catalog.namespaces.map .string)),
    ("entries", .array (catalog.entries.map fun entry =>
      .object [("id", .string entry.id), ("schema", entry.schema)]))]

/-- The first id that an earlier entry has already. -/
def repeatedId? : List CatalogEntry → List String → Option String
  | [], _ => none
  | entry :: rest, seen =>
    if seen.contains entry.id then some entry.id else repeatedId? rest (entry.id :: seen)

/-- Registers each entry that compiles, and returns the others with their errors. -/
def pass (settings : Settings) :
    Registry → List CatalogEntry →
      Except RegistryError (Registry × List (CatalogEntry × CompileError))
  | registry, [] => .ok (registry, [])
  | registry, entry :: rest =>
    match compile registry.table settings.maxDepth (some entry.id) entry.schema with
    | .ok type => do
      -- the entries behind it may refer to it in the same pass
      let registry ← registry.register entry.id type
      pass settings registry rest
    | .error error => do
      let (registry, stuck) ← pass settings registry rest
      .ok (registry, (entry, error) :: stuck)

/-- Passes over the pending entries, as long as each pass leaves fewer of them. -/
def passes (settings : Settings) (registry : Registry) (pending : List CatalogEntry) :
    Except LoadError Registry :=
  if pending.isEmpty then .ok registry
  else
    match pass settings registry pending with
    | .error error => .error (.registry error)
    | .ok (registry, stuck) =>
      if stuck.length < pending.length then passes settings registry (stuck.map (·.1))
      else .error (.unregistered (stuck.map fun (entry, error) => (entry.id, error)))
termination_by pending.length
decreasing_by simpa using ‹_›

/-- The registry of a catalog; namespaces given here replace those of the catalog. -/
def load (catalog : Catalog) (settings : Settings) (namespaces : Option (List String)) :
    Except LoadError Registry :=
  match repeatedId? catalog.entries [] with
  | some id => .error (.registry (.duplicate id))
  | none => passes settings (.empty (namespaces.getD catalog.namespaces)) catalog.entries

end Catalog

end ResourceTypes
