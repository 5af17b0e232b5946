import ResourceTypes.Compile
import ResourceTypes.Settings

/-!
Sessions, in which documents are compiled by id and remembered. A document
that comes again with an equal schema, up to the order of members, gets the
type that was compiled for it before.
-/

namespace ResourceTypes

/-- A schema and the type that it was compiled to. -/
structure Compiled where
  schema : Json
  type : TypeDescriptor

structure Session where
  table : TypeTable
  settings : Settings
  cache : Members Compiled

namespace Session

def start (table : TypeTable) (settings : Settings) : Session := ⟨table, settings, []⟩

/-- The type of a schema without an id. -/
def compile (session : Session) (schema : Json) : Except CompileError TypeDescriptor :=
  ResourceTypes.compile session.table session.settings.maxDepth none schema

/-- What is remembered for an id, if it was compiled from an equal schema. -/
def remembered? (session : Session) (id : String) (schema : Json) : Option TypeDescriptor :=
  if session.settings.cacheDocuments then
    match session.cache.get? id with
    -- objects are equal in whatever order their members stand
    | some compiled => if compiled.schema.same schema then some compiled.type else none
    | none => none
  else none

def remember (session : Session) (id : String) (schema : Json) (type : TypeDescriptor) :
    Session :=
  if session.settings.cacheDocuments then
    { session with cache := session.cache.insert id ⟨schema, type⟩ }
  else session

/-- The type of a document, remembered or compiled now. -/
def compileDocument (session : Session) (id : String) (schema : Json) :
    Except CompileError TypeDescriptor × Session :=
  match session.remembered? id schema with
  | some type => (.ok type, session)
  | none =>
    match ResourceTypes.compile session.table session.settings.maxDepth (some id) schema with
    | .ok type => (.ok type, session.remember id schema type)
    | .error error => (.error error, session)

def validate (session : Session) (schema : Json) : Report :=
  ResourceTypes.validate session.table session.settings.maxDepth none schema

def validateDocument (session : Session) (id : String) (schema : Json) : Report :=
  ResourceTypes.validate session.table session.settings.maxDepth (some id) schema

def clear (session : Session) : Session := { session with cache := [] }

end Session

end ResourceTypes
