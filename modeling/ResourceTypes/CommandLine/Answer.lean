import ResourceTypes.Catalog.File
import ResourceTypes.Configuration
import ResourceTypes.Descriptor.Json
import ResourceTypes.Json.Text
import ResourceTypes.Manifest
import ResourceTypes.Session

/-!
Answers of the command line: what is printed, the exit code, and the problem
that stood in the way, if there was one.
-/

namespace ResourceTypes.CommandLine

inductive Problem where
  | usage
  | unreadableConfig (file : String) (fault : ReadFault)
  | illFormedConfig (file : String)
  | catalog (file : String) (error : CatalogError)
  | unreadableManifest (file : String) (fault : ReadFault)
  | manifest (file : String) (fault : ManifestFault)
  | lookup (fault : LookupFault)
  | defective (id : String) (error : CompileError)

namespace Problem

/-- The message of a problem, behind which its causes follow. -/
def message : Problem → String
  | .usage => "usage"
  | .unreadableConfig file fault => "Failed to read config " ++ file ++ ": " ++ fault.message
  | .illFormedConfig file => "Failed to parse config " ++ file
  | .catalog file error =>
    "Failed to load registry " ++ file ++ ": " ++ error.message ++
      error.cause?.elim "" (": " ++ ·)
  | .unreadableManifest file fault =>
    "Failed to read manifest " ++ file ++ ": " ++ fault.message
  | .manifest file .illFormed => "Failed to parse manifest " ++ file
  | .manifest file .emptyNamespace => "Manifest " ++ file ++ " has an empty namespace"
  | .lookup fault => fault.message
  | .defective id error => "Failed to compile " ++ id ++ ": " ++ error.message

end Problem

structure Answer where
  code : Nat
  output : String
  problem? : Option Problem

namespace Answer

/-- All is accepted. -/
def accepted (output : String) : Answer := ⟨0, output ++ "\n", none⟩

/-- Something is rejected. -/
def rejected (output : String) : Answer := ⟨1, output ++ "\n", none⟩

def failed (problem : Problem) : Answer := ⟨2, "", some problem⟩

end Answer

/-- The lines that show a rejected document. -/
def rejectionText (id : String) (report : Report) : String :=
  id ++ ": rejected (" ++ toString report.length ++ " failure(s))\n" ++ report.text

/-- What the check of a declared schema has come to. -/
structure Outcome where
  id : String
  declaration : Declaration
  report : Report

namespace Outcome

def isAccepted (outcome : Outcome) : Bool := outcome.report.isEmpty

def text (outcome : Outcome) : String :=
  if outcome.isAccepted then outcome.id ++ ": ok"
  else rejectionText outcome.id outcome.report

def toJson (outcome : Outcome) : Json :=
  .object [("id", .string outcome.id), ("type", .string outcome.declaration.type),
    ("apiVersion", .string outcome.declaration.version), ("accepted", .bool outcome.isAccepted),
    ("failures", outcome.report.toJson)]

end Outcome

/-- The outcomes of all that a manifest declares. -/
def outcomes (session : Session) (manifest : Manifest) : List Outcome :=
  manifest.declarations.map fun declaration =>
    let id := manifest.idOf declaration
    ⟨id, declaration, session.validateDocument id declaration.schema⟩

/-- The last line, which counts the outcomes. -/
def summary (outcomes : List Outcome) : String :=
  let rejected := outcomes.countP fun outcome => !outcome.isAccepted
  "Schemas: " ++ toString outcomes.length ++ ", accepted: " ++
    toString (outcomes.length - rejected) ++ ", rejected: " ++ toString rejected

/-- Checks all that a manifest declares, and shows the outcomes as lines or as JSON. -/
def validate (session : Session) (manifest : Manifest) (asJson : Bool) : Answer :=
  let outcomes := outcomes session manifest
  let output :=
    if asJson then (Json.array (outcomes.map Outcome.toJson)).prettyText
    else "\n".intercalate (outcomes.map Outcome.text ++ [summary outcomes])
  if outcomes.all Outcome.isAccepted then .accepted output else .rejected output

/-- Shows the type of a declared schema, or why it has none. -/
def describe (session : Session) (manifest : Manifest) (type version : String) : Answer :=
  match manifest.find type version with
  | .error fault => .failed (.lookup fault)
  | .ok declaration =>
    let id := manifest.idOf declaration
    match (session.compileDocument id declaration.schema).1 with
    | .ok type => .accepted type.toJson.prettyText
    | .error error =>
      match error.report? with
      | some report => .rejected (rejectionText id report)
      | none => .failed (.defective id error)

end ResourceTypes.CommandLine
