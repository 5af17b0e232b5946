import ResourceTypes.CommandLine.Answer
import ResourceTypes.CommandLine.Arguments

/-!
Running the command line. Files are read in a fixed order, the configuration,
the catalog and the manifest, and the first problem ends the run.
-/

namespace ResourceTypes.CommandLine

def configurationOf (file : String) (content : Except ReadFault String) :
    Except Problem Configuration := do
  let text ← content.mapError (.unreadableConfig file)
  (Configuration.ofFile? file text).elim (.error (.illFormedConfig file)) .ok

def tableOf (configuration : Configuration) (file : String)
    (content : Except ReadFault String) : Except Problem TypeTable :=
  Except.mapError (.catalog file) do
    let catalog ← Catalog.ofFile file content
    let registry ←
      (catalog.load configuration.settings configuration.namespaces?).mapError .unloadable
    return registry.table

/-- The table without a catalog: no types, but perhaps namespaces. -/
def emptyTable (configuration : Configuration) : TypeTable :=
  (Registry.empty (configuration.namespaces?.getD [])).table

def manifestIn (file : String) (content : Except ReadFault String) :
    Except Problem Manifest := do
  let text ← content.mapError (.unreadableManifest file)
  (Manifest.ofText (Manifest.formatOf file) text).mapError (.manifest file)

def Command.answer (command : Command) (session : Session) (manifest : Manifest) : Answer :=
  match command with
  | .validate _ _ format => CommandLine.validate session manifest (format = .json)
  | .describe _ type version _ => CommandLine.describe session manifest type version

def Command.manifestFile : Command → String
  | .validate file _ _ | .describe file _ _ _ => file

/-- The catalog that a command names, which counts before that of the configuration. -/
def Command.catalog? : Command → Option String
  | .validate _ catalog? _ | .describe _ _ _ catalog? => catalog?

variable {m : Type → Type} [Monad m]

/-- Reads a file and makes something of its content. -/
def load {α : Type} (read : String → m (Except ReadFault String))
    (make : String → Except ReadFault String → Except Problem α) (file : String) :
    ExceptT Problem m α := do
  let content ← read file
  ExceptT.mk (pure (make file content))

/-- What is needed to carry out a request. -/
def prepare (read : String → m (Except ReadFault String)) (request : Request) :
    ExceptT Problem m (Session × Manifest) := do
  let configuration ← match request.config? with
    | some file => load read configurationOf file
    | none => pure .standard
  let table ← match request.command.catalog?.or configuration.catalog? with
    | some file => load read (tableOf configuration) file
    | none => pure (emptyTable configuration)
  let manifest ← load read manifestIn request.command.manifestFile
  return (.start table configuration.settings, manifest)

/-- Answers a request, with a given way of reading files. -/
def Request.answer (read : String → m (Except ReadFault String)) (request : Request) :
    m Answer := do
  match ← (prepare read request).run with
  | .ok (session, manifest) => return request.command.answer session manifest
  | .error problem => return .failed problem

def versionLine : String := "restype 0.1.0"

def run (read : String → m (Except ReadFault String)) (arguments : List String) : m Answer :=
  match Request.ofArguments arguments with
  | .ok request => request.answer read
  | .error .version => pure (.accepted versionLine)
  | .error .usage => pure (.failed .usage)

end ResourceTypes.CommandLine
