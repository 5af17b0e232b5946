import ResourceTypes.Catalog
import ResourceTypes.Files

/-!
Catalogs in files. The name of a file decides its format: YAML for two
extensions, and JSON for all others.
-/

namespace ResourceTypes

/-- Why no registry could be loaded from a catalog's text or file. -/
inductive CatalogError where
  | unreadable (fault : ReadFault)
  | illFormed (format : Format)
  | unloadable (error : LoadError)

namespace CatalogError

def message : CatalogError → String
  | .unreadable fault => "IO error: " ++ fault.message
  | .illFormed format => "Invalid format: " ++ format.name ++ " parse error"
  | .unloadable error => error.message

def toReport (error : CatalogError) : Report := .internal error.message

/-- The message of what caused an error, if that is told apart from the error. -/
def cause? : CatalogError → Option String
  | .unreadable fault => some fault.message
  | .unloadable (.registry error) => some error.message
  | _ => none

end CatalogError

namespace Catalog

def formatOf (file : String) : Format :=
  match FileName.extension? file with
  | some "yaml" | some "yml" => .yaml
  | _ => .json

def ofText (format : Format) (text : String) : Except CatalogError Catalog :=
  (ofText? format text).elim (.error (.illFormed format)) .ok

/-- The catalog that a file was read as. -/
def ofFile (file : String) (content : Except ReadFault String) : Except CatalogError Catalog := do
  ofText (formatOf file) (← content.mapError .unreadable)

end Catalog

end ResourceTypes
