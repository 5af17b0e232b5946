import ResourceTypes.Files
import ResourceTypes.Settings

/-!
Configurations of the command line: where the catalog is, which namespaces
replace those of the catalog, and the settings of compilation.
-/

namespace ResourceTypes

structure Configuration where
  namespaces? : Option (List String)
  catalog? : Option String
  settings : Settings

namespace Configuration

def standard : Configuration := ⟨none, none, .standard⟩

def decode {σ : Type} [Source σ] (source : σ) : Decoder Configuration := do
  let fields ← Source.fields ["allowed_namespaces", "registry", "engine"] source
  let namespaces? ←
    .optional fields "allowed_namespaces" (.nullable (.list Source.text)) none
  let catalog? ← .optional fields "registry" (.nullable Source.text) none
  let settings ← .optional fields "engine" Settings.decode .standard
  return ⟨namespaces?, catalog?, settings⟩

/-- The configuration of a text, which is always YAML. -/
def ofText? (text : String) : Option Configuration := Format.yaml.decode? text fun _ => decode

/-- The configuration of a file, next to which the catalog's name is looked up. -/
def ofFile? (file text : String) : Option Configuration :=
  (ofText? text).map fun configuration =>
    { configuration with
      catalog? := configuration.catalog?.map (FileName.join (FileName.directory file)) }

end Configuration

end ResourceTypes
