import ResourceTypes.Files
import ResourceTypes.Format
import ResourceTypes.Text.Blank

/-!
Manifests, which declare the schemas of a namespace's types, one for each
version of a type.
-/

namespace ResourceTypes

/-- Types and versions are in ascending order of their names. -/
structure Manifest where
  space : String
  types : Members (Members Json)

/-- The schema that a manifest declares for a version of a type. -/
structure Declaration where
  type : String
  version : String
  schema : Json

/-- Why a text is no manifest. -/
inductive ManifestFault where
  | illFormed
  | emptyNamespace
deriving DecidableEq, Repr

/-- Why a manifest has no schema for a version of a type. -/
inductive LookupFault where
  | undeclaredType (type space : String)
  | undeclaredVersion (type version : String)
deriving DecidableEq, Repr

def LookupFault.message : LookupFault → String
  | .undeclaredType type space => "Type '" ++ type ++ "' is not declared in " ++ space
  | .undeclaredVersion type version =>
    "Type '" ++ type ++ "' has no API version '" ++ version ++ "'"

namespace Manifest

section Decode

variable {σ : Type} [Source σ]

def decodeVersion (source : σ) : Decoder Json := do
  .required (← Source.fields ["schema"] source) "schema" Source.value

def decodeType (source : σ) : Decoder (Members Json) := do
  let fields ← Source.fields ["apiVersions"] source
  .optional fields "apiVersions" (.dictionary decodeVersion) []

def decode (source : σ) : Decoder Manifest := do
  let fields ← Source.fields ["namespace", "types"] source
  let space ← .required fields "namespace" Source.text
  let types ← .optional fields "types" (.dictionary decodeType) []
  return ⟨space, types⟩

end Decode

/-- Only files with the extension of JSON are read as such. -/
def formatOf (file : String) : Format :=
  if FileName.extension? file = some "json" then .json else .yaml

/-- The manifest of a text; its namespace is not blank. -/
def ofText (format : Format) (text : String) : Except ManifestFault Manifest :=
  match format.decode? text fun _ => decode with
  | none => .error .illFormed
  | some manifest =>
    if Text.isBlank manifest.space then .error .emptyNamespace else .ok manifest

/-- All that a manifest declares, in ascending order of types and then of versions. -/
def declarations (manifest : Manifest) : List Declaration :=
  manifest.types.flatMap fun (type, versions) =>
    versions.map fun (version, schema) => ⟨type, version, schema⟩

/-- The schema of a version of a type. -/
def find (manifest : Manifest) (type version : String) : Except LookupFault Declaration :=
  match manifest.types.get? type with
  | none => .error (.undeclaredType type manifest.space)
  | some versions =>
    match versions.get? version with
    | none => .error (.undeclaredVersion type version)
    | some schema => .ok ⟨type, version, schema⟩

/-- The id under which a declared schema is compiled. -/
def idOf (manifest : Manifest) (declaration : Declaration) : String :=
  manifest.space ++ "/" ++ declaration.type ++ "@" ++ declaration.version

end Manifest

end ResourceTypes
