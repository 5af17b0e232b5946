import ResourceTypes.Format
import ResourceTypes.Schema.Reading

/-!
Settings of compilation: how deep schemas may nest, and whether compiled
documents are remembered.
-/

namespace ResourceTypes

structure Settings where
  maxDepth : Nat
  cacheDocuments : Bool
deriving DecidableEq, Repr

namespace Settings

def standard : Settings := ⟨Schema.defaultDepth, true⟩

/-- Settings that are not written keep their standard. -/
def decode {σ : Type} [Source σ] (source : σ) : Decoder Settings := do
  let fields ← Source.fields ["max_depth", "cache_documents"] source
  let maxDepth ← .optional fields "max_depth" Source.size standard.maxDepth
  let cacheDocuments ← .optional fields "cache_documents" Source.flag standard.cacheDocuments
  return ⟨maxDepth, cacheDocuments⟩

def ofText? (format : Format) (text : String) : Option Settings :=
  format.decode? text fun _ => decode

def toJson (settings : Settings) : Json :=
  .object [("max_depth", .int settings.maxDepth),
    ("cache_documents", .bool settings.cacheDocuments)]

end Settings

end ResourceTypes
