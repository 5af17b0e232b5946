import ResourceTypes.Decoding.Json
import ResourceTypes.Decoding.Yaml

/-!
The formats in which records are written, and the texts that are read from
either of them.
-/

namespace ResourceTypes

inductive Format where
  | json | yaml
deriving DecidableEq, Repr

namespace Format

def name : Format → String
  | .json => "JSON"
  | .yaml => "YAML"

/-- What a text in a format is decoded to, if it is well-formed and of the right type. -/
def decode? {α : Type} (format : Format) (text : String)
    (decode : (σ : Type) → [Source σ] → σ → Decoder α) : Option α :=
  match format with
  | .json => do
    let literal ← Json.Literal.ofText? text
    (decode Json.Slot ⟨literal, Json.Slot.fullRoom⟩).run' 0
  | .yaml => do
    let document ← Yaml.Document.ofText? text
    (decode Yaml.Slot (.ofDocument document)).run' document.aliasLimit

end Format

end ResourceTypes
