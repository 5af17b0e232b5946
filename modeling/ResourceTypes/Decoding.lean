import ResourceTypes.Json
import ResourceTypes.Members

/-!
Decoding of records from texts. What a record consists of is said once; each
format says how its values are read as texts, lists, records and so on.
-/

namespace ResourceTypes

/-- Decoding may fail; the state counts the indirections that may still be followed. -/
abbrev Decoder := StateT Nat Option

/-- Values of a format, as a decoder sees them. -/
class Source (σ : Type) where
  text : σ → Decoder String
  flag : σ → Decoder Bool
  /-- A whole number of 64 bits that is not negative. -/
  size : σ → Decoder Nat
  /-- The value as it is, whatever its type. -/
  value : σ → Decoder Json
  items : σ → Decoder (List σ)
  /-- Named values, in the order and as often as they are written. -/
  entries : σ → Decoder (List (String × σ))
  /-- The values of those fields that are known by these names, each at most once. -/
  fields : List String → σ → Decoder (Members σ)
  /-- The value, or nothing where it says so. -/
  present? : σ → Decoder (Option σ)

namespace Decoder

variable {σ α : Type}

def required (fields : Members σ) (name : String) (decode : σ → Decoder α) : Decoder α := do
  decode (← fields.get? name)

def optional (fields : Members σ) (name : String) (decode : σ → Decoder α) (default : α) :
    Decoder α :=
  match fields.get? name with
  | some source => decode source
  | none => pure default

variable [Source σ]

def list (decode : σ → Decoder α) (source : σ) : Decoder (List α) := do
  (← Source.items source).mapM decode

/-- Named values in ascending order; of one name the last value counts. -/
def dictionary (decode : σ → Decoder α) (source : σ) : Decoder (Members α) := do
  let entries ← (← Source.entries source).mapM fun (name, value) => do
    return (name, ← decode value)
  return (Members.ofList entries).mergeSort (·.1 ≤ ·.1)

def nullable (decode : σ → Decoder α) (source : σ) : Decoder (Option α) := do
  (← Source.present? source).mapM decode

end Decoder

end ResourceTypes
