import ResourceTypes.Report

/-!
The reasons why a JSON value is not shaped like a schema.
-/

namespace ResourceTypes

/-- The type of value that a keyword asks for. -/
inductive Demand where
  | mapping
  | flagOrSchema
  | schema
  | text
  | names
  | flag
deriving DecidableEq, Repr

def Demand.wording : Demand → String
  | .mapping => "a mapping"
  | .flagOrSchema => "a boolean or a schema"
  | .schema => "a single schema"
  | .text => "a string"
  | .names => "a list of names"
  | .flag => "a boolean"

inductive Malformation where
  | tooDeep (limit : Nat)
  | notSchema (found : Json)
  | wrongType (keyword : String) (demand : Demand) (found : Json)
  | requiredEntry (found : Json)

def Malformation.message : Malformation → String
  | .tooDeep limit => "schema nests deeper than " ++ toString limit ++ " levels"
  | .notSchema found => "expected a schema object, found " ++ found.typeName
  | .wrongType keyword demand found =>
    keyword ++ " must be " ++ demand.wording ++ ", found " ++ found.typeName
  | .requiredEntry found => "required entries must be strings, found " ++ found.typeName

instance : Cause Malformation := ⟨fun _ => .malformedInput, Malformation.message⟩

/-- The text of a refusal where it is an error by itself and not yet a failure of a check. -/
def Malformation.refusal (offence : Located Malformation) : String :=
  "Malformed schema at " ++ offence.path.display ++ ": " ++ offence.cause.message

end ResourceTypes
