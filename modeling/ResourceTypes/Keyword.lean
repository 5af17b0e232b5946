import ResourceTypes.Kind

/-!
The keywords of the schema language by what they are for, and the kinds that
each validation keyword goes with.
-/

namespace ResourceTypes

inductive KeywordClass where
  | structural
  | metadata
  | polymorphism
  | validation
  | unknown
deriving DecidableEq, Repr

namespace Keyword

def structural : List String :=
  ["type", "properties", "additionalProperties", "items", "$ref", "required"]

def metadata : List String := ["readOnly", "description"]

/-- Keywords that combine schemas, none of which is allowed. -/
def polymorphism : List String := ["allOf", "anyOf", "oneOf", "not"]

def numeric : List Kind := [.scalar .number, .scalar .integer]

/-- The validation keywords, each with the kinds that it may stand on. -/
def validation : List (String × List Kind) :=
  [("enum", .scalar .string :: numeric),
   ("format", .scalar .string :: numeric),
   ("default", .scalar .string :: numeric ++ [.scalar .boolean]),
   ("pattern", [.scalar .string]),
   ("minLength", [.scalar .string]),
   ("maxLength", [.scalar .string]),
   ("minimum", numeric),
   ("maximum", numeric),
   ("exclusiveMinimum", numeric),
   ("exclusiveMaximum", numeric),
   ("multipleOf", numeric),
   ("minItems", [.array]),
   ("maxItems", [.array]),
   ("uniqueItems", [.array]),
   ("minProperties", [.object, .map]),
   ("maxProperties", [.object, .map])]

/-- The kinds that a validation keyword may stand on; nothing for other words. -/
def kinds? (word : String) : Option (List Kind) := validation.lookup word

/-- Whether a word is a validation keyword that may stand on a kind. -/
def allows (word : String) (kind : Kind) : Bool :=
  match kinds? word with
  | some kinds => kinds.contains kind
  | none => false

def classOf (word : String) : KeywordClass :=
  if word ∈ structural then .structural
  else if word ∈ metadata then .metadata
  else if word ∈ polymorphism then .polymorphism
  else if (kinds? word).isSome then .validation
  else .unknown

end Keyword

namespace KeywordClass

def name : KeywordClass → String
  | .structural => "Structural"
  | .metadata => "Metadata"
  | .polymorphism => "Polymorphism"
  | .validation => "Validation"
  | .unknown => "Unknown"

end KeywordClass

end ResourceTypes
