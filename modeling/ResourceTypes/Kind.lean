/-!
The kinds of types. A schema spells six of them; the seventh, a map, is an
object whose additional properties have a type.
-/

namespace ResourceTypes

inductive ScalarKind where
  | string
  | number
  | integer
  | boolean
deriving DecidableEq, Repr

/-- The kinds that the keyword `type` can name. -/
inductive SpelledKind where
  | object
  | array
  | scalar (kind : ScalarKind)
deriving DecidableEq, Repr

inductive Kind where
  | object
  | map
  | array
  | scalar (kind : ScalarKind)
deriving DecidableEq, Repr

def ScalarKind.name : ScalarKind → String
  | .string => "string"
  | .number => "number"
  | .integer => "integer"
  | .boolean => "boolean"

def SpelledKind.kind : SpelledKind → Kind
  | .object => .object
  | .array => .array
  | .scalar kind => .scalar kind

/-- The kind that a schema spells by this word. -/
def SpelledKind.ofName? : String → Option SpelledKind
  | "object" => some .object
  | "array" => some .array
  | "string" => some (.scalar .string)
  | "number" => some (.scalar .number)
  | "integer" => some (.scalar .integer)
  | "boolean" => some (.scalar .boolean)
  | _ => none

namespace Kind

def name : Kind → String
  | .object => "object"
  | .map => "map"
  | .array => "array"
  | .scalar kind => kind.name

/-- The kind of this name, where maps have one too. -/
def ofName? (word : String) : Option Kind :=
  if word = "map" then some .map else (SpelledKind.ofName? word).map SpelledKind.kind

def isScalar : Kind → Bool
  | .scalar _ => true
  | _ => false

def isObjectLike : Kind → Bool
  | .object | .map => true
  | _ => false

end Kind

@[simp] theorem SpelledKind.ofName?_name_kind (kind : SpelledKind) :
    SpelledKind.ofName? kind.kind.name = some kind := by
  cases kind with
  | scalar kind => cases kind <;> rfl
  | _ => rfl

end ResourceTypes
