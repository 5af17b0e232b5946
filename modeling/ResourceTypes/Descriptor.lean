import ResourceTypes.Json
import ResourceTypes.Kind

/-!
Type descriptors, the canonical form of a schema: every keyword in its place
and every reference bound to the type it stands for. A handle says whether the
type below it was written in place or shared under an id.
-/

namespace ResourceTypes

/-- Validation keywords with their values, in the order of the schema. -/
abbrev Attributes := Members Json

mutual

structure TypeDescriptor where
  shape : Shape
  validation : Attributes
  description : Option String
  readOnly : Bool

/-- What a type is made of: only objects have properties, only maps and arrays an element. -/
inductive Shape where
  | scalar (kind : ScalarKind)
  | object (properties : List Property)
  | map (value : TypeHandle)
  | array (item : TypeHandle)

/-- A type written in place, or one shared under an id, with the notes at its use. -/
inductive TypeHandle where
  | authored (type : TypeDescriptor)
  | referenced (id : String) (target : TypeDescriptor) (description : Option String)
      (readOnly : Bool)

structure Property where
  name : String
  type : TypeHandle
  required : Bool
  readOnly : Bool
  description : Option String

end

namespace Attributes

/-- The allowed values, if the keyword `enum` lists them. -/
def enumValues? (attributes : Attributes) : Option (List Json) :=
  match Members.get? attributes "enum" with
  | some (.array values) => some values
  | _ => none

/-- Equality of attributes, whose order is open. -/
def same (a b : Attributes) : Bool := (Json.object a).same (.object b)

end Attributes

namespace Shape

def kind : Shape → Kind
  | .scalar kind => .scalar kind
  | .object _ => .object
  | .map _ => .map
  | .array _ => .array

def properties : Shape → List Property
  | .object properties => properties
  | _ => []

def element? : Shape → Option TypeHandle
  | .map handle | .array handle => some handle
  | _ => none

end Shape

namespace TypeDescriptor

/-- A type of this shape without attributes and notes. -/
def plain (shape : Shape) : TypeDescriptor := ⟨shape, [], none, false⟩

instance : Inhabited TypeDescriptor := ⟨plain (.object [])⟩

instance : Inhabited TypeHandle := ⟨.authored default⟩

instance : Inhabited Property := ⟨⟨"", default, false, false, none⟩⟩

def kind (type : TypeDescriptor) : Kind := type.shape.kind

def properties (type : TypeDescriptor) : List Property := type.shape.properties

/-- The value type of a map, or the item type of an array. -/
def element? (type : TypeDescriptor) : Option TypeHandle := type.shape.element?

/-- The first property of that name. -/
def property? (type : TypeDescriptor) (name : String) : Option Property :=
  type.properties.find? (·.name = name)

end TypeDescriptor

namespace TypeHandle

/-- The type that a handle stands for. -/
def type : TypeHandle → TypeDescriptor
  | .authored type => type
  | .referenced _ target _ _ => target

/-- The id that a type is shared under. -/
def id? : TypeHandle → Option String
  | .authored _ => none
  | .referenced id _ _ _ => some id

/-- The note at the use, or else the one on the type. -/
def description : TypeHandle → Option String
  | .authored type => type.description
  | .referenced _ target description _ => description <|> target.description

/-- Read-only at this use, or everywhere. -/
def readOnly : TypeHandle → Bool
  | .authored type => type.readOnly
  | .referenced _ target _ readOnly => readOnly || target.readOnly

/-- Notes at the use; a type written in place carries its own instead. -/
def withNotes (description : Option String) (readOnly : Bool) : TypeHandle → TypeHandle
  | .authored type => .authored type
  | .referenced id target _ _ => .referenced id target description readOnly

end TypeHandle

/-- The part of an id behind its last `#`, or behind its last `/` if that is empty. -/
def referenceName (id : String) : String :=
  let behind (mark : Char) : String :=
    String.ofList (id.toList.reverse.takeWhile (· ≠ mark)).reverse
  if id.toList.contains '#' ∧ behind '#' ≠ "" then behind '#' else behind '/'

mutual

/-- The ids that a type refers to, in order; shared types are not entered. -/
def TypeDescriptor.references : TypeDescriptor → List String
  | ⟨shape, _, _, _⟩ => shape.references

def Shape.references : Shape → List String
  | .scalar _ => []
  | .object properties => Property.listReferences properties
  | .map value => value.references
  | .array item => item.references

def TypeHandle.references : TypeHandle → List String
  | .authored type => type.references
  | .referenced id _ _ _ => [id]

def Property.listReferences : List Property → List String
  | [] => []
  | ⟨_, type, _, _, _⟩ :: rest => type.references ++ Property.listReferences rest

end

/-- The ids that a type refers to, each once, where it is first met. -/
def TypeDescriptor.directReferences (type : TypeDescriptor) : List String :=
  type.references.eraseDups

mutual

/-- Equality of types, for which the order of attributes is open. -/
def TypeDescriptor.same : TypeDescriptor → TypeDescriptor → Bool
  | ⟨shape, validation, description, readOnly⟩, other =>
    shape.same other.shape && validation.same other.validation &&
      description == other.description && readOnly == other.readOnly

def Shape.same : Shape → Shape → Bool
  | .scalar a, .scalar b => a == b
  | .object as, .object bs => Property.listSame as bs
  | .map a, .map b => a.same b
  | .array a, .array b => a.same b
  | _, _ => false

def TypeHandle.same : TypeHandle → TypeHandle → Bool
  | .authored a, .authored b => a.same b
  | .referenced id target description readOnly, .referenced id' target' description' readOnly' =>
    id == id' && target.same target' && description == description' && readOnly == readOnly'
  | _, _ => false

def Property.listSame : List Property → List Property → Bool
  | [], [] => true
  | ⟨name, type, required, readOnly, description⟩ :: as, b :: bs =>
    name == b.name && type.same b.type && required == b.required && readOnly == b.readOnly &&
      description == b.description && Property.listSame as bs
  | _, _ => false

end

end ResourceTypes
