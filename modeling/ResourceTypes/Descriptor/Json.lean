import ResourceTypes.Descriptor

/-!
The JSON form of type descriptors. Empty properties, empty attributes, missing
descriptions and flags that are off are left out; a type written in place
stands in the same object as the word that says so.
-/

namespace ResourceTypes

/-- A member that is present only if there is a text for it. -/
def textMember (name : String) : Option String → List (String × Json)
  | some text => [(name, .string text)]
  | none => []

/-- A member that is present only if the flag is on. -/
def flagMember (name : String) (flag : Bool) : List (String × Json) :=
  if flag then [(name, .bool true)] else []

/-- The member of the attributes, present only if there are some. -/
def Attributes.members (attributes : Attributes) : List (String × Json) :=
  if attributes.isEmpty then [] else [("validation", .object attributes)]

mutual

def TypeDescriptor.members : TypeDescriptor → List (String × Json)
  | ⟨shape, validation, description, readOnly⟩ =>
    shape.members ++ validation.members ++ textMember "description" description ++
      flagMember "readOnly" readOnly

def Shape.members : Shape → List (String × Json)
  | .scalar kind => [("kind", .string kind.name)]
  | .object [] => [("kind", .string "object")]
  | .object (property :: rest) =>
    [("kind", .string "object"),
      ("properties", .array (property.toJson :: Property.listToJson rest))]
  | .map value => [("kind", .string "map"), ("elementType", value.toJson)]
  | .array item => [("kind", .string "array"), ("elementType", item.toJson)]

def TypeHandle.toJson : TypeHandle → Json
  | .authored type => .object (("origin", .string "authored") :: type.members)
  | .referenced id target description readOnly =>
    .object ([("origin", .string "referenced"), ("id", .string id),
      ("descriptor", .object target.members)] ++ textMember "description" description ++
      flagMember "readOnly" readOnly)

def Property.toJson : Property → Json
  | ⟨name, type, required, readOnly, description⟩ =>
    .object ([("name", .string name), ("type", type.toJson)] ++ flagMember "required" required ++
      flagMember "readOnly" readOnly ++ textMember "description" description)

def Property.listToJson : List Property → List Json
  | [] => []
  | property :: rest => property.toJson :: Property.listToJson rest

end

def TypeDescriptor.toJson (type : TypeDescriptor) : Json := .object type.members

end ResourceTypes
