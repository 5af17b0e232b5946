import ResourceTypes.Json.Text
import ResourceTypes.Kind
import ResourceTypes.Report

/-!
The ways in which a schema tree can break the grammar of the restricted
schema language.
-/

namespace ResourceTypes

inductive Violation where
  | rootReference
  | rootMap
  | rootKind (kind : Kind)
  | polymorphic (keyword : String)
  | unknownKeyword (name : String)
  | notExclusive (others : List String)
  | untyped
  | untypedItem
  | unsupportedType (value : Json)
  | misplaced (keyword : String) (kind : Kind)
  | enumNotList
  | enumEntry (value : Json) (kind : Kind)
  | defaultValue (value : Json) (kind : Kind)
  | twoShapes
  | openProperties
  | undeclaredRequired (name : String)
  | arrayWithoutItems

namespace Violation

def rule : Violation → Rule
  | .rootReference | .rootMap | .rootKind _ => .rootMustBeObject
  | .polymorphic _ => .polymorphismNotAllowed
  | .unknownKeyword _ => .unknownKeyword
  | .notExclusive _ => .refMustBeExclusive
  | .untyped | .openProperties => .typeRequired
  | .untypedItem | .arrayWithoutItems => .arrayItemTypeRequired
  | .unsupportedType _ => .unsupportedType
  | .misplaced _ _ | .enumNotList | .enumEntry _ _ | .defaultValue _ _ =>
    .incompatibleValidationAttribute
  | .twoShapes => .ambiguousObjectShape
  | .undeclaredRequired _ => .unknownRequiredProperty

def message : Violation → String
  | .rootReference => "the document root must be an inline object, not a reference"
  | .rootMap => "the document root must declare properties, not a map value type"
  | .rootKind kind => "the document root must be an object, found '" ++ kind.name ++ "'"
  | .polymorphic keyword =>
    "'" ++ keyword ++ "' is not allowed; polymorphic schemas are not supported"
  | .unknownKeyword name => "'" ++ name ++ "' is not a recognized schema keyword"
  | .notExclusive others => "'$ref' cannot be combined with: " ++ ", ".intercalate others
  | .untyped => "schema must declare a type"
  | .untypedItem => "array items must declare a type"
  | .unsupportedType value =>
    "type " ++ value.text ++
      " is not supported; use one of object, array, string, number, integer, boolean"
  | .misplaced keyword kind =>
    "'" ++ keyword ++ "' is not valid on a '" ++ kind.name ++ "' node"
  | .enumNotList => "enum must be a list of values"
  | .enumEntry value kind =>
    "enum value " ++ value.text ++ " is not a valid '" ++ kind.name ++ "' value"
  | .defaultValue value kind =>
    "default " ++ value.text ++ " is not a valid '" ++ kind.name ++ "' value"
  | .twoShapes => "object declares both properties and additionalProperties; use one shape"
  | .openProperties => "additionalProperties must be a typed schema, not 'true'"
  | .undeclaredRequired name =>
    "required property '" ++ name ++ "' is not declared in properties"
  | .arrayWithoutItems => "array must declare an items schema"

end Violation

instance : Cause Violation := ⟨Violation.rule, Violation.message⟩

end ResourceTypes
