import ResourceTypes.Json
import ResourceTypes.Path

/-!
Reports: the failures of one check in order, each with its place, the rule
that it breaks and a message.
-/

namespace ResourceTypes

inductive Rule where
  | typeRequired
  | ambiguousObjectShape
  | unknownRequiredProperty
  | arrayItemTypeRequired
  | incompatibleValidationAttribute
  | polymorphismNotAllowed
  | refMustBeExclusive
  | unknownReference
  | disallowedReference
  | cyclicReference
  | rootMustBeObject
  | unsupportedType
  | unknownKeyword
  | malformedInput
  | internalError
deriving DecidableEq, Repr

namespace Rule

def name : Rule → String
  | .typeRequired => "TypeRequired"
  | .ambiguousObjectShape => "AmbiguousObjectShape"
  | .unknownRequiredProperty => "UnknownRequiredProperty"
  | .arrayItemTypeRequired => "ArrayItemTypeRequired"
  | .incompatibleValidationAttribute => "IncompatibleValidationAttribute"
  | .polymorphismNotAllowed => "PolymorphismNotAllowed"
  | .refMustBeExclusive => "RefMustBeExclusive"
  | .unknownReference => "UnknownReference"
  | .disallowedReference => "DisallowedReference"
  | .cyclicReference => "CyclicReference"
  | .rootMustBeObject => "RootMustBeObject"
  | .unsupportedType => "UnsupportedType"
  | .unknownKeyword => "UnknownKeyword"
  | .malformedInput => "MalformedInput"
  | .internalError => "InternalError"

def all : List Rule :=
  [.typeRequired, .ambiguousObjectShape, .unknownRequiredProperty, .arrayItemTypeRequired,
   .incompatibleValidationAttribute, .polymorphismNotAllowed, .refMustBeExclusive,
   .unknownReference, .disallowedReference, .cyclicReference, .rootMustBeObject,
   .unsupportedType, .unknownKeyword, .malformedInput, .internalError]

def ofName? (word : String) : Option Rule := all.find? (·.name = word)

/-- Whether a failure of this rule ends the check at once. -/
def isFatal : Rule → Bool
  | .malformedInput => true
  | _ => false

end Rule

structure Failure where
  path : Path
  rule : Rule
  message : String
deriving DecidableEq, Repr

namespace Failure

def text (failure : Failure) : String :=
  failure.path.display ++ ": [" ++ failure.rule.name ++ "] " ++ failure.message

def toJson (failure : Failure) : Json :=
  .object [("path", .string failure.path.display), ("rule", .string failure.rule.name),
    ("message", .string failure.message)]

end Failure

abbrev Report := List Failure

namespace Report

/-- The failures, each behind two blanks, and a line feed between any two. -/
def text (report : Report) : String :=
  "\n".intercalate (report.map fun failure => "  " ++ failure.text)

def toJson (report : Report) : Json := .array (report.map Failure.toJson)

def hasRule (report : Report) (rule : Rule) : Bool := report.any (·.rule = rule)

/-- One failure at the root, for an error that is not the fault of a schema. -/
def internal (message : String) : Report := [⟨.root, .internalError, message⟩]

end Report

/-- What a failure is about, before it is put into words. -/
class Cause (α : Type) where
  rule : α → Rule
  message : α → String

/-- A cause at a place. -/
structure Located (α : Type) where
  path : Path
  cause : α
deriving DecidableEq, Repr

/-- The failure that a cause at a place is reported as. -/
def Located.failure {α : Type} [Cause α] (located : Located α) : Failure :=
  ⟨located.path, Cause.rule located.cause, Cause.message located.cause⟩

end ResourceTypes
