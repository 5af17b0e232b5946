import ResourceTypes.Descriptor
import ResourceTypes.Keyword
import ResourceTypes.Path

/-!
Schema trees: the keywords of a schema sorted by what they are for, right or
wrong, with the schemas inside it as children.
-/

namespace ResourceTypes

/-- What the keyword `type` holds. -/
inductive DeclaredType where
  | known (kind : SpelledKind)
  | unsupported (value : Json)

/-- A reference, before and after it is bound to the type it stands for. -/
inductive Reference where
  | unbound (id : String)
  | bound (id : String) (target : TypeDescriptor)

namespace Reference

def id : Reference → String
  | .unbound id | .bound id _ => id

def isBound : Reference → Bool
  | .unbound _ => false
  | .bound _ _ => true

end Reference

/-- The keywords of a schema that hold no schema. -/
structure Keywords where
  type : Option DeclaredType
  reference : Option Reference
  required : Option (List String)
  readOnly : Option Bool
  description : Option String
  polymorphism : List String
  validation : Attributes
  unknown : List String

def Keywords.none : Keywords := ⟨.none, .none, .none, .none, .none, [], [], []⟩

mutual

/-- A schema with the place that it was read from. -/
structure SchemaNode where
  path : Path
  keywords : Keywords
  properties : Option (List (String × SchemaNode))
  additional : Option Additional
  items : Option SchemaNode

/-- What the keyword `additionalProperties` holds. -/
inductive Additional where
  | allowed (flag : Bool)
  | typed (value : SchemaNode)

end

namespace SchemaNode

/-- A schema without keywords. -/
def blank (path : Path) : SchemaNode := ⟨path, .none, none, none, none⟩

instance : Inhabited SchemaNode := ⟨blank .root⟩

/-- The kind that the schema declares, if it is one of the six. -/
def declaredKind? (node : SchemaNode) : Option SpelledKind :=
  match node.keywords.type with
  | some (.known kind) => some kind
  | _ => none

/-- The type of additional properties, if they have one. -/
def mapValue? (node : SchemaNode) : Option SchemaNode :=
  match node.additional with
  | some (.typed value) => some value
  | _ => none

/-- The declared kind, but an object with typed additional properties is a map. -/
def effectiveKind (node : SchemaNode) (declared : SpelledKind) : Kind :=
  if declared = .object ∧ node.mapValue?.isSome then .map else declared.kind

def effectiveKind? (node : SchemaNode) : Option Kind :=
  node.declaredKind?.map node.effectiveKind

/-- The name of a keyword, if it is there. -/
def present {α : Type} (name : String) (value : Option α) : List String :=
  if value.isSome then [name] else []

/-- The keywords that may not stand beside a reference. -/
def nonReferenceKeywords (node : SchemaNode) : List String :=
  present "type" node.keywords.type ++ present "properties" node.properties ++
    present "additionalProperties" node.additional ++ present "items" node.items ++
    present "required" node.keywords.required ++ node.keywords.polymorphism ++
    Members.names node.keywords.validation ++ node.keywords.unknown

/-- The schemas directly inside: properties, the map value, items. -/
def children (node : SchemaNode) : List SchemaNode :=
  (node.properties.getD []).map (·.2) ++ node.mapValue?.toList ++ node.items.toList

mutual

/-- The references of a tree, each with its place, a node's own before its children's. -/
def references : SchemaNode → List (Path × Reference)
  | ⟨path, keywords, properties, additional, items⟩ =>
    keywords.reference.toList.map (path, ·) ++ propertyReferences properties ++
      additionalReferences additional ++ itemReferences items

def propertyReferences : Option (List (String × SchemaNode)) → List (Path × Reference)
  | some properties => listReferences properties
  | none => []

def listReferences : List (String × SchemaNode) → List (Path × Reference)
  | [] => []
  | (_, node) :: rest => node.references ++ listReferences rest

def additionalReferences : Option Additional → List (Path × Reference)
  | some (.typed value) => value.references
  | some (.allowed _) => []
  | none => []

def itemReferences : Option SchemaNode → List (Path × Reference)
  | some items => items.references
  | none => []

end

/-- The ids that a tree refers to, in order and with repetitions. -/
def referenceIds (node : SchemaNode) : List String := node.references.map (·.2.id)

end SchemaNode

end ResourceTypes
