import ResourceTypes.Report
import ResourceTypes.Schema.Node

/-!
The type that a schema tree describes. The tree has passed the grammar and its
references are bound; what those checks exclude is reported as a defect.
-/

namespace ResourceTypes

inductive Defect where
  | rootReference
  | untyped
  | arrayWithoutItems
  | unboundReference (id : String)
deriving DecidableEq, Repr

def Defect.message : Defect → String
  | .rootReference => "the root cannot be a reference"
  | .untyped => "node has no supported type"
  | .arrayWithoutItems => "array has no items schema"
  | .unboundReference id => "reference '" ++ id ++ "' reached the builder unresolved"

instance : Cause Defect := ⟨fun _ => .internalError, Defect.message⟩

namespace Meaning

/-- The type of this shape, with the attributes and notes of its schema. -/
def describe (keywords : Keywords) (shape : Shape) : TypeDescriptor :=
  ⟨shape, keywords.validation, keywords.description, keywords.readOnly.getD false⟩

/-- Keeps the notes of a map value or of items beside the reference that it is. -/
def noted (node : SchemaNode) (handle : TypeHandle) : TypeHandle :=
  handle.withNotes node.keywords.description (node.keywords.readOnly.getD false)

/-- The property that a handle makes, with the notes that stand beside its schema. -/
def propertyOf (required : List String) (name : String) (node : SchemaNode)
    (handle : TypeHandle) : Property :=
  ⟨name, handle, required.contains name, node.keywords.readOnly.getD false,
    node.keywords.description⟩

mutual

/-- The handle of a schema: shared if it is a reference, else written in place. -/
def handleOf : SchemaNode → Except (Located Defect) TypeHandle
  | ⟨path, keywords, properties, additional, items⟩ =>
    match keywords.reference with
    | some (.bound id target) => .ok (.referenced id target none false)
    | some (.unbound id) => .error ⟨path, .unboundReference id⟩
    | none =>
      match keywords.type with
      | some (.known .object) => do
        match ← mapValue additional with
        | some value => .ok (.authored (describe keywords (.map value)))
        | none => do
          let properties ← propertiesOf (keywords.required.getD []) properties
          .ok (.authored (describe keywords (.object properties)))
      | some (.known .array) => do
        let item ← itemType path items
        .ok (.authored (describe keywords (.array item)))
      | some (.known (.scalar kind)) => .ok (.authored (describe keywords (.scalar kind)))
      | _ => .error ⟨path, .untyped⟩

/-- The value type of an object's additional properties, which makes it a map. -/
def mapValue : Option Additional → Except (Located Defect) (Option TypeHandle)
  | some (.typed value) => do
    let handle ← handleOf value
    .ok (some (noted value handle))
  | some (.allowed _) => .ok none
  | none => .ok none

/-- The item type of an array, which stands at this path. -/
def itemType (path : Path) : Option SchemaNode → Except (Located Defect) TypeHandle
  | some items => do
    let handle ← handleOf items
    .ok (noted items handle)
  | none => .error ⟨path, .arrayWithoutItems⟩

def propertiesOf (required : List String) :
    Option (List (String × SchemaNode)) → Except (Located Defect) (List Property)
  | some properties => propertyList required properties
  | none => .ok []

/-- The properties in their order. -/
def propertyList (required : List String) :
    List (String × SchemaNode) → Except (Located Defect) (List Property)
  | [] => .ok []
  | (name, node) :: rest => do
    let handle ← handleOf node
    let properties ← propertyList required rest
    .ok (propertyOf required name node handle :: properties)

end

/-- The type that a document describes; its root is written in place. -/
def descriptor (root : SchemaNode) : Except (Located Defect) TypeDescriptor :=
  if root.keywords.reference.isSome then .error ⟨root.path, .rootReference⟩
  else (handleOf root).map TypeHandle.type

end Meaning

end ResourceTypes
