import ResourceTypes.Schema.Malformed
import ResourceTypes.Schema.Node

/-!
Reading a JSON value as a schema tree. Members are read in their order, and
the first place with a value of the wrong type, or below the depth limit, ends
the reading.
-/

namespace ResourceTypes

namespace Schema

/-- The value of the keyword `type`; any value is kept. -/
def readType : Json → DeclaredType
  | .string word =>
    match SpelledKind.ofName? word with
    | some kind => .known kind
    | none => .unsupported (.string word)
  | value => .unsupported value

/-- What a keyword's value holds, if it is of the type that the keyword asks for. -/
def readAs {α : Type} (demand : Demand) (held? : Json → Option α) (path : Path)
    (keyword : String) (value : Json) : Except (Located Malformation) α :=
  match held? value with
  | some held => .ok held
  | none => .error ⟨path.key keyword, .wrongType keyword demand value⟩

/-- The entries of `required`, which stand at this path from a position on. -/
def readNames (path : Path) : Nat → List Json → Except (Located Malformation) (List String)
  | _, [] => .ok []
  | position, .string name :: rest => do
    let names ← readNames path (position + 1) rest
    .ok (name :: names)
  | position, found :: _ => .error ⟨path.index position, .requiredEntry found⟩

def readRequired (path : Path) (value : Json) : Except (Located Malformation) (List String) := do
  let entries ← readAs .names Json.items? path "required" value
  readNames (path.key "required") 0 entries

/-- Reads a keyword that holds no schema into the keywords so far. -/
def readKeyword (path : Path) (keywords : Keywords) (name : String) (value : Json) :
    Except (Located Malformation) Keywords :=
  match name with
  | "type" => .ok { keywords with type := some (readType value) }
  | "$ref" => do
    let id ← readAs .text Json.text? path "$ref" value
    .ok { keywords with reference := some (.unbound id) }
  | "required" => do
    let names ← readRequired path value
    .ok { keywords with required := some names }
  | "readOnly" => do
    let flag ← readAs .flag Json.flag? path "readOnly" value
    .ok { keywords with readOnly := some flag }
  | "description" => do
    let text ← readAs .text Json.text? path "description" value
    .ok { keywords with description := some text }
  | other =>
    match Keyword.classOf other with
    | .polymorphism => .ok { keywords with polymorphism := keywords.polymorphism ++ [other] }
    | .validation => .ok { keywords with validation := keywords.validation.insert other value }
    | _ => .ok { keywords with unknown := keywords.unknown ++ [other] }

mutual

/-- The schema that a value at a place is; `depth` schemas are open around it. -/
def readNode (limit : Nat) (path : Path) (depth : Nat) :
    Json → Except (Located Malformation) SchemaNode
  | .object members =>
    if limit < depth then .error ⟨path, .tooDeep limit⟩
    else readMembers limit depth members (.blank path)
  | found =>
    if limit < depth then .error ⟨path, .tooDeep limit⟩ else .error ⟨path, .notSchema found⟩

/-- Reads the members of a schema into the node so far. -/
def readMembers (limit depth : Nat) :
    List (String × Json) → SchemaNode → Except (Located Malformation) SchemaNode
  | [], node => .ok node
  | ("properties", value) :: rest, node =>
    match value with
    | .object schemas => do
      let properties ← readProperties limit (node.path.key "properties") (depth + 1) schemas
      readMembers limit depth rest { node with properties := some properties }
    | found =>
      .error ⟨node.path.key "properties", .wrongType "properties" .mapping found⟩
  | ("additionalProperties", value) :: rest, node =>
    match value with
    | .bool flag => readMembers limit depth rest { node with additional := some (.allowed flag) }
    | .object _ => do
      let typed ← readNode limit (node.path.key "additionalProperties") (depth + 1) value
      readMembers limit depth rest { node with additional := some (.typed typed) }
    | found =>
      .error ⟨node.path.key "additionalProperties",
        .wrongType "additionalProperties" .flagOrSchema found⟩
  | ("items", value) :: rest, node =>
    match value with
    | .object _ => do
      let items ← readNode limit (node.path.key "items") (depth + 1) value
      readMembers limit depth rest { node with items := some items }
    | found => .error ⟨node.path.key "items", .wrongType "items" .schema found⟩
  | (name, value) :: rest, node => do
    let keywords ← readKeyword node.path node.keywords name value
    readMembers limit depth rest { node with keywords }

/-- Reads the schemas of the keyword `properties`. -/
def readProperties (limit : Nat) (path : Path) (depth : Nat) :
    List (String × Json) → Except (Located Malformation) (List (String × SchemaNode))
  | [] => .ok []
  | (name, value) :: rest => do
    let node ← readNode limit (path.key name) depth value
    let nodes ← readProperties limit path depth rest
    .ok ((name, node) :: nodes)

end

/-- How deep schemas may nest unless a limit is set. -/
def defaultDepth : Nat := 64

/-- The schema tree of a value whose schemas nest no deeper than a limit. -/
def read (limit : Nat) (value : Json) : Except (Located Malformation) SchemaNode :=
  readNode limit .root 0 value

end Schema

end ResourceTypes
