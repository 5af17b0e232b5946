import ResourceTypes.Schema.Node
import ResourceTypes.Schema.Violation

/-!
The grammar of the restricted schema language: which keywords may stand
together on a schema, and what values they may have. Every violation of a tree
is listed, a schema's own before those of the schemas inside it.
-/

namespace ResourceTypes

/-- Whether a value is of the JSON type that belongs to a kind. -/
def Json.isOfKind : Json → Kind → Bool
  | .string _, .scalar .string => true
  | .int _, .scalar .integer => true
  | .int _, .scalar .number => true
  | .float _, .scalar .number => true
  | .bool _, .scalar .boolean => true
  | .object _, .object => true
  | .object _, .map => true
  | .array _, .array => true
  | _, _ => false

namespace Grammar

/-- Violations, each with its place. -/
abbrev Findings := List (Located Violation)

/-- Where a schema stands, which decides how a missing type is reported. -/
inductive Position where
  | member
  | item
deriving DecidableEq, Repr

def Position.untyped : Position → Violation
  | .member => .untyped
  | .item => .untypedItem

/-- The entries of `enum` that are not of the kind, from a position on. -/
def checkEntries (path : Path) (kind : Kind) : Nat → List Json → Findings
  | _, [] => []
  | position, entry :: rest =>
    (if entry.isOfKind kind then [] else [⟨path.index position, .enumEntry entry kind⟩]) ++
      checkEntries path kind (position + 1) rest

/-- One validation keyword on a schema of this kind. -/
def checkAttribute (path : Path) (kind : Kind) (name : String) (value : Json) : Findings :=
  if Keyword.allows name kind = false then [⟨path.key name, .misplaced name kind⟩]
  else if name = "enum" then
    match value with
    | .array entries => checkEntries (path.key "enum") kind 0 entries
    | _ => [⟨path.key "enum", .enumNotList⟩]
  else if name = "default" ∧ value.isOfKind kind = false then
    [⟨path.key "default", .defaultValue value kind⟩]
  else []

/-- A keyword that is there although it does not belong on this kind. -/
def misplacedIf (present : Bool) (path : Path) (keyword : String) (kind : Kind) : Findings :=
  if present then [⟨path.key keyword, .misplaced keyword kind⟩] else []

/-- The entries of `required` that name no property, from a position on. -/
def checkRequired (path : Path) (declared : List String) : Nat → List String → Findings
  | _, [] => []
  | position, name :: rest =>
    (if name ∈ declared then [] else [⟨path.index position, .undeclaredRequired name⟩]) ++
      checkRequired path declared (position + 1) rest

/-- The rules for objects: one shape, typed additional properties, known requirements. -/
def checkObject (node : SchemaNode) : Findings :=
  (if node.properties.isSome ∧ node.mapValue?.isSome then [⟨node.path, .twoShapes⟩] else []) ++
  (match node.additional with
    | some (.allowed true) => [⟨node.path.key "additionalProperties", .openProperties⟩]
    | _ => []) ++
  checkRequired (node.path.key "required") (Members.names (node.properties.getD [])) 0
    (node.keywords.required.getD [])

/-- The rules for arrays: their items have a schema. -/
def checkArray (node : SchemaNode) : Findings :=
  if node.items.isSome then [] else [⟨node.path, .arrayWithoutItems⟩]

/-- The rules for a schema of a declared kind. -/
def checkKind (node : SchemaNode) (declared : SpelledKind) : Findings :=
  let kind := declared.kind
  let onObject := declared = .object
  misplacedIf (node.properties.isSome && !onObject) node.path "properties" kind ++
  misplacedIf (node.additional.isSome && !onObject) node.path "additionalProperties" kind ++
  misplacedIf (node.keywords.required.isSome && !onObject) node.path "required" kind ++
  misplacedIf (node.items.isSome && declared ≠ .array) node.path "items" kind ++
  -- a map is held to the keywords of maps, although it is declared an object
  node.keywords.validation.flatMap
    (fun (name, value) => checkAttribute node.path (node.effectiveKind declared) name value) ++
  (match declared with
    | .object => checkObject node
    | .array => checkArray node
    | .scalar _ => [])

/-- The rules for the type of a schema that is not a reference. -/
def checkType (position : Position) (node : SchemaNode) : Findings :=
  match node.keywords.type with
  | none => [⟨node.path, position.untyped⟩]
  | some (.unsupported value) => [⟨node.path, .unsupportedType value⟩]
  | some (.known declared) => checkKind node declared

/-- What stands beside a reference. -/
def checkReference (node : SchemaNode) : Findings :=
  if node.nonReferenceKeywords = [] then []
  else [⟨node.path, .notExclusive node.nonReferenceKeywords⟩]

/-- The violations of one schema, those of the schemas inside it left aside. -/
def checkOwn (position : Position) (node : SchemaNode) : Findings :=
  node.keywords.polymorphism.map (⟨node.path, .polymorphic ·⟩) ++
  node.keywords.unknown.map (⟨node.path, .unknownKeyword ·⟩) ++
  (if node.keywords.reference.isSome then checkReference node else checkType position node)

mutual

/-- The violations of a schema and of all schemas inside it. -/
def check (position : Position) : SchemaNode → Findings
  | node@⟨_, _, properties, additional, items⟩ =>
    checkOwn position node ++ checkProperties properties ++ checkAdditional additional ++
      checkItems items

def checkProperties : Option (List (String × SchemaNode)) → Findings
  | some properties => checkList properties
  | none => []

def checkList : List (String × SchemaNode) → Findings
  | [] => []
  | (_, node) :: rest => check .member node ++ checkList rest

def checkAdditional : Option Additional → Findings
  | some (.typed value) => check .member value
  | some (.allowed _) => []
  | none => []

def checkItems : Option SchemaNode → Findings
  | some items => check .item items
  | none => []

end

/-- The rules for the root alone: an object written in place. -/
def checkRoot (root : SchemaNode) : Findings :=
  if root.keywords.reference.isSome then [⟨root.path, .rootReference⟩]
  else
    match root.effectiveKind? with
    | none | some .object => []
    | some .map => [⟨root.path, .rootMap⟩]
    | some kind => [⟨root.path, .rootKind kind⟩]

/-- All violations of a document. -/
def violations (root : SchemaNode) : Findings := checkRoot root ++ check .member root

end Grammar

end ResourceTypes
