import ResourceTypes.Decoding
import ResourceTypes.Yaml.Document
import ResourceTypes.Yaml.Scalar

/-!
Decoding from YAML documents. Aliases stand for their nodes, as often as the
document's limit allows; a list, a dictionary or a record may be left out.
-/

namespace ResourceTypes.Yaml

/-- A node of a document, and how many collections may still be opened. -/
structure Slot where
  document : Document
  node : Node
  room : Nat

namespace Node

/-- A node, or the node that it is an alias of, which is itself no alias. -/
def follow (document : Document) : Node → Decoder Node
  | .alias anchor => do
    match ← get with
    | 0 => failure
    | left + 1 =>
      set left
      document.target? anchor
  | node => pure node

def text (document : Document) (node : Node) : Decoder String := do
  match ← node.follow document with
  | .scalar _ s => return s.text
  | _ => failure

/-- The value of a node; a collection must not have a tag of its document alone. -/
def value (document : Document) : Nat → Node → Decoder Json
  | 0, node => do
    match ← node.follow document with
    | .scalar _ s => s.value?
    | _ => failure
  | room + 1, node => do
    match ← node.follow document with
    | .scalar _ s => s.value?
    | .sequence _ tag? items =>
      guard (!tag?.any Tag.isLocal)
      return .array (← items.mapM (value document room))
    | .mapping _ tag? members =>
      guard (!tag?.any Tag.isLocal)
      return Json.ofPairs (← members.mapM fun (key, member) => do
        return (← key.text document, ← value document room member))
    | .alias _ => failure

end Node

namespace Slot

def fullRoom : Nat := 128

def ofDocument (document : Document) : Slot := ⟨document, document.root, fullRoom⟩

def follow (slot : Slot) : Decoder Slot := do
  return { slot with node := ← slot.node.follow slot.document }

def scalar (slot : Slot) : Decoder Scalar := do
  match (← slot.follow).node with
  | .scalar _ s => return s
  | _ => failure

def part (slot : Slot) (node : Node) : Slot := { slot with node, room := slot.room - 1 }

def items (slot : Slot) : Decoder (List Slot) := do
  match (← slot.follow).node, slot.room with
  | .sequence _ _ items, _ + 1 => return items.map slot.part
  | .scalar _ s, _ => if s.isOmitted then return [] else failure
  | _, _ => failure

def entries (slot : Slot) : Decoder (List (String × Slot)) := do
  match (← slot.follow).node, slot.room with
  | .mapping _ _ members, _ + 1 =>
    members.mapM fun (key, member) => do
      return (← key.text slot.document, slot.part member)
  | .scalar _ s, _ => if s.isOmitted then return [] else failure
  | _, _ => failure

def fields (names : List String) (slot : Slot) : Decoder (Members Slot) := do
  let known := (← slot.entries).filter fun (name, _) => names.contains name
  if (Members.names known).Nodup then return known else failure

def present? (slot : Slot) : Decoder (Option Slot) := do
  let slot ← slot.follow
  match slot.node with
  | .scalar _ s => return if ← s.isPresent? then some slot else none
  | _ => return some slot

instance : Source Slot where
  text slot := slot.node.text slot.document
  flag slot := do (← slot.scalar).flag?
  size slot := do (← slot.scalar).size?
  value slot := slot.node.value slot.document slot.room
  items := items
  entries := entries
  fields := fields
  present? := present?

end Slot

end ResourceTypes.Yaml
