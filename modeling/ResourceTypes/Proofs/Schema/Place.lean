import ResourceTypes.Proofs.Acceptance
import ResourceTypes.Proofs.Json.Place

/-!
Places in a schema document. A path from the root leads to a schema, to a
keyword of one, or to an entry of the list under a keyword; the nodes of a tree
that was read keep the paths of their schemas.
-/

namespace ResourceTypes

namespace Language

/-- A schema stands at a path in a document, so many schemas below its root. -/
inductive Place (document : Json) : Path → Nat → Json → Prop
  | root : Place document .root 0 document
  | property {path : Path} {hops : Nat} {members schemas : Members Json} {name : String}
      {schema : Json} (around : Place document path hops (.object members))
      (here : members.get? "properties" = some (.object schemas))
      (named : schemas.get? name = some schema) :
      Place document ((path.key "properties").key name) (hops + 1) schema
  | value {path : Path} {hops : Nat} {members fields : Members Json}
      (around : Place document path hops (.object members))
      (here : members.get? "additionalProperties" = some (.object fields)) :
      Place document (path.key "additionalProperties") (hops + 1) (.object fields)
  | items {path : Path} {hops : Nat} {members : Members Json} {schema : Json}
      (around : Place document path hops (.object members))
      (here : members.get? "items" = some schema) :
      Place document (path.key "items") (hops + 1) schema

/-- What a path can lead to, told as a part of a schema. -/
inductive Spot where
  | schema (hops : Nat) (value : Json)
  | keyword (members : Members Json) (name : String) (value : Json)
  | entry (members : Members Json) (name : String) (value : Json)

/-- The value at the end of the path. -/
def Spot.value : Spot → Json
  | .schema _ value | .keyword _ _ value | .entry _ _ value => value

/-- A path leads to a spot of a document. -/
inductive Marks (document : Json) : Path → Spot → Prop
  | schema {path : Path} {hops : Nat} {value : Json} (place : Place document path hops value) :
      Marks document path (.schema hops value)
  | keyword {path : Path} {hops : Nat} {members : Members Json} {name : String} {value : Json}
      (place : Place document path hops (.object members))
      (here : members.get? name = some value) :
      Marks document (path.key name) (.keyword members name value)
  | entry {path : Path} {hops : Nat} {members : Members Json} {name : String}
      {entries : List Json} {position : Nat} {value : Json}
      (place : Place document path hops (.object members))
      (here : members.get? name = some (.array entries))
      (there : entries[position]? = some value) :
      Marks document ((path.key name).index position) (.entry members name value)

section Place

variable {document schema : Json} {path : Path} {hops : Nat} {members : Members Json}
  {name : String} {value : Json}

theorem at?_member (h : document.at? path = some (.object members))
    (hfound : members.get? name = some value) : document.at? (path.key name) = some value := by
  rw [Json.at?_key, h, Option.bind_some, Json.member?_object, hfound]

/-- The path to a schema can be walked. -/
theorem Place.at? (h : Place document path hops schema) : document.at? path = some schema := by
  induction h with
  | root => rfl
  | property around here named ih => exact at?_member (at?_member ih here) named
  | value around here ih => exact at?_member ih here
  | items around here ih => exact at?_member ih here

theorem Place.stands (h : Place document path hops schema) : Stands document hops schema := by
  induction h with
  | root => exact .root
  | property around here named ih => exact .inside ih (.property here (Members.mem_of_get? named))
  | value around here ih => exact .inside ih (.value here)
  | items around here ih => exact .inside ih (.items here)

/-- The path to a spot can be walked, and ends at its value. -/
theorem Marks.at? {spot : Spot} (h : Marks document path spot) :
    document.at? path = some spot.value := by
  cases h with
  | schema place => exact place.at?
  | keyword place here => exact at?_member place.at? here
  | entry place here there =>
      rw [Json.at?_index, at?_member place.at? here, Option.bind_some, Json.item?_array, there]
      rfl

end Place

open Schema

section Nodes

variable {limit hops : Nat} {path : Path} {document schema : Json} {root node : SchemaNode}

/-- The schema of a node stands where the node says, and its members fill it. -/
structure Standing (limit : Nat) (document : Json) (node : SchemaNode) (hops : Nat)
    (members : Members Json) : Prop where
  place : Place document node.path hops (.object members)
  proper : (Json.object members).Proper
  filled : Filled limit hops members (.blank node.path) node

theorem standing_of_readNode (hproper : document.Proper) (hplace : Place document path hops schema)
    (hread : readNode limit path hops schema = .ok node) :
    ∃ members, Standing limit document node hops members := by
  have hschema := hplace.stands.proper hproper
  obtain ⟨members, rfl, -, -, hfilled⟩ := filled_of_readNode hschema hread
  have hpath : node.path = path := hfilled.path
  rw [← hpath] at hplace hfilled
  exact ⟨members, hplace, hschema, hfilled⟩

/-- Below a node that stands in a document, its children stand one schema further down. -/
theorem Standing.child (hproper : document.Proper) {members : Members Json}
    (h : Standing limit document node hops members) {child : SchemaNode}
    (hchild : child ∈ node.children) :
    ∃ members, Standing limit document child (hops + 1) members := by
  obtain ⟨hplace, hmembers, hfilled⟩ := h
  rcases SchemaNode.mem_children.1 hchild with ⟨nodes, hnodes, name, hmem⟩ | hvalue | hitem
  · obtain ⟨_, hfound, schemas, rfl, hall⟩ := hfilled.properties.source hnodes
    obtain ⟨⟨name', schema⟩, hschema, hname, hread⟩ := exists_mem_left hall hmem
    have hschemas : (Json.object schemas).Proper :=
      Json.properMembers_iff.1 hmembers.2 _ (Members.mem_of_get? hfound)
    exact standing_of_readNode hproper
      (.property hplace hfound (Members.get?_of_mem hschemas.1 hschema)) hread
  · obtain ⟨_, hfound, ⟨flag, -, hflag⟩ | ⟨fields, _, rfl, htyped, hread⟩⟩ :=
      hfilled.additional.source hvalue
    · cases hflag
    · obtain rfl := Additional.typed.inj htyped
      exact standing_of_readNode hproper (.value hplace hfound) hread
  · obtain ⟨_, hfound, fields, rfl, hread⟩ := hfilled.items.source hitem
    exact standing_of_readNode hproper (.items hplace hfound) hread

/-- Every node of a tree that was read stands in the document. -/
theorem standing_of_holds (hproper : document.Proper) (hread : read limit document = .ok root)
    (h : root.Holds node) : ∃ hops members, Standing limit document node hops members := by
  induction h with
  | refl => exact ⟨0, standing_of_readNode hproper .root hread⟩
  | tail _ hchild ih =>
      obtain ⟨hops, members, hstanding⟩ := ih
      exact ⟨hops + 1, hstanding.child hproper hchild⟩

end Nodes

end Language

end ResourceTypes
