import ResourceTypes.Json
import ResourceTypes.Path

/-!
What stands at a place of a JSON value. A way down takes names to members of
objects and positions to entries of lists, and leads nowhere where there is none.
-/

namespace ResourceTypes

namespace Json

/-- The member of that name, if the value is an object and has one. -/
def member? : Json → String → Option Json
  | .object members, name => Members.get? members name
  | _, _ => none

/-- The item at that position, if the value is a list and is long enough. -/
def item? : Json → Nat → Option Json
  | .array items, position => items[position]?
  | _, _ => none

/-- What a path leads to, taken from a value on. -/
def at? : Json → Path → Option Json
  | value, [] => some value
  | value, .key name :: rest => (value.member? name).bind (·.at? rest)
  | value, .index position :: rest => (value.item? position).bind (·.at? rest)

@[simp] theorem member?_object (members : Members Json) (name : String) :
    (Json.object members).member? name = members.get? name := rfl

@[simp] theorem item?_array (items : List Json) (position : Nat) :
    (Json.array items).item? position = items[position]? := rfl

@[simp] theorem at?_root (value : Json) : value.at? .root = some value := rfl

theorem at?_append (value : Json) (path rest : Path) :
    value.at? (path ++ rest) = (value.at? path).bind (·.at? rest) := by
  induction path generalizing value with
  | nil => rfl
  | cons step path ih =>
      cases step with
      | key name =>
          rw [List.cons_append, at?, at?, Option.bind_assoc]
          simp only [ih]
      | index position =>
          rw [List.cons_append, at?, at?, Option.bind_assoc]
          simp only [ih]

theorem at?_key (value : Json) (path : Path) (name : String) :
    value.at? (path.key name) = (value.at? path).bind (·.member? name) := by
  rw [Path.key, at?_append]
  simp [at?]

theorem at?_index (value : Json) (path : Path) (position : Nat) :
    value.at? (path.index position) = (value.at? path).bind (·.item? position) := by
  rw [Path.index, at?_append]
  simp [at?]

end Json

end ResourceTypes
