import ResourceTypes.Yaml.Character

/-!
Places in a text, by line and column, and cursors, which hold what is left of
a text together with its place. Within a line octets are counted as well,
since the length of a key is bounded in them.
-/

namespace ResourceTypes.Yaml

/-- Lines are counted from zero, and what is in front of the place on its line. -/
structure Place where
  line : Nat
  /-- How many characters stand in front. -/
  column : Nat
  /-- How many octets stand in front. -/
  octets : Nat
deriving DecidableEq, Repr

namespace Place

def start : Place := ⟨0, 0, 0⟩

def after (place : Place) (c : Char) : Place :=
  if isBreak c then ⟨place.line + 1, 0, 0⟩
  else ⟨place.line, place.column + 1, place.octets + c.utf8Size⟩

end Place

structure Cursor where
  rest : List Char
  place : Place

namespace Cursor

def start (input : List Char) : Cursor := ⟨input, .start⟩

def skip (cursor : Cursor) (count : Nat) : Cursor :=
  ⟨cursor.rest.drop count, (cursor.rest.take count).foldl Place.after cursor.place⟩

/-- The cursor that leaves a later part of the text. -/
def leaving (cursor : Cursor) (rest : List Char) : Cursor :=
  cursor.skip (cursor.rest.length - rest.length)

end Cursor

end ResourceTypes.Yaml
