/-!
Tokens of YAML texts. Blocks have a token where their indentation begins and
where it ends, so that nothing behind this stage counts columns.
-/

namespace ResourceTypes.Yaml

/-- How a scalar is written, as far as its meaning may depend on it. -/
inductive Style where
  | plain | quoted | literal | folded
deriving DecidableEq, Repr

/-- Tags are octets: an escape may write some that are no text. -/
abbrev Octets := List UInt8

inductive Token where
  | version (major minor : Nat)
  /-- The octets that a tag handle stands for. -/
  | handle (name : String) (octets : Octets)
  | documentStart
  | documentEnd
  | blockSequence
  | blockMapping
  | blockEnd
  | flowSequence
  | flowSequenceEnd
  | flowMapping
  | flowMappingEnd
  | entry
  | comma
  | key
  | value
  | alias (name : String)
  | anchor (name : String)
  /-- A tag without a handle is written in full. -/
  | tag (handle? : Option String) (suffix : Octets)
  | scalar (style : Style) (text : String)
deriving DecidableEq, Repr

end ResourceTypes.Yaml
