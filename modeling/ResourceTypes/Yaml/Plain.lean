import ResourceTypes.Yaml.Gap

/-!
Plain scalars, which have no quotes: they end in front of a comment, a colon
behind a word, a mark between documents, or a line that is indented too little.
-/

namespace ResourceTypes.Yaml.Plain

/-- Where a plain scalar stands: in a flow collection or not, and its least column. -/
structure Context where
  inFlow : Bool
  margin : Nat

def isFlowMark (c : Char) : Bool :=
  c = ',' || c = '[' || c = ']' || c = '\x7b' || c = '\x7d'

/-- Whether a new word cannot continue the scalar. -/
def endsBefore (context : Context) (input : List Char) (place : Place) : Bool :=
  (!context.inFlow && place.column < context.margin) ||
    (place.column = 0 && isDocumentMark input) || input.head? = some '#'

/-- Whether a character, followed by some text, ends the scalar. -/
def endsAt (context : Context) (c : Char) (rest : List Char) : Bool :=
  (c = ':' && endsWord rest) || (context.inFlow && isFlowMark c)

/-- A colon in a flow collection has a blank behind it, or belongs to a word. -/
def isMisplaced (context : Context) (c : Char) (rest : List Char) : Bool :=
  context.inFlow && c = ':' && rest.head?.any fun next => isFlowMark next || next = '?'

/-- A plain scalar, and whether the text goes on behind it on a new line. -/
structure Result where
  text : String
  newLine : Bool
  cursor : Cursor

def read (context : Context) (text : List Char) (gap : Gap) :
    List Char → Place → Option Result
  | [], place => some ⟨String.ofList text.reverse, gap.indents, ⟨[], place⟩⟩
  | c :: rest, place =>
    if isSpacing c then
      if c = '\t' ∧ gap.indents ∧ place.column < context.margin then none
      else read context text (gap.add c) rest (place.after c)
    else if !gap.isEmpty && endsBefore context (c :: rest) place then
      some ⟨String.ofList text.reverse, gap.indents, ⟨c :: rest, place⟩⟩
    else if isMisplaced context c rest then none
    else if endsAt context c rest then
      some ⟨String.ofList text.reverse, gap.indents, ⟨c :: rest, place⟩⟩
    else read context (c :: (gap.folded ++ text)) .empty rest (place.after c)

end ResourceTypes.Yaml.Plain
