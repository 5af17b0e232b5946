import ResourceTypes.Yaml.Cursor

/-!
Gaps between the words of a scalar that may run over several lines. A single
line break is read as a blank, and of more breaks the first is dropped.
-/

namespace ResourceTypes.Yaml

structure Gap where
  /-- Whether the line was continued by an escaped break. -/
  continued : Bool
  /-- The blanks in front of the first break, the last one first. -/
  blanks : List Char
  /-- The line breaks, the last one first. -/
  breaks : List Char

namespace Gap

def empty : Gap := ⟨false, [], []⟩

/-- The gap that begins with an escaped break. -/
def continuation : Gap := ⟨true, [], []⟩

def isEmpty (gap : Gap) : Bool := gap.blanks.isEmpty && gap.breaks.isEmpty

/-- Whether blanks here stand in front of a line and not behind one. -/
def indents (gap : Gap) : Bool := gap.continued || !gap.breaks.isEmpty

def add (gap : Gap) (c : Char) : Gap :=
  if isBreak c then { gap with breaks := c :: gap.breaks }
  else if gap.indents then gap
  else { gap with blanks := c :: gap.blanks }

/-- What the gap is read as, the last character first. -/
def folded (gap : Gap) : List Char :=
  if gap.continued then gap.breaks
  else match gap.breaks.reverse with
    | [] => gap.blanks
    | ['\n'] => [' ']
    | '\n' :: more => more.reverse
    | _ => gap.breaks

end Gap

end ResourceTypes.Yaml
