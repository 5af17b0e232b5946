import ResourceTypes.Text.Quoted

/-!
Places in a JSON value, as the members and list entries that lead to them.
Their displayed form joins member names by points and quotes the names that
would make it ambiguous.
-/

namespace ResourceTypes

/-- A step to a member of an object, or to an entry of a list. -/
inductive Step where
  | key (name : String)
  | index (position : Nat)
deriving DecidableEq, Repr

/-- The steps from the root to a place. -/
abbrev Path := List Step

namespace Path

def root : Path := []

/-- One step further, to a member. -/
def key (path : Path) (name : String) : Path := path ++ [.key name]

/-- One step further, to a list entry. -/
def index (path : Path) (position : Nat) : Path := path ++ [.index position]

/-- The steps to members alone. -/
def keysOnly (path : Path) : Path :=
  path.filter fun
    | .key _ => true
    | .index _ => false

/-- Names with these characters, and the empty name, are shown between quotes. -/
def needsQuotes (name : String) : Bool :=
  name.isEmpty || name.toList.any fun c => c = '.' || c = '[' || c = ']' || c = '"'

/-- One step as shown, given which characters are hidden between quotes. -/
def showStep (hidden : Char → Bool) (first : Bool) : Step → String
  | .index position => "[" ++ toString position ++ "]"
  | .key name =>
    if needsQuotes name then "[" ++ Text.quote hidden name ++ "]"
    else if first then name
    else "." ++ name

/-- The displayed form of a path, given which characters are hidden. -/
def displayWith (hidden : Char → Bool) : Path → String
  | [] => "(root)"
  | step :: rest =>
    showStep hidden true step ++ String.join (rest.map (showStep hidden false))

def display (path : Path) : String := path.displayWith Text.isHidden

end Path

end ResourceTypes
