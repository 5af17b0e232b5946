/-!
Names of files, and why a file could not be read as a text. A name is a list
of parts between slashes; a part that is a single dot counts only in front.
-/

namespace ResourceTypes

inductive ReadFault where
  | missing
  /-- A part in front of the last one is a file. -/
  | notDirectory
  | isDirectory
  | notText
  | other (reason : String) (code : Nat)
deriving DecidableEq, Repr

def ReadFault.message : ReadFault → String
  | .missing => "No such file or directory (os error 2)"
  | .notDirectory => "Not a directory (os error 20)"
  | .isDirectory => "Is a directory (os error 21)"
  | .notText => "stream did not contain valid UTF-8"
  | .other reason code => reason ++ " (os error " ++ toString code ++ ")"

namespace FileName

def isAbsolute (name : String) : Bool := name.toList.head? = some '/'

/-- The parts of a name from the last to the first, without those that say nothing. -/
def partsBackward (name : String) : List String :=
  (name.splitOn "/").reverse.filter fun part => part ≠ "" && part ≠ "."

/-- What stands behind the last dot of the last part, unless that dot is its first character. -/
def extension? (name : String) : Option String := do
  let last ← (partsBackward name).head?
  if last = ".." then none
  match (last.splitOn ".").reverse with
  | extension :: before =>
    if before.isEmpty || before = [""] then none else some extension
  | [] => none

/-- Drops the slashes at the end of a name, and the parts that are a single dot. -/
def trimEnd : List Char → List Char
  | '/' :: rest => trimEnd rest
  | '.' :: '/' :: rest => trimEnd ('/' :: rest)
  | rest => rest

/-- The directory that a file's name is in, which is empty for a name of one part. -/
def directory (name : String) : String :=
  let before := name.toList.reverse.dropWhile (· ≠ '/')
  let trimmed := String.ofList (trimEnd before).reverse
  if trimmed.isEmpty && !before.isEmpty then "/" else trimmed

/-- A name relative to a directory; an absolute name stands for itself. -/
def join (directory name : String) : String :=
  if isAbsolute name || directory.isEmpty then name
  else if directory.toList.getLast? = some '/' then directory ++ name
  else directory ++ "/" ++ name

end FileName

end ResourceTypes
