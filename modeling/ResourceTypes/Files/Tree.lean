import ResourceTypes.Files

/-!
Files held in memory, by the parts of their names. Directories are there as
far as files need them; above the tree there are only directories.
-/

namespace ResourceTypes

/-- A file whose octets are no text has no content. -/
abbrev FileTree := List (List String × Option String)

namespace FileTree

def ofFiles (files : List (String × Option String)) : FileTree :=
  files.map fun (name, content?) => ((FileName.partsBackward name).reverse, content?)

def file? (tree : FileTree) (place : List String) : Option (Option String) :=
  (tree.find? (·.1 = place)).map (·.2)

def isAbove (place : List String) : Bool := place.all (· = "..")

def isDirectory (tree : FileTree) (place : List String) : Bool :=
  isAbove place || tree.any fun (path, _) => place.isPrefixOf path && place ≠ path

/-- The place that a part of a name leads to from another. -/
def step (place : List String) (part : String) : List String :=
  if part = "" || part = "." then place
  else if part = ".." && !isAbove place then place.dropLast
  else place ++ [part]

/-- Follows the parts of a name; each but the last must lead to a directory. -/
def walk (tree : FileTree) (place : List String) : List String → Except ReadFault String
  | [] =>
    match tree.file? place with
    | some (some content) => .ok content
    | some none => .error .notText
    | none => .error (if tree.isDirectory place then .isDirectory else .missing)
  | part :: rest =>
    if (tree.file? place).isSome then .error .notDirectory
    else if !tree.isDirectory place then .error .missing
    else walk tree (step place part) rest

/-- The content of a file; of absolute names only the root of all is known. -/
def read (tree : FileTree) (name : String) : Except ReadFault String :=
  if name.isEmpty then .error .missing
  else if FileName.isAbsolute name then
    .error (if (FileName.partsBackward name).all (· = "..") then .isDirectory else .missing)
  else tree.walk [] (name.splitOn "/")

end FileTree

end ResourceTypes
