/-!
Characters of YAML texts: which ones may stand in a text at all, which ones
separate words, and the marks between documents.
-/

namespace ResourceTypes.Yaml

def isAllowed (c : Char) : Bool :=
  let n := c.toNat
  c = '\t' || c = '\n' || c = '\r' || (0x20 ≤ n && n ≤ 0x7E) || n = 0x85 ||
    (0xA0 ≤ n && n ≤ 0xFFFD) || 0x10000 ≤ n

/-- A line break, in texts whose other line ends have been unified. -/
def isBreak (c : Char) : Bool := c = '\n' || c = '\u2028' || c = '\u2029'

def isBlank (c : Char) : Bool := c = ' ' || c = '\t'

def isSpacing (c : Char) : Bool := isBlank c || isBreak c

/-- A mark that may stand in front of a line without being part of it. -/
def isByteOrderMark (c : Char) : Bool := c = '\uFEFF'

/-- The characters of anchors and of the names of tag handles. -/
def isWordChar (c : Char) : Bool := c.isAlphanum || c = '_' || c = '-'

/-- Writes a line feed for each line end that is a return, alone or not, or a next line. -/
def unifyLineEnds : List Char → List Char
  | '\r' :: '\n' :: rest => '\n' :: unifyLineEnds rest
  | '\r' :: rest => '\n' :: unifyLineEnds rest
  | c :: rest => (if c.toNat = 0x85 then '\n' else c) :: unifyLineEnds rest
  | [] => []

/-- The characters of a text, with unified line ends, if all of them are allowed. -/
def characters? (text : String) : Option (List Char) :=
  if text.toList.all isAllowed then some (unifyLineEnds text.toList) else none

/-- Whether a word ends here: at a blank, a line break or the end of the text. -/
def endsWord : List Char → Bool
  | [] => true
  | c :: _ => isSpacing c

/-- Whether the line that begins here starts or ends a document. -/
def isDocumentMark : List Char → Bool
  | '-' :: '-' :: '-' :: rest => endsWord rest
  | '.' :: '.' :: '.' :: rest => endsWord rest
  | _ => false

end ResourceTypes.Yaml
