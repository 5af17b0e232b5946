/-!
White space: the characters that count as blank in names.
-/

namespace ResourceTypes.Text

def isWhite (c : Char) : Bool :=
  let n := c.toNat
  (9 ≤ n && n ≤ 13) || n = 0x20 || n = 0x85 || n = 0xA0 || n = 0x1680 ||
    (0x2000 ≤ n && n ≤ 0x200A) || n = 0x2028 || n = 0x2029 || n = 0x202F || n = 0x205F ||
    n = 0x3000

/-- Whether a text consists of white space, if of anything. -/
def isBlank (text : String) : Bool := text.toList.all isWhite

end ResourceTypes.Text
