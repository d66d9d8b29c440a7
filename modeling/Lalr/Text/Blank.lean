import Lalr.Text.Ranges

set_option autoImplicit false

/-!
Blank characters. The property `White_Space` also delimits trimmed text; between
tokens the byte order mark counts as blank too.
-/

namespace Lalr.Text

/-- The property `White_Space`. -/
def whiteSpace : CharRanges :=
  [(0x9, 0xD), (0x20, 0x20), (0x85, 0x85), (0xA0, 0xA0), (0x1680, 0x1680), (0x2000, 0x200A),
    (0x2028, 0x2029), (0x202F, 0x202F), (0x205F, 0x205F), (0x3000, 0x3000)]

/-- A character of the property `White_Space`. -/
def isWhiteSpace (c : Char) : Bool :=
  whiteSpace.contains c

/-- A character that may stand between two tokens without meaning. -/
def isBlank (c : Char) : Bool :=
  isWhiteSpace c || c == '\ufeff'

theorem whiteSpace_ascending : whiteSpace.Ascending := by
  simp [whiteSpace, CharRanges.Ascending]

/-- The text without the white space at both of its ends. -/
def trimWhiteSpace (text : List Char) : List Char :=
  ((text.dropWhile isWhiteSpace).reverse.dropWhile isWhiteSpace).reverse

end Lalr.Text
