/-
Blank characters, and text without the blanks around it.

A character is blank when it has the Unicode property White_Space: 25 characters,
among them the line and paragraph separators, but neither the zero width space nor
the byte order mark.
-/
import Bindery.Text.CodeRanges

namespace Bindery.Text

/-- The characters with the property White_Space. -/
def blankRanges : CodeRanges :=
  [(0x9, 0xD), (0x20, 0x20), (0x85, 0x85), (0xA0, 0xA0), (0x1680, 0x1680),
   (0x2000, 0x200A), (0x2028, 0x2029), (0x202F, 0x202F), (0x205F, 0x205F),
   (0x3000, 0x3000)]

/-- Whether a character is blank. -/
def isBlank (c : Char) : Bool :=
  blankRanges.contains c

/-- The characters without the blanks at either end. -/
def trimBlanks (cs : List Char) : List Char :=
  ((cs.dropWhile isBlank).reverse.dropWhile isBlank).reverse

end Bindery.Text
