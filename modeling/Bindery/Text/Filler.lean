/-
The letters that hold a place and print nothing.

These are the characters with the Unicode property Default_Ignorable_Code_Point that
neither combine with the one before them nor lack a printed form by their category:
the four Hangul fillers, which stand for a missing part of a syllable.
-/
import Bindery.Text.CodeRanges

namespace Bindery.Text

/-- The Hangul fillers. -/
def fillerRanges : CodeRanges :=
  [(0x115F, 0x1160), (0x3164, 0x3164), (0xFFA0, 0xFFA0)]

end Bindery.Text
