/-
Where in its sources a callable was bound.

A binding is made from a range of lines of one file.  Whoever makes it may state
any part of that range; the parts left open come from the calling place, which is
known only as `<caller>`, line 0.
-/
namespace Bindery

/-- A range of lines of one file. -/
structure SourceRange where
  file : String
  first : UInt32
  last : UInt32
  deriving DecidableEq, Repr, Inhabited

namespace SourceRange

/-- A single line of a file. -/
def line (file : String) (number : UInt32) : SourceRange :=
  ⟨file, number, number⟩

/-- The calling place. -/
def caller : SourceRange := line "<caller>" 0

/-- The range as it is written: file, first line, last line. -/
def text (range : SourceRange) : String :=
  range.file ++ ":" ++ toString range.first.toNat ++ "-" ++ toString range.last.toNat

end SourceRange

/-- What is stated of a source range. -/
structure RangeHint where
  file? : Option String := none
  first? : Option UInt32 := none
  last? : Option UInt32 := none
  deriving DecidableEq, Repr, Inhabited

/--
The range that a hint stands for.  A file or first line that is not stated is the
calling place's; a last line that is not stated is the first line.
-/
def RangeHint.resolve (hint : RangeHint) : SourceRange :=
  let first := hint.first?.getD SourceRange.caller.first
  ⟨hint.file?.getD SourceRange.caller.file, first, hint.last?.getD first⟩

end Bindery
