/-
Sets of characters given by ranges of their numbers.

The character properties that the printed forms and the settings depend on are
tables of such ranges, one module a property.
-/
namespace Bindery.Text

/-- Ranges of character numbers, each with its first and its last. -/
abbrev CodeRanges := List (Nat × Nat)

/-- Whether a character lies in one of the ranges. -/
def CodeRanges.contains (ranges : CodeRanges) (c : Char) : Bool :=
  ranges.any fun range => range.1 ≤ c.toNat && c.toNat ≤ range.2

end Bindery.Text
