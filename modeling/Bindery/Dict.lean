/-
Finite maps whose keys are texts.

A map is determined by what it holds, whatever order of insertions built it, and is
read out in the order of its keys by character numbers.
-/
import Std.Data.ExtTreeMap

namespace Bindery

/-- A finite map from texts. -/
abbrev Dict (α : Type) := Std.ExtTreeMap String α compare

end Bindery
