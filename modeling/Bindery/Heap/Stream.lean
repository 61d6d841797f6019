/-
Line streams.

A stream buffers lines.  Lines are read in the order in which they were written; a
closed stream takes no more lines, but those it holds can still be read.
-/
namespace Bindery

/-- A stream: the lines that wait to be read, and whether it is closed. -/
structure LineStream where
  lines : List String := []
  closed : Bool := false
  deriving DecidableEq, Repr, Inhabited

namespace LineStream

/-- Adds a line at the end, unless the stream is closed, and says whether it did. -/
def write (s : LineStream) (line : String) : Bool × LineStream :=
  if s.closed then (false, s) else (true, { s with lines := s.lines ++ [line] })

/-- Takes the first line, if one waits. -/
def read (s : LineStream) : Option String × LineStream :=
  (s.lines.head?, { s with lines := s.lines.tail })

/-- Refuses lines from now on. -/
def close (s : LineStream) : LineStream :=
  { s with closed := true }

/-- How many lines wait. -/
def pending (s : LineStream) : Nat :=
  s.lines.length

end LineStream

end Bindery
