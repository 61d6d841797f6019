/-
What all namespaces share: the heap, the debuggers and registries, and the trace of
the events so far.
-/
import Bindery.Debugging
import Bindery.Heap

namespace Bindery

/-- What all namespaces share. -/
structure World where
  heap : Heap := {}
  debugging : Debugging := {}
  trace : Array Event := #[]

namespace World

/-- Adds events to the trace. -/
def log (w : World) (events : List Event) : World :=
  { w with trace := w.trace ++ events }

/-- Hands the place of a name to the sink of a debugger. -/
def emit (w : World) (d : DebuggerId) (name : String) (range : SourceRange) : World :=
  let (debugging, events) := w.debugging.emit d name range
  { w with debugging }.log events

end World

end Bindery
