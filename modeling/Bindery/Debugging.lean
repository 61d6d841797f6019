/-
Debuggers and registries.

A debugger is a switch and a sink.  While the switch is on and there is a sink, the
place of every callable that is bound is handed to the sink.  A registry is the usual
sink: it keeps the last place of each name.

Debuggers and registries are shared, so they are kept in one place and named by
their number.
-/
import Bindery.Dict
import Bindery.Event

namespace Bindery

structure DebuggerId where
  index : Nat
  deriving DecidableEq, Repr, Inhabited

structure RegistryId where
  index : Nat
  deriving DecidableEq, Repr, Inhabited

/-- The last place of each name. -/
abbrev Registry := Dict SourceRange

/-- What becomes of the place of a callable. -/
inductive Sink where
  /-- It is kept in a registry. -/
  | registry (id : RegistryId)
  /-- It is announced as an event. -/
  | announce
  /-- It is kept in a registry and the debugger switched off. -/
  | once (id : RegistryId)
  /-- A registry takes over as the sink and gets it under another name. -/
  | handOver (id : RegistryId)
  deriving DecidableEq, Repr

/-- A switch and a sink. -/
structure Debugger where
  enabled : Bool := false
  sink? : Option Sink := none
  deriving DecidableEq, Repr, Inhabited

namespace Debugger

/-- Whether places reach a sink. -/
def isActive (d : Debugger) : Bool :=
  d.enabled && d.sink?.isSome

/-- A debugger that is on and has a sink. -/
def withSink (sink : Sink) : Debugger :=
  ⟨true, some sink⟩

/-- The debug form of a debugger: its switch, and whether it has a sink. -/
def debug (d : Debugger) : String :=
  "Debugger \x7b enabled: " ++ toString d.enabled ++ ", sink: " ++ toString d.sink?.isSome
    ++ " \x7d"

end Debugger

/-- All debuggers and registries, in the order of their numbers. -/
structure Debugging where
  debuggers : Array Debugger := #[]
  registries : Array Registry := #[]

namespace Debugging

def debugger (g : Debugging) (d : DebuggerId) : Debugger :=
  g.debuggers.getD d.index {}

def registry (g : Debugging) (r : RegistryId) : Registry :=
  g.registries.getD r.index ∅

def newDebugger (g : Debugging) (debugger : Debugger) : DebuggerId × Debugging :=
  (⟨g.debuggers.size⟩, { g with debuggers := g.debuggers.push debugger })

def newRegistry (g : Debugging) : RegistryId × Debugging :=
  (⟨g.registries.size⟩, { g with registries := g.registries.push ∅ })

def setDebugger (g : Debugging) (d : DebuggerId) (debugger : Debugger) : Debugging :=
  { g with debuggers := g.debuggers.setIfInBounds d.index debugger }

def setEnabled (g : Debugging) (d : DebuggerId) (enabled : Bool) : Debugging :=
  g.setDebugger d { g.debugger d with enabled }

def setSink (g : Debugging) (d : DebuggerId) (sink : Sink) : Debugging :=
  g.setDebugger d { g.debugger d with sink? := some sink }

/-- Keeps the place of a name in a registry, instead of the one it had. -/
def keep (g : Debugging) (r : RegistryId) (name : String) (range : SourceRange) : Debugging :=
  { g with registries := g.registries.setIfInBounds r.index ((g.registry r).insert name range) }

/-- The name under which a registry that takes over gets the place of `name`. -/
def handedOver (name : String) : String := "swapped " ++ name

/--
What the sink of a debugger does with the place of a name, and the events it makes.
A registry that takes over gets the place through the debugger, which is on.
-/
def record (g : Debugging) (d : DebuggerId) (sink : Sink) (name : String) (range : SourceRange) :
    Debugging × List Event :=
  match sink with
  | .registry r => (g.keep r name range, [])
  | .announce => (g, [.announced name range])
  | .once r => ((g.keep r name range).setEnabled d false, [])
  | .handOver r =>
    ((g.setSink d (.registry r)).keep r (handedOver name) range,
      [.recording (handedOver name) range])

/-- Hands the place of a name to the sink of a debugger, if the debugger is on and has one. -/
def emit (g : Debugging) (d : DebuggerId) (name : String) (range : SourceRange) :
    Debugging × List Event :=
  match g.debugger d with
  | ⟨true, some sink⟩ =>
    let (g, events) := g.record d sink name range
    (g, .recording name range :: events)
  | _ => (g, [])

end Debugging

end Bindery
