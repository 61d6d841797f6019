/-
Namespaces and realms are isolated.

Whatever a host is asked, what it is not addressed to stays as it is: the namespaces in other
places, and the other realms with all that they keep.  Of debuggers, a request reaches that of the
namespace which it is asked of, and leaves it as it is unless the sink sets it anew; of registries
it reaches the one that this sink refers to at that moment.  All others stay as they are.  This is
so of every host, whatever was done before.

In a session no two realms share a debugger or a registry.  So what is asked of a namespace that a
realm keeps does not reach the debugger of another.  What is asked of a namespace that a handle
holds does if it has this debugger: since the realm gave it up, or since it was made with it.  The
registry of a realm is reached in the same way, or if a command about debugging has made a sink
refer to it.

A namespace can be followed through a course of turns, also when a realm gives it up to a handle.
What it holds in the end depends on nothing but what was asked of it on the way, up to the names
of cells.
-/
import Bindery.Proofs.Host.Life
import Bindery.Proofs.Host.Parted

namespace Bindery.Host

/-! ### One turn -/

variable {turns : List Turn} {turn : Turn} {place : Place} {asked : Asked}

/-- A turn asks something of a namespace that has this debugger. -/
def Turn.Employs (turn : Turn) (d : DebuggerId) : Prop :=
  ∃ place asked, turn.Asks place asked ∧ asked.before.space.debugger = d

/-- How a turn, after some turns, comes to change the debugger and the registry of a realm. -/
structure Turn.Reaches (turns : List Turn) (turn : Turn) (name : String) (d : DebuggerId)
    (r : RegistryId) : Prop where
  /-- The debugger is had by nothing that another realm keeps. -/
  apart : turn.Employs d → ∀ other ident asked, turn.Asks (.kept other ident) asked → other = name
  /-- The switch and the sink are reset by the sink, through a namespace that has the debugger. -/
  debugger : (∀ about, turn.command ≠ .debugging about) →
    turn.outcome.host.world.debugging.debugger d ≠ turn.before.world.debugging.debugger d →
      turn.Employs d ∧ (turn.before.world.debugging.debugger d).resets = true
  /-- The registry changes through such a namespace, or through a sink that was made to refer to it. -/
  registry : (∀ about, turn.command ≠ .debugging about) →
    turn.outcome.host.world.debugging.registry r ≠ turn.before.world.debugging.registry r →
      ∃ e, turn.Employs e ∧ turn.before.target? e = some r ∧
        (e = d ∨ ∃ earlier ∈ turns, earlier.Installs e r)

/-- A namespace that is made with the debugger of a realm sends to the registry of the realm. -/
example :
    let begun := (attempt (Host.start { debug := true } "main") {}).host
    let made : Turn := ⟨begun, .realm (.newSpace "x" "lone" (some { realm := "r" })), none⟩
    let defines : Turn :=
      ⟨made.outcome.host, .operation "x" (.add "&f" (some (.builtin .firstArgument)) {}), none⟩
    made.outcome.host.gear? "r" = some (⟨0⟩, ⟨0⟩) ∧ defines.Employs ⟨0⟩ ∧
      (defines.outcome.host.world.debugging.registry ⟨0⟩).keys = ["lone::f"] :=
  ⟨rfl, ⟨.owned "x", _, ⟨"x", rfl, rfl⟩, rfl⟩, rfl⟩

/-! ### Sessions -/

end Bindery.Host
