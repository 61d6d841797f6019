/-
What happens, as it is told to whoever listens.

Every change of a namespace and every step of the debugging side channel makes an
event.  An event carries what is needed to follow the change without looking at the
namespace: which name, which kind, whether a value was installed, whether a stub
was kept.
-/
import Bindery.Spec
import Bindery.SourceRange

namespace Bindery

/-- What happened. -/
inductive Event where
  /-- A realm was made, with debugging on or off. -/
  | realmCreated (debug : Bool)
  /-- A realm made a namespace. -/
  | namespaceCreated (ident : String)
  /-- A realm gave up a namespace. -/
  | namespaceRemoved (ident : String)
  /-- The environment decided the debug setting. -/
  | debugOverridden (raw : String) (debug : Bool)
  /-- A name was bound: with a value or without one, with its stub left in place or not. -/
  | bound (ident : String) (spec : Spec) (installed keptStub : Bool)
  /-- A stub, printed here, gave way to a set of slots. -/
  | stubDiscarded (name : String) (raw : String)
  /-- A binding that was asked for and absent is about to be made. -/
  | vivifying (ident : String) (spec : Spec)
  /-- One binding of a name is about to be removed and `kept` others bound again. -/
  | removingKind (ident : String) (spec : Spec) (kept : Nat)
  /-- The whole entry of a name was removed, if there was one. -/
  | nameRemoved (ident : String) (name : String) (existed : Bool)
  /-- A debugger hands the place of a callable to its sink. -/
  | recording (name : String) (range : SourceRange)
  /-- A sink announces the place of a callable. -/
  | announced (name : String) (range : SourceRange)
  deriving DecidableEq, Repr

end Bindery
