/-
Realms.

A realm keeps namespaces by their identifiers, with one debugger for all that it
makes and one registry that is the debugger's first sink.  A namespace that is closed
leaves the realm with its table and keeps the debugger; to open its identifier again
makes a new one.
-/
import Bindery.Namespace
import Bindery.Settings

namespace Bindery

/-- A realm. -/
structure Realm where
  spaces : Dict Namespace := ∅
  debugger : DebuggerId
  registry : RegistryId

namespace Realm

/-- A new realm. -/
def make (settings : Settings) (w : World) : Realm × World :=
  let (registry, debugging) := w.debugging.newRegistry
  let (debugger, debugging) := debugging.newDebugger ⟨settings.debug, some (.registry registry)⟩
  ({ debugger, registry }, { w with debugging }.log [.realmCreated settings.debug])

/-- The namespace of an identifier, made if it is not there. -/
def openSpace (realm : Realm) (ident : String) (w : World) :
    Except BindError (Namespace × Realm × World) :=
  match realm.spaces[ident]? with
  | some space => .ok (space, realm, w)
  | none =>
    match Namespace.make ident realm.debugger with
    | .error e => .error e
    | .ok space =>
      .ok (space, { realm with spaces := realm.spaces.insert ident space },
        w.log [.namespaceCreated ident])

/-- Gives up the namespace of an identifier, if it is there. -/
def closeSpace (realm : Realm) (ident : String) (w : World) : Option Namespace × Realm × World :=
  match realm.spaces[ident]? with
  | none => (none, realm, w)
  | some space =>
    (some space, { realm with spaces := realm.spaces.erase ident },
      w.log [.namespaceRemoved ident])

/-- The identifiers of the namespaces. -/
def idents (realm : Realm) : List String :=
  realm.spaces.keys

end Realm

end Bindery
