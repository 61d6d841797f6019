/-
A host: a program that drives realms and namespaces.

A host knows realms, handles of namespaces, values, debuggers, registries and saved
tables by names of its own.  A handle names a namespace that a realm keeps, which is
looked up anew at each use, or holds a namespace that no realm keeps.
-/
import Bindery.Heap.Call
import Bindery.Namespace.Bind
import Bindery.Realm

namespace Bindery

/-- Why a host cannot do what it is asked. -/
inductive HostError where
  /-- A namespace refused. -/
  | refused (cause : BindError)
  /-- A settings document was refused. -/
  | badDocument
  | noRegister
  | noNamespace
  | noRealm
  | noDebugger
  | noTable
  | notCallable
  | notSequence
  | notMapping
  | notStream
  | onlyStub
  | unbound
  deriving DecidableEq, Repr

/-- What a handle of a namespace stands for. -/
inductive Seat where
  /-- The namespace that a realm keeps under an identifier. -/
  | kept (realm : String) (ident : String)
  /-- A namespace that no realm keeps. -/
  | owned (space : Namespace)

/-- All that a host knows. -/
structure Host where
  world : World := {}
  realms : Dict Realm := ∅
  seats : Dict Seat := ∅
  registers : Dict Value := ∅
  debuggers : Dict DebuggerId := ∅
  registries : Dict RegistryId := ∅
  tables : Dict SymbolTable := ∅

namespace Host

/-- What may change a host and may fail; what was changed stays changed. -/
abbrev Action := EStateM HostError Host

/-- What a name stands for, or a failure. -/
def require {α : Type} (found? : Option α) (error : HostError) : Action α :=
  match found? with
  | some found => pure found
  | none => throw error

/-! ### Acting on parts of a host -/

/-- Acts on the heap. -/
def onHeap {α : Type} (act : Heap.Action α) : Action α := fun host =>
  match act host.world.heap with
  | .ok a heap => .ok a { host with world := { host.world with heap } }
  | .error e heap => .error (.refused e) { host with world := { host.world with heap } }

/-- Changes the heap. -/
def modifyHeap {α : Type} (act : Heap → α × Heap) : Action α :=
  onHeap (modifyGet act)

/-- Changes the debuggers and registries. -/
def modifyDebugging {α : Type} (act : Debugging → α × Debugging) : Action α :=
  modifyGet fun host =>
    let (a, debugging) := act host.world.debugging
    (a, { host with world := { host.world with debugging } })

def realm (name : String) : Action Realm := do
  require (← get).realms[name]? .noRealm

def setRealm (name : String) (realm : Realm) : Action Unit :=
  modify fun host => { host with realms := host.realms.insert name realm }

def setSeat (name : String) (seat : Seat) : Action Unit :=
  modify fun host => { host with seats := host.seats.insert name seat }

def setRegister (name : String) (value : Value) : Action Unit :=
  modify fun host => { host with registers := host.registers.insert name value }

/-- The namespace that a seat stands for, if it is there. -/
def atSeat? (host : Host) : Seat → Option Namespace
  | .kept realm ident => host.realms[realm]?.bind (·.spaces[ident]?)
  | .owned space => some space

/-- The namespace of a handle. -/
def space (handle : String) : Action Namespace := do
  let host ← get
  require (host.seats[handle]?.bind host.atSeat?) .noNamespace

/-- The host with another namespace where a handle points. -/
def withSpace (host : Host) (handle : String) (space : Namespace) : Host :=
  match host.seats[handle]? with
  | some (.kept name ident) =>
    match host.realms[name]? with
    | some realm =>
      let realm := { realm with spaces := realm.spaces.insert ident space }
      { host with realms := host.realms.insert name realm }
    | none => host
  | some (.owned _) => { host with seats := host.seats.insert handle (.owned space) }
  | none => host

/-- The host after a scope of it has changed. -/
def withScope (host : Host) (handle : String) (scope : Scope) : Host :=
  { host with world := scope.world }.withSpace handle scope.space

/-- Acts on the namespace of a handle. -/
def onSpace {α : Type} (handle : String) (act : Scope.Action α) : Action α := do
  let space ← space handle
  fun host =>
    match act ⟨space, host.world⟩ with
    | .ok a scope => .ok a (host.withScope handle scope)
    | .error e scope => .error (.refused e) (host.withScope handle scope)

/-! ### Beginning -/

/-- Makes a realm under a name. -/
def newRealm (name : String) (settings : Settings) : Action Unit := do
  let made ← modifyGet fun host =>
    let (made, world) := Realm.make settings host.world
    (made, { host with world })
  setRealm name made

/-- Opens a namespace of a realm and points a handle at it; gives its identifier. -/
def openSpace (handle name ident : String) : Action String := do
  let found ← realm name
  match found.openSpace ident (← get).world with
  | .error e => throw (.refused e)
  | .ok (space, changed, world) =>
    modify ({ · with world })
    setRealm name changed
    setSeat handle (.kept name ident)
    return space.ident

end Host

end Bindery
