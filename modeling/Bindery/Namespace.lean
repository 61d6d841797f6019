/-
Namespaces.

A namespace is an identifier, the table of its names, and the debugger that the
places of its callables are handed to.  What is done to a namespace is done in the
world it shares with others: a scope is the two together.  The moves of a scope
never fail; the operations that are made of them, and that may refuse, are in the
modules beside this one.
-/
import Bindery.SymbolTable
import Bindery.World

namespace Bindery

/-- A namespace. -/
structure Namespace where
  ident : String
  table : SymbolTable := ∅
  debugger : DebuggerId

/-- A new namespace; its identifier must not be empty. -/
def Namespace.make (ident : String) (debugger : DebuggerId) : Except BindError Namespace :=
  if ident.isEmpty then .error (.invalidNamespace ident) else .ok { ident, debugger }

/-- A namespace in the world it shares with others. -/
structure Scope where
  space : Namespace
  world : World

namespace Scope

def table (s : Scope) : SymbolTable :=
  s.space.table

/-- The name of `name` seen from outside the namespace. -/
def qualify (s : Scope) (name : String) : String :=
  Bindery.qualify s.space.ident name

/-- Adds an event to the trace. -/
def log (s : Scope) (event : Event) : Scope :=
  { s with world := s.world.log [event] }

def setTable (s : Scope) (table : SymbolTable) : Scope :=
  { s with space := { s.space with table } }

def setHeap (s : Scope) (heap : Heap) : Scope :=
  { s with world := { s.world with heap } }

/-! ### Reading -/

/-- The value that was found where a spec addresses. -/
def read (s : Scope) (spec : Spec) (reading : Reading) : Value × Scope :=
  let (value, heap) := s.world.heap.read reading (s.qualify spec.name)
  (value, s.setHeap heap)

/-- The value that a spec addresses, if there is one. -/
def lookup (s : Scope) (spec : Spec) : Option Value × Scope :=
  match s.table.reading? spec with
  | none => (none, s)
  | some reading => (s.read spec reading).map some id

/-- The values that were found, one after the other. -/
def readAll (s : Scope) : List (Spec × Reading) → List (Spec × Value) × Scope
  | [] => ([], s)
  | (spec, reading) :: rest =>
    let (value, s) := s.read spec reading
    let (values, s) := s.readAll rest
    ((spec, value) :: values, s)

/-- The empty value of a kind. -/
def newEmpty (s : Scope) (kind : Kind) : Option Value × Scope :=
  let (value?, heap) := s.world.heap.newEmpty kind
  (value?, s.setHeap heap)

/-! ### Changing entries -/

/-- Gives a name slots if it has none.  A stub gives way to empty slots. -/
def openSlots (s : Scope) (name : String) : Scope :=
  match s.table[name]? with
  | some (.bindings _) => s
  | some (.stub raw) =>
    (s.log (.stubDiscarded name (s.world.heap.display raw))).setTable
      (s.table.insert name (.bindings {}))
  | none => s.setTable (s.table.insert name (.bindings {}))

/-- Gives a name other slots. -/
def setSlots (s : Scope) (name : String) (slots : Slots) : Scope :=
  s.setTable (s.table.insert name (.bindings slots))

/-- Fills the slot that a spec addresses, if there is a value for it. -/
def fill (s : Scope) (spec : Spec) (value? : Option Value) : Scope :=
  let s := s.openSlots spec.name
  match value? with
  | none => s
  | some value => s.setSlots spec.name ((s.table.slots spec.name).set spec.kind value)

/-- Removes the entry of a name, and gives it. -/
def drop (s : Scope) (name : String) : Option Entry × Scope :=
  let removed := s.table[name]?
  (removed,
    (s.setTable (s.table.erase name)).log (.nameRemoved s.space.ident name removed.isSome))

/-! ### Debugging -/

/-- Hands the place of a callable to the debugger of the namespace. -/
def report (s : Scope) (name : String) (hint : RangeHint) : Scope :=
  { s with world := s.world.emit s.space.debugger (s.qualify name) hint.resolve }

end Scope

end Bindery
