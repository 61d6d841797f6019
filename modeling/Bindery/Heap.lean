/-
The cells that handles name.

Cells of each sort are numbered from zero in the order in which they are made, and
none is ever given back.  A new cell therefore has a handle that no value held
before, and a handle once made names its cell from then on.
-/
import Bindery.Dict
import Bindery.Heap.Stream
import Bindery.Value

namespace Bindery

/-- The callables that a host offers, by what they do. -/
inductive Builtin where
  /-- Gives the number of its arguments. -/
  | argumentCount
  /-- Gives its first argument. -/
  | firstArgument
  /-- Gives a new sequence of its arguments. -/
  | allArguments
  /-- Adds up its arguments. -/
  | sum
  /-- Gives 1, 2, 3 and so on, one more at each call. -/
  | counter (calls : Nat)
  /-- Fails with a message. -/
  | raise (message : String)
  /-- Calls its first argument with the others. -/
  | apply
  deriving DecidableEq, Repr

/-- What a callable does when it is called. -/
inductive Body where
  /-- Gives the same value at each call, whatever its arguments. -/
  | constant (value : Value)
  /-- Declared without a body: fails, giving its qualified name. -/
  | undefined (name : String)
  | builtin (builtin : Builtin)
  deriving DecidableEq, Repr, Inhabited

/-- The cells, those of each sort in the order of their handles. -/
structure Heap where
  refs : Array Value := #[]
  sequences : Array (Array Value) := #[]
  mappings : Array (Dict Value) := #[]
  callables : Array Body := #[]
  streams : Array LineStream := #[]

namespace Heap

/-! ### Reading cells -/

/-- The value that a reference refers to. -/
def referent (h : Heap) (r : Handle .ref) : Value :=
  h.refs.getD r.index .undefined

/-- The values of a sequence. -/
def items (h : Heap) (s : Handle .sequence) : Array Value :=
  h.sequences.getD s.index #[]

/-- The values of a mapping by their keys. -/
def pairs (h : Heap) (m : Handle .mapping) : Dict Value :=
  h.mappings.getD m.index ∅

/-- What a callable does. -/
def body (h : Heap) (c : Handle .callable) : Body :=
  h.callables.getD c.index default

/-- The state of a stream. -/
def lineStream (h : Heap) (s : Handle .stream) : LineStream :=
  h.streams.getD s.index {}

/-! ### Making cells -/

def newRef (h : Heap) (target : Value) : Value × Heap :=
  (.ref ⟨h.refs.size⟩, { h with refs := h.refs.push target })

def newSequence (h : Heap) (items : Array Value) : Value × Heap :=
  (.sequence ⟨h.sequences.size⟩, { h with sequences := h.sequences.push items })

def newMapping (h : Heap) (pairs : Dict Value) : Value × Heap :=
  (.mapping ⟨h.mappings.size⟩, { h with mappings := h.mappings.push pairs })

def newCallable (h : Heap) (body : Body) : Value × Heap :=
  (.callable ⟨h.callables.size⟩, { h with callables := h.callables.push body })

def newStream (h : Heap) (stream : LineStream) : Value × Heap :=
  (.stream ⟨h.streams.size⟩, { h with streams := h.streams.push stream })

/-- The empty value of a kind, in a new cell where it needs one.  Callables have none. -/
def newEmpty (h : Heap) : Kind → Option Value × Heap
  | .scalar => (some .undefined, h)
  | .sequence => (h.newSequence #[]).map some id
  | .mapping => (h.newMapping ∅).map some id
  | .callable => (none, h)
  | .stream => (h.newStream {}).map some id

/-! ### Changing cells -/

def setItems (h : Heap) (s : Handle .sequence) (items : Array Value) : Heap :=
  { h with sequences := h.sequences.setIfInBounds s.index items }

def setPairs (h : Heap) (m : Handle .mapping) (pairs : Dict Value) : Heap :=
  { h with mappings := h.mappings.setIfInBounds m.index pairs }

def setBody (h : Heap) (c : Handle .callable) (body : Body) : Heap :=
  { h with callables := h.callables.setIfInBounds c.index body }

def setStream (h : Heap) (s : Handle .stream) (stream : LineStream) : Heap :=
  { h with streams := h.streams.setIfInBounds s.index stream }

/-! ### Depth -/

/--
A bound on how deep a value is nested when no cell contains itself: a path through
cells meets each reference, sequence and mapping at most once and ends at a value.
-/
def depthBound (h : Heap) : Nat :=
  h.refs.size + h.sequences.size + h.mappings.size + 1

end Heap

end Bindery
