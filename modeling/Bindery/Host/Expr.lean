/-
Written values.

A host writes a value down and has it made: each reference, sequence, mapping, stream
and callable that is written becomes a new cell each time, while a register gives the
very value it holds.
-/
import Bindery.Host

namespace Bindery

/-- What a value is wrapped in. -/
inductive Wrapper where
  | ref
  | sequence
  /-- A mapping with the single key `k`. -/
  | mapping
  deriving DecidableEq, Repr

/-- A written value. -/
inductive Expr where
  | undefined
  | bool (b : Bool)
  | int (n : Int64)
  | float (x : Binary64)
  | str (s : String)
  | ref (target : Expr)
  | sequence (items : List Expr)
  /-- Of two pairs with one key the later stays. -/
  | mapping (pairs : List (String × Expr))
  | stream (lines : List String) (closed : Bool)
  /-- A callable that gives the same value at each call. -/
  | constant (value : Expr)
  | builtin (builtin : Builtin)
  /-- The value that a register holds. -/
  | register (name : String)
  /-- A value wrapped a number of times. -/
  | nested (wrapper : Wrapper) (times : Nat) (value : Expr)

/-- A value in one wrapper. -/
def Wrapper.wrap (wrapper : Wrapper) (value : Value) (h : Heap) : Value × Heap :=
  match wrapper with
  | .ref => h.newRef value
  | .sequence => h.newSequence #[value]
  | .mapping => h.newMapping ((∅ : Dict Value).insert "k" value)

/-- A value in several wrappers. -/
def Wrapper.wrapAll (wrapper : Wrapper) : (times : Nat) → Value → Heap → Value × Heap
  | 0, value, h => (value, h)
  | times + 1, value, h =>
    let (value, h) := wrapper.wrap value h
    wrapper.wrapAll times value h

namespace Expr

open Host (Action modifyHeap require)

mutual

/-- Makes a written value. -/
def eval : Expr → Action Value
  | undefined => return .undefined
  | bool b => return .bool b
  | int n => return .int n
  | float x => return .float x
  | str s => return .str s
  | ref target => do
    let target ← target.eval
    modifyHeap (·.newRef target)
  | sequence items => do
    let items ← evalItems items
    modifyHeap (·.newSequence items.toArray)
  | mapping pairs => do
    let pairs ← evalPairs pairs
    modifyHeap (·.newMapping (.ofList pairs))
  | stream lines closed => modifyHeap (·.newStream ⟨lines, closed⟩)
  | constant value => do
    let value ← value.eval
    modifyHeap (·.newCallable (.constant value))
  | builtin b => modifyHeap (·.newCallable (.builtin b))
  | register name => do require (← get).registers[name]? .noRegister
  | nested wrapper times value => do
    let value ← value.eval
    modifyHeap (wrapper.wrapAll times value)

/-- Makes written values from left to right. -/
def evalItems : List Expr → Action (List Value)
  | [] => return []
  | item :: rest => do
    let value ← item.eval
    return value :: (← evalItems rest)

/-- Makes the values of written pairs from left to right. -/
def evalPairs : List (String × Expr) → Action (List (String × Value))
  | [] => return []
  | (key, item) :: rest => do
    let value ← item.eval
    return (key, value) :: (← evalPairs rest)

end

end Expr

end Bindery
