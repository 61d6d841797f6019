/-
Calls.

A call may make cells, change the state of the callable that is called, and fail;
what it did before it failed stays done.  One callable calls another only by handing
on fewer arguments than it was given, so every call ends.
-/
import Bindery.Error
import Bindery.Heap

namespace Bindery.Heap

/-- What may make and change cells and may fail. -/
abbrev Action := EStateM BindError Heap

/-- Whether a whole number fits into 64 bits with a sign. -/
def inRange (n : Int) : Bool :=
  Int64.minValue.toInt ≤ n && n ≤ Int64.maxValue.toInt

/-- Adds up whole numbers from left to right. -/
def sum (start : Int64) : List Value → Except BindError Int64
  | [] => .ok start
  | .int n :: rest =>
    if inRange (start.toInt + n.toInt) then sum (start + n) rest else .error (.raised "overflow")
  | _ :: _ => .error (.raised "not an int")

/-- Calls a callable. -/
def call (args : List Value) (callee : Handle .callable) : Action Value := do
  match (← get).body callee with
  | .constant value => pure value
  | .undefined name => throw (.undefinedCallable name)
  | .builtin .argumentCount => pure (.int (.ofNat args.length))
  | .builtin .firstArgument => pure (args.headD .undefined)
  | .builtin .allArguments => modifyGet (·.newSequence args.toArray)
  | .builtin .sum =>
    match sum 0 args with
    | .ok total => pure (.int total)
    | .error e => throw e
  | .builtin (.counter calls) =>
    modify (·.setBody callee (.builtin (.counter (calls + 1))))
    pure (.int (.ofNat (calls + 1)))
  | .builtin (.raise message) => throw (.raised message)
  | .builtin .apply =>
    match args with
    | .callable next :: rest => call rest next
    | _ => throw (.raised "not a callable")

end Bindery.Heap
