/-
Values.

A value is a plain datum or a handle.  Undefined, booleans, whole numbers, floating
point numbers and texts are plain; references, sequences, mappings, callables and
streams are handles to cells of a heap, so that copying a value copies the handle
and both copies reach the same cell.
-/
import Bindery.Binary64
import Bindery.Kind

namespace Bindery

/-- The sorts of cells. -/
inductive Cell where
  | ref
  | sequence
  | mapping
  | callable
  | stream
  deriving DecidableEq, Repr

/-- The name of a cell: cells of each sort are numbered in the order in which they were made. -/
structure Handle (cell : Cell) where
  index : Nat
  deriving DecidableEq, Repr

/-- A value. -/
inductive Value where
  | undefined
  | bool (b : Bool)
  | int (n : Int64)
  | float (x : Binary64)
  | str (s : String)
  | ref (r : Handle .ref)
  | sequence (s : Handle .sequence)
  | mapping (m : Handle .mapping)
  | callable (c : Handle .callable)
  | stream (s : Handle .stream)
  deriving DecidableEq, Repr, Inhabited

namespace Value

/-- The word for the type of a value. -/
def typeName : Value → String
  | undefined => "undef"
  | bool _ => "bool"
  | int _ => "int"
  | float _ => "float"
  | str _ => "string"
  | ref _ => "ref"
  | sequence _ => "sequence"
  | mapping _ => "mapping"
  | callable _ => "callable"
  | stream _ => "stream"

/-- Whether a value is another than undefined. -/
def isDefined : Value → Bool
  | undefined => false
  | _ => true

/-- Whether a value is of a type that has a kind of its own.  All others are scalars. -/
def isContainer : Value → Bool
  | sequence _ | mapping _ | callable _ | stream _ => true
  | _ => false

/-- Whether a value can be bound as a kind. -/
def fits : Value → Kind → Bool
  | v, .scalar => !v.isContainer
  | sequence _, .sequence => true
  | mapping _, .mapping => true
  | callable _, .callable => true
  | stream _, .stream => true
  | _, _ => false

/--
Identity of values: handles must name the same cell, and plain data must be equal,
floating point numbers as numbers.
-/
def same : Value → Value → Bool
  | float x, float y => x.equal y
  | a, b => a = b

/-! ### Reading a value as one of its types -/

def asInt? : Value → Option Int64
  | int n => some n
  | _ => none

def asText? : Value → Option String
  | str s => some s
  | _ => none

def asRef? : Value → Option (Handle .ref)
  | ref r => some r
  | _ => none

def asSequence? : Value → Option (Handle .sequence)
  | sequence s => some s
  | _ => none

def asMapping? : Value → Option (Handle .mapping)
  | mapping m => some m
  | _ => none

def asCallable? : Value → Option (Handle .callable)
  | callable c => some c
  | _ => none

def asStream? : Value → Option (Handle .stream)
  | stream s => some s
  | _ => none

end Value

end Bindery
