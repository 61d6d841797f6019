/-
Equality of values.

Identical values are equal.  Beyond that, references are equal when what they refer
to is equal, sequences when they agree item by item, and mappings when they have the
same keys with equal values.  Callables and streams are equal only when identical.
A floating point NaN equals nothing, yet a container equals itself whatever it holds.
-/
import Bindery.Heap

namespace Bindery.Heap

/-- Equality of values nested at most `depth` deep. -/
def equalWithin (h : Heap) : (depth : Nat) → Value → Value → Bool
  | 0 => Value.same
  | depth + 1 => fun a b =>
    a.same b ||
      match a, b with
      | .ref r, .ref s => h.equalWithin depth (h.referent r) (h.referent s)
      | .sequence s, .sequence t =>
        (h.items s).toList.isEqv (h.items t).toList (h.equalWithin depth)
      | .mapping m, .mapping n =>
        (h.pairs m).toList.isEqv (h.pairs n).toList fun p q =>
          p.1 == q.1 && h.equalWithin depth p.2 q.2
      | _, _ => false

/-- Equality of values. -/
def equal (h : Heap) (a b : Value) : Bool :=
  h.equalWithin h.depthBound a b

end Bindery.Heap
