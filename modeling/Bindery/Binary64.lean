/-
Floating point numbers of 64 bits, by their bits.

A number is the word that holds it: a sign, eleven bits of exponent and fifty-two
of fraction.  Two operations are needed of it, both exact: the comparison for
equality, in which a NaN differs from everything and the two zeros agree, and the
window of rationals that round to it, from which its shortest text is made.
-/
import Bindery.Decimal.Shortest

namespace Bindery

/-- A floating point number of 64 bits. -/
structure Binary64 where
  bits : UInt64
  deriving DecidableEq, Repr, Inhabited

namespace Binary64

/-! ### The fields of the word -/

/-- Whether the sign is set, which zeros can have too. -/
def isNegative (x : Binary64) : Bool :=
  Nat.pow 2 63 ≤ x.bits.toNat

/-- The bits of the exponent, as they stand. -/
def exponentField (x : Binary64) : Nat :=
  x.bits.toNat / Nat.pow 2 52 % Nat.pow 2 11

/-- The bits of the fraction. -/
def fraction (x : Binary64) : Nat :=
  x.bits.toNat % Nat.pow 2 52

/-! ### Classes -/

/-- Whether the word holds no number. -/
def isNaN (x : Binary64) : Bool :=
  x.exponentField == 2047 && x.fraction != 0

/-- Whether the number is beyond all others. -/
def isInfinite (x : Binary64) : Bool :=
  x.exponentField == 2047 && x.fraction == 0

/-- Whether the number is zero, of either sign. -/
def isZero (x : Binary64) : Bool :=
  x.exponentField == 0 && x.fraction == 0

/-- Equality of numbers: a NaN equals nothing, and zero equals zero of either sign. -/
def equal (x y : Binary64) : Bool :=
  !x.isNaN && !y.isNaN && (x.bits == y.bits || (x.isZero && y.isZero))

/-! ### Magnitude

The magnitude of a finite number is `significand · 2 ^ power`.
-/

/-- The fraction, with the leading one that all but the smallest numbers have. -/
def significand (x : Binary64) : Nat :=
  if x.exponentField = 0 then x.fraction else Nat.pow 2 52 + x.fraction

/-- The power of two that the significand counts. -/
def power (x : Binary64) : Int :=
  if x.exponentField = 0 then -1074 else x.exponentField - 1075

/--
The rationals that round to the magnitude of a finite number other than zero.  The
stretch reaches half-way to the next number on either side; below a power of two
the next number is half as far.  A rational half-way between two numbers rounds to
the one with the even significand, so the ends belong to the stretch of that one.
-/
def window (x : Binary64) : Decimal.Window :=
  let below := if x.fraction = 0 ∧ 1 < x.exponentField then 1 else 2
  let up := Nat.pow 2 (x.power - 2).toNat
  let mid := 4 * x.significand
  { low := (mid - below) * up, mid := mid * up, high := (mid + 2) * up
    den := Nat.pow 2 (2 - x.power).toNat, closed := x.significand % 2 == 0 }

end Binary64

end Bindery
