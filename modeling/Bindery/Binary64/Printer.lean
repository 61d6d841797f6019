/-
The text of a floating point number.

It has the fewest digits that read back as the same number, at most seventeen.  They
are written positionally, with at least one digit on either side of the point, for
zero and for magnitudes from 10^-4 up to but not including 10^16; outside of these
they are written with an exponent, which has no sign when it is not negative.
-/
import Bindery.Binary64

namespace Bindery

/-- Where numbers are written positionally. -/
structure FloatLayout where
  /-- The least place of the first digit that is written positionally. -/
  leastPlace : Int
  /-- The greatest one. -/
  greatestPlace : Int
  /-- How many digits always suffice to read a number back. -/
  mostDigits : Nat

namespace FloatLayout

/-- The layout of printed values. -/
def ofValues : FloatLayout := ⟨-4, 15, 17⟩

/-- Digits with the point at its place among them or beyond them. -/
def positional (digits : List Char) (exponent : Int) : List Char :=
  let point := digits.length + exponent
  if point ≤ 0 then '0' :: '.' :: List.replicate (-point).toNat '0' ++ digits
  else if 0 ≤ exponent then digits ++ List.replicate exponent.toNat '0' ++ ['.', '0']
  else digits.take point.toNat ++ '.' :: digits.drop point.toNat

/-- Digits with the point after the first of them, and an exponent. -/
def scientific (digits : List Char) (place : Int) : List Char :=
  digits.take 1 ++ (if digits.length ≤ 1 then [] else '.' :: digits.drop 1)
    ++ 'e' :: (toString place).toList

/-- The text of a decimal. -/
def decimal (layout : FloatLayout) (d : Decimal) : List Char :=
  let digits := Nat.toDigits 10 d.digits
  let place := digits.length + d.exponent - 1
  if layout.leastPlace ≤ place ∧ place ≤ layout.greatestPlace then positional digits d.exponent
  else scientific digits place

end FloatLayout

namespace Binary64

/-- The text of the magnitude of a number that is not a NaN. -/
def magnitudeChars (layout : FloatLayout) (x : Binary64) : List Char :=
  if x.isInfinite then ['i', 'n', 'f']
  else if x.isZero then ['0', '.', '0']
  else (x.window.shortest? layout.mostDigits).elim [] layout.decimal

/-- The text of a number. -/
def textChars (x : Binary64) : List Char :=
  if x.isNaN then ['N', 'a', 'N']
  else (if x.isNegative then ['-'] else []) ++ x.magnitudeChars .ofValues

end Binary64

end Bindery
