/-
The shortest decimal in a window of rationals.

A window is a positive rational with a stretch of rationals around it that all
stand for the same datum.  Of the decimals inside the stretch the one with the
fewest digits is chosen; of two with equally many the one nearer to the middle; and
of two equally near the larger.

For a given place of the last digit only the two multiples of that place next to
the middle can be nearest, so the search looks at those two, for one digit, two
digits, and so on.
-/
namespace Bindery

/-- The number `digits · 10 ^ exponent`. -/
structure Decimal where
  digits : Nat
  exponent : Int
  deriving DecidableEq, Repr

namespace Decimal

/-- A positive rational `mid / den` in the stretch from `low / den` to `high / den`. -/
structure Window where
  low : Nat
  mid : Nat
  high : Nat
  den : Nat
  /-- Whether the two ends belong to the stretch. -/
  closed : Bool
  deriving DecidableEq, Repr

namespace Window

/-- The window divided by `10 ^ place`. -/
def scale (w : Window) (place : Int) : Window :=
  let up := Nat.pow 10 (-place).toNat
  { w with low := w.low * up, mid := w.mid * up, high := w.high * up
           den := w.den * Nat.pow 10 place.toNat }

/-- Whether a whole number lies in the stretch. -/
def holds (w : Window) (n : Nat) : Bool :=
  let x := n * w.den
  if w.closed then w.low ≤ x && x ≤ w.high else w.low < x && x < w.high

/-- The whole number nearest to the middle among its two neighbours inside the stretch. -/
def nearest? (w : Window) : Option Nat :=
  let below := w.mid / w.den
  let above := below + 1
  match w.holds below, w.holds above with
  | true, true =>
    some (if w.mid - below * w.den < above * w.den - w.mid then below else above)
  | true, false => some below
  | false, true => some above
  | false, false => none

/-- The place of the first digit of the middle. -/
def leadingPlace (w : Window) : Int :=
  let shift := (Nat.toDigits 10 w.den).length
  (Nat.toDigits 10 (w.mid * Nat.pow 10 shift / w.den)).length - 1 - shift

/-- The digits of a number with how many zeros were dropped from their end. -/
def dropZeros (fuel n : Nat) : Nat × Nat :=
  match fuel with
  | 0 => (n, 0)
  | fuel + 1 =>
    if n % 10 = 0 then
      let (rest, zeros) := dropZeros fuel (n / 10)
      (rest, zeros + 1)
    else (n, 0)

/-- A decimal with no zero at the end of its digits. -/
def trim (n : Nat) (place : Int) : Decimal :=
  let (digits, zeros) := dropZeros n n
  ⟨digits, place + zeros⟩

/-- The shortest decimal in the window that has at most `most` digits. -/
def shortest? (w : Window) (most : Nat) : Option Decimal :=
  (List.range most).findSome? fun (count : Nat) =>
    let place := w.leadingPlace - count
    (w.scale place).nearest?.map fun n => trim n place

end Window

end Decimal

end Bindery
