/-
The two printed forms of values.

The display form is what a program shows: `[1 "a"]`, `%{"k" undef}`, `ref(2.5)`.
The debug form names the type of every part: `Sequence([Int(1), Str("a")])`.  In both
a mapping is printed in the order of its keys.
-/
import Bindery.Binary64.Printer
import Bindery.Heap
import Bindery.Text.Quoted

namespace Bindery.Heap

open Text (displayQuotedChars debugQuotedChars)

/-- The digits of a whole number, after a minus sign if it is negative. -/
def intChars (n : Int64) : List Char :=
  if n < 0 then '-' :: Nat.toDigits 10 n.toInt.natAbs else Nat.toDigits 10 n.toInt.natAbs

/-- The word for a truth value. -/
def boolChars (b : Bool) : List Char :=
  if b then "true".toList else "false".toList

/-- A word with what stands in parentheses after it. -/
def wrapped (word : String) (inside : List Char) : List Char :=
  word.toList ++ '(' :: inside ++ [')']

/-! ### The display form -/

/-- The characters of a value nested at most `depth` deep. -/
def displayWithin (h : Heap) : (depth : Nat) → Value → List Char
  | 0 => fun _ => []
  | depth + 1 => fun
    | .undefined => "undef".toList
    | .bool b => boolChars b
    | .int n => intChars n
    | .float x => x.textChars
    | .str s => displayQuotedChars s
    | .ref r => wrapped "ref" (h.displayWithin depth (h.referent r))
    | .sequence s =>
      '[' :: [' '].intercalate ((h.items s).toList.map (h.displayWithin depth)) ++ [']']
    | .mapping m =>
      let pair := fun (p : String × Value) =>
        displayQuotedChars p.1 ++ ' ' :: h.displayWithin depth p.2
      '%' :: '\x7b' :: [',', ' '].intercalate ((h.pairs m).toList.map pair) ++ ['\x7d']
    | .callable _ => "#<callable>".toList
    | .stream s =>
      if (h.lineStream s).closed then "#<stream closed>".toList else "#<stream>".toList

/-- The display form of a value. -/
def display (h : Heap) (v : Value) : String :=
  String.ofList (h.displayWithin h.depthBound v)

/-! ### The debug form -/

/-- The word that stands for the address of a callable. -/
def addressWord : List Char := "PTR".toList

/-- A stream by the number of its waiting lines. -/
def debugStream (s : LineStream) : List Char :=
  "Stream \x7b pending: ".toList ++ Nat.toDigits 10 s.pending ++ ", closed: ".toList
    ++ boolChars s.closed ++ " \x7d".toList

/-- The characters of a value nested at most `depth` deep. -/
def debugWithin (h : Heap) : (depth : Nat) → Value → List Char
  | 0 => fun _ => []
  | depth + 1 => fun
    | .undefined => "Undef".toList
    | .bool b => wrapped "Bool" (boolChars b)
    | .int n => wrapped "Int" (intChars n)
    | .float x => wrapped "Float" x.textChars
    | .str s => wrapped "Str" (debugQuotedChars s)
    | .ref r => wrapped "Ref" (h.debugWithin depth (h.referent r))
    | .sequence s =>
      let items := (h.items s).toList.map (h.debugWithin depth)
      wrapped "Sequence" ('[' :: [',', ' '].intercalate items ++ [']'])
    | .mapping m =>
      let pair := fun (p : String × Value) =>
        debugQuotedChars p.1 ++ ':' :: ' ' :: h.debugWithin depth p.2
      let pairs := (h.pairs m).toList.map pair
      wrapped "Mapping" ('\x7b' :: [',', ' '].intercalate pairs ++ ['\x7d'])
    | .callable _ => wrapped "Callable" (wrapped "Callable" addressWord)
    | .stream s => wrapped "Stream" (debugStream (h.lineStream s))

/-- The characters of the debug form of a value. -/
def debugChars (h : Heap) (v : Value) : List Char :=
  h.debugWithin h.depthBound v

/-- The debug form of a value. -/
def debug (h : Heap) (v : Value) : String :=
  String.ofList (h.debugChars v)

end Bindery.Heap
