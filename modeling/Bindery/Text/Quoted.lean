/-
Text in double quotes, in the two forms in which values are printed.

The display form is for readers of one line: it escapes what would end the line or
the quotes, and the ASCII controls.  The debug form is for telling texts apart: it
also writes out, by number, every character that prints nothing of its own.
-/
import Bindery.Text.Unprintable
import Bindery.Text.Extender
import Bindery.Text.Filler

namespace Bindery.Text

/-- The digits of a number to base sixteen, in lower case and without padding. -/
def hexDigits (n : Nat) : List Char :=
  Nat.toDigits 16 n

/-- Whether a character is one of the ASCII controls. -/
def isAsciiControl (c : Char) : Bool :=
  c.toNat < 0x20 || c.toNat == 0x7F

/--
Whether a character prints nothing of its own: it combines with the one before it,
only holds a place, or has no printed form at all.
-/
def isHidden (c : Char) : Bool :=
  extenderRanges.contains c || fillerRanges.contains c || unprintableRanges.contains c

/-! ### The display form -/

/-- An ASCII control as a backslash, an `x` and two digits. -/
def controlEscape (c : Char) : List Char :=
  '\\' :: 'x' :: Nat.digitChar (c.toNat / 16) :: [Nat.digitChar (c.toNat % 16)]

/-- One character in the display form. -/
def displayEscape (c : Char) : List Char :=
  if c = '\n' then ['\\', 'n']
  else if c = '\t' then ['\\', 't']
  else if c = '\r' then ['\\', 'r']
  else if c = '\\' then ['\\', '\\']
  else if c = '"' then ['\\', '"']
  else if isAsciiControl c then controlEscape c
  else [c]

/-- The characters of a text in the display form, quotes included. -/
def displayQuotedChars (s : String) : List Char :=
  '"' :: s.toList.flatMap displayEscape ++ ['"']

/-! ### The debug form -/

/-- A character by its number, in braces. -/
def numberEscape (c : Char) : List Char :=
  '\\' :: 'u' :: '\x7b' :: hexDigits c.toNat ++ ['\x7d']

/-- One character in the debug form. -/
def debugEscape (c : Char) : List Char :=
  if c = '\x00' then ['\\', '0']
  else if c = '\t' then ['\\', 't']
  else if c = '\r' then ['\\', 'r']
  else if c = '\n' then ['\\', 'n']
  else if c = '"' then ['\\', '"']
  else if c = '\\' then ['\\', '\\']
  else if isHidden c then numberEscape c
  else [c]

/-- The characters of a text in the debug form, quotes included. -/
def debugQuotedChars (s : String) : List Char :=
  '"' :: s.toList.flatMap debugEscape ++ ['"']

/-- A text in the debug form. -/
def debugQuoted (s : String) : String :=
  String.ofList (debugQuotedChars s)

end Bindery.Text
