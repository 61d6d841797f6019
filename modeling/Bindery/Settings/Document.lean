/-
Settings documents.

A document is a list of lines.  A line is blank, or a comment, or gives the one
setting there is, `debug`, a value `true` or `false`; it may be given once at most.
The name may stand bare or in quotes, and in double quotes each letter may be
written by its number.  Nothing else can appear: whatever has another name, another
kind of value, or stands under a heading is refused, so no more of the document
language has to be read.
-/
import Bindery.Settings

namespace Bindery.Settings

/-! ### Lines -/

/-- The lines of a document: each ends at a line feed, with or without a return before it. -/
def splitLines : List Char → List (List Char)
  | [] => [[]]
  | '\n' :: rest => [] :: splitLines rest
  | '\r' :: '\n' :: rest => [] :: splitLines rest
  | c :: rest =>
    match splitLines rest with
    | [] => [[c]]
    | line :: lines => (c :: line) :: lines

/-- What may stand between the parts of a line. -/
def isGap (c : Char) : Bool :=
  c == ' ' || c == '\t'

/-- What may stand in a comment: no control but the tabulator. -/
def isCommentChar (c : Char) : Bool :=
  c == '\t' || (0x20 ≤ c.toNat && c.toNat != 0x7F)

/-- Whether the rest of a line says nothing: gaps, and a comment perhaps. -/
def isSilent (line : List Char) : Bool :=
  match line.dropWhile isGap with
  | [] => true
  | c :: rest => c == '#' && rest.all isCommentChar

/-! ### The name of the setting -/

/-- The number of a digit to base sixteen, in either case. -/
def hexValue? (c : Char) : Option Nat :=
  if '0' ≤ c ∧ c ≤ '9' then some (c.toNat - '0'.toNat)
  else if 'a' ≤ c ∧ c ≤ 'f' then some (c.toNat - 'a'.toNat + 10)
  else if 'A' ≤ c ∧ c ≤ 'F' then some (c.toNat - 'A'.toNat + 10)
  else none

/-- The number that digits to base sixteen write. -/
def hexNumber? (digits : List Char) : Option Nat :=
  digits.foldlM (fun n c => (hexValue? c).map (16 * n + ·)) 0

/-- Reads a letter written by its number in `width` digits. -/
def readNumbered (width : Nat) (letter : Char) (cs : List Char) : Option (List Char) :=
  let digits := cs.take width
  if digits.length = width ∧ hexNumber? digits = some letter.toNat then some (cs.drop width)
  else none

/-- Reads one letter inside double quotes, as itself or by its number. -/
def readLetter (cs : List Char) (letter : Char) : Option (List Char) :=
  match cs with
  | '\\' :: 'u' :: rest => readNumbered 4 letter rest
  | '\\' :: 'U' :: rest => readNumbered 8 letter rest
  | c :: rest => if c = letter then some rest else none
  | [] => none

/-- Reads the name of the setting, bare or in quotes of either sort. -/
def readName : List Char → Option (List Char)
  | 'd' :: 'e' :: 'b' :: 'u' :: 'g' :: rest => some rest
  | '\'' :: 'd' :: 'e' :: 'b' :: 'u' :: 'g' :: '\'' :: rest => some rest
  | '"' :: rest =>
    match "debug".toList.foldlM readLetter rest with
    | some ('"' :: rest) => some rest
    | _ => none
  | _ => none

/-! ### Assignments -/

/-- Reads a value. -/
def readValue : List Char → Option (Bool × List Char)
  | 't' :: 'r' :: 'u' :: 'e' :: rest => some (true, rest)
  | 'f' :: 'a' :: 'l' :: 's' :: 'e' :: rest => some (false, rest)
  | _ => none

/-- Reads the mark between name and value, with the gaps around it. -/
def readEquals (cs : List Char) : Option (List Char) :=
  match cs.dropWhile isGap with
  | '=' :: rest => some (rest.dropWhile isGap)
  | _ => none

/-- Reads a line that gives the setting a value. -/
def readAssignment (line : List Char) : Option Bool := do
  let rest ← readName (line.dropWhile isGap)
  let rest ← readEquals rest
  let (value, rest) ← readValue rest
  if isSilent rest then some value else none

/-- Reads a line: the values it gives the setting, none or one. -/
def readLine (line : List Char) : Option (List Bool) :=
  if isSilent line then some [] else (readAssignment line).map ([·])

/-! ### Documents -/

/-- A document without the byte order mark that may stand before its first line. -/
def dropMark : List Char → List Char
  | '\ufeff' :: rest => rest
  | cs => cs

/-- Reads a document; `none` when it is refused. -/
def ofDocument? (document : String) : Option Settings :=
  match (splitLines (dropMark document.toList)).mapM readLine with
  | none => none
  | some values =>
    match values.flatten with
    | [] => some {}
    | [debug] => some { debug }
    | _ :: _ :: _ => none

end Bindery.Settings
