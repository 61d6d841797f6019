/-
The settings of a realm.

There is one, whether debugging is on.  It comes from a document and may be decided
by an environment variable, whose text is read as a flag.
-/
import Bindery.Event
import Bindery.Text.Blank

namespace Bindery

/-- The settings of a realm. -/
structure Settings where
  debug : Bool := false
  deriving DecidableEq, Repr, Inhabited

namespace Settings

/-- The words that turn a flag on. -/
def flagWords : List (List Char) :=
  ["1".toList, "true".toList, "yes".toList, "on".toList]

/--
Whether a text turns a flag on: with the blanks around it left out it is one of the
flag words, in which the case of the letters `a` to `z` does not matter.
-/
def readFlag (raw : String) : Bool :=
  flagWords.contains ((Text.trimBlanks raw.toList).map Char.toLower)

/-- The environment variable that decides the debug setting. -/
def debugVariable : String := "SYMSTASH_DEBUG"

/-- The settings as decided by a text, if there is one. -/
def withFlag (settings : Settings) (raw? : Option String) : Settings × List Event :=
  match raw? with
  | none => (settings, [])
  | some raw => ({ settings with debug := readFlag raw }, [.debugOverridden raw (readFlag raw)])

/--
The settings as decided by the environment.  A variable whose bytes are not text in
UTF-8 counts as one that is not set.
-/
def withVariable (settings : Settings) (bytes? : Option ByteArray) : Settings × List Event :=
  settings.withFlag (bytes?.bind String.fromUTF8?)

end Settings

end Bindery
