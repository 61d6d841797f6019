/-
What a name stands for.

An entry is a set of slots, or a stub: the short form of a name that only declares a
callable, made of a single value.  A stub of a reference stands for a constant
callable that gives what the reference refers to; a stub of anything else stands for
a callable that was declared and never given a body.
-/
import Bindery.Heap.Equality
import Bindery.Heap.Printer
import Bindery.Slots

namespace Bindery

/-- What a name stands for. -/
inductive Entry where
  | bindings (slots : Slots)
  | stub (raw : Value)
  deriving DecidableEq, Repr

/-- What is found where a binding is looked for. -/
inductive Reading where
  /-- A value that a slot holds. -/
  | held (value : Value)
  /-- A callable that a stub declares. -/
  | declared (raw : Value)
  deriving DecidableEq, Repr

namespace Entry

/-- Whether the entry counts as a binding of a kind. -/
def has : Entry → Kind → Bool
  | bindings slots, kind => slots.hasDefined kind
  | stub _, kind => kind == .callable

/-- Whether the entry is a stub. -/
def isStub : Entry → Bool
  | bindings _ => false
  | stub _ => true

/-- The slots of an entry that has them. -/
def slots? : Entry → Option Slots
  | bindings slots => some slots
  | stub _ => none

/-- What is found when the entry is read as a kind. -/
def reading? : Entry → Kind → Option Reading
  | bindings slots, kind => (slots.get kind).map .held
  | stub raw, kind => if kind = .callable then some (.declared raw) else none

end Entry

namespace Heap

/-- What the callable of a stub does, when its qualified name is `name`. -/
def stubBody (h : Heap) (raw : Value) (name : String) : Body :=
  match raw with
  | .ref r => .constant (h.referent r)
  | _ => .undefined name

/-- The value that was found: the one held, or a new callable for a stub. -/
def read (h : Heap) (reading : Reading) (name : String) : Value × Heap :=
  match reading with
  | .held value => (value, h)
  | .declared raw => h.newCallable (h.stubBody raw name)

/-! ### Comparing and printing entries -/

/-- Equality of the contents of two slots. -/
def equalContents (h : Heap) : Option Value → Option Value → Bool
  | none, none => true
  | some a, some b => h.equal a b
  | _, _ => false

/-- Equality of entries: both stubs or both slots, of equal values. -/
def equalEntries (h : Heap) : Entry → Entry → Bool
  | .bindings s, .bindings t => Kind.all.all fun kind => h.equalContents (s.get kind) (t.get kind)
  | .stub a, .stub b => h.equal a b
  | _, _ => false

/-- The debug form of the content of a slot. -/
def debugContent (h : Heap) : Option Value → List Char
  | none => "None".toList
  | some value => wrapped "Some" (h.debugChars value)

/-- The debug form of an entry. -/
def debugEntry (h : Heap) : Entry → String
  | .bindings slots =>
    let contents := Kind.all.map fun kind => h.debugContent (slots.get kind)
    let inside := '[' :: [',', ' '].intercalate contents ++ [']']
    String.ofList <|
      wrapped "Bindings" ("BindingSet \x7b slots: ".toList ++ inside ++ " \x7d".toList)
  | .stub raw =>
    String.ofList <| wrapped "Stub" ("Stub \x7b raw: ".toList ++ h.debugChars raw ++ " \x7d".toList)

end Heap

end Bindery
