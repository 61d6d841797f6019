/-
The five kinds of binding that one name can carry at once.

A kind has a place in the slot order, a word, and a tag that is written in front
of a name to address it.  Streams alone have no tag: a name that begins with none
of the four tag characters addresses a stream.
-/
namespace Bindery

/-- What a binding of a name is bound as. -/
inductive Kind where
  | scalar
  | sequence
  | mapping
  | callable
  | stream
  deriving DecidableEq, Repr, Inhabited

namespace Kind

/-- The kinds in slot order. -/
def all : List Kind := [.scalar, .sequence, .mapping, .callable, .stream]

/-- The place of a kind in the slot order. -/
def index : Kind → Nat
  | .scalar => 0
  | .sequence => 1
  | .mapping => 2
  | .callable => 3
  | .stream => 4

/-- The character that addresses a kind, where it has one. -/
def tag? : Kind → Option Char
  | .scalar => some '$'
  | .sequence => some '@'
  | .mapping => some '%'
  | .callable => some '&'
  | .stream => none

/-- The tag as text, empty for streams. -/
def tagText (kind : Kind) : String :=
  (kind.tag?.map String.singleton).getD ""

/-- The kind that a tag character addresses. -/
def ofTag? (c : Char) : Option Kind :=
  all.find? fun kind => kind.tag? == some c

/-- The word for a kind. -/
def text : Kind → String
  | .scalar => "scalar"
  | .sequence => "sequence"
  | .mapping => "mapping"
  | .callable => "callable"
  | .stream => "stream"

/-- The kind of a word, in which the case of the letters `a` to `z` does not matter. -/
def ofText? (word : String) : Option Kind :=
  all.find? fun kind => kind.text == word.toLower

/-- The other four kinds, in slot order. -/
def siblings (kind : Kind) : List Kind :=
  all.filter (· ≠ kind)

/-- Kinds are ordered by their slots. -/
instance : Ord Kind := ⟨fun a b => compare a.index b.index⟩

instance : ToString Kind := ⟨text⟩

/-! ### Reading kinds back -/

@[simp] theorem mem_all (kind : Kind) : kind ∈ all := by
  cases kind <;> decide

/-- A tag character addresses the kind whose tag it is. -/
theorem ofTag?_eq_some_iff {c : Char} {kind : Kind} :
    ofTag? c = some kind ↔ kind.tag? = some c := by
  constructor
  · intro h
    simpa using List.find?_some h
  · intro h
    cases kind <;> simp only [tag?, Option.some.injEq, reduceCtorEq] at h <;> subst h <;> rfl

/-- The word for a kind reads back. -/
@[simp] theorem ofText?_text (kind : Kind) : ofText? kind.text = some kind := by
  cases kind <;> decide +kernel

/-- The siblings of a kind are the kinds other than it. -/
@[simp] theorem mem_siblings {j kind : Kind} : j ∈ kind.siblings ↔ j ≠ kind := by
  simp [siblings]

end Kind

end Bindery
