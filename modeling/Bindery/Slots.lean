/-
The bindings of one name.

There is a slot for each kind, empty or holding a value, so that a scalar, a sequence
and a callable of one name coexist without touching each other.  Slots take any
value: that it fits the kind is for whoever fills them to see to.
-/
import Bindery.Value

namespace Bindery

/-- A slot for each kind. -/
structure Slots where
  scalar? : Option Value := none
  sequence? : Option Value := none
  mapping? : Option Value := none
  callable? : Option Value := none
  stream? : Option Value := none
  deriving DecidableEq, Repr, Inhabited

namespace Slots

/-- What the slot of a kind holds. -/
def get (slots : Slots) : Kind → Option Value
  | .scalar => slots.scalar?
  | .sequence => slots.sequence?
  | .mapping => slots.mapping?
  | .callable => slots.callable?
  | .stream => slots.stream?

/-- The slots with another content in the slot of a kind. -/
def put (slots : Slots) (kind : Kind) (content : Option Value) : Slots :=
  match kind with
  | .scalar => { slots with scalar? := content }
  | .sequence => { slots with sequence? := content }
  | .mapping => { slots with mapping? := content }
  | .callable => { slots with callable? := content }
  | .stream => { slots with stream? := content }

/-- Fills the slot of a kind. -/
def set (slots : Slots) (kind : Kind) (value : Value) : Slots :=
  slots.put kind (some value)

/-- Empties the slot of a kind. -/
def clear (slots : Slots) (kind : Kind) : Slots :=
  slots.put kind none

/-- Whether the slot of a kind holds a value. -/
def contains (slots : Slots) (kind : Kind) : Bool :=
  (slots.get kind).isSome

/-- Whether the slot of a kind holds a value that counts: for a scalar, a defined one. -/
def hasDefined (slots : Slots) (kind : Kind) : Bool :=
  match kind, slots.get kind with
  | .scalar, some value => value.isDefined
  | _, content => content.isSome

/-- Whether no slot holds a value. -/
def isEmpty (slots : Slots) : Bool :=
  Kind.all.all fun kind => !slots.contains kind

/-- The slots that hold a value, in slot order. -/
def toList (slots : Slots) : List (Kind × Value) :=
  Kind.all.filterMap fun kind => (slots.get kind).map (kind, ·)

/-- The slots filled from pairs, later ones in place of earlier ones. -/
def ofList (pairs : List (Kind × Value)) : Slots :=
  pairs.foldl (fun slots pair => slots.set pair.1 pair.2) {}

/-! ### Slots are what they hold -/

/-- Slots that hold the same in every kind are the same. -/
@[ext] theorem ext_get {s t : Slots} (h : ∀ kind, s.get kind = t.get kind) : s = t := by
  cases s
  cases t
  simpa [Slots.get] using
    And.intro (h .scalar) ⟨h .sequence, h .mapping, h .callable, h .stream⟩

@[simp] theorem get_empty (kind : Kind) : ({} : Slots).get kind = none := by
  cases kind <;> rfl

theorem get_put (slots : Slots) (kind : Kind) (content : Option Value) (j : Kind) :
    (slots.put kind content).get j = if j = kind then content else slots.get j := by
  cases kind <;> cases j <;> rfl

/-- The slot that is filled holds the value, and the others hold what they held. -/
theorem get_set (slots : Slots) (kind : Kind) (value : Value) (j : Kind) :
    (slots.set kind value).get j = if j = kind then some value else slots.get j :=
  slots.get_put kind (some value) j

/-- The slot that is emptied holds nothing, and the others hold what they held. -/
theorem get_clear (slots : Slots) (kind : Kind) (j : Kind) :
    (slots.clear kind).get j = if j = kind then none else slots.get j :=
  slots.get_put kind none j

/-- A slot counts when it holds a value, unless it is a scalar slot that holds undefined. -/
theorem hasDefined_iff {slots : Slots} {kind : Kind} :
    slots.hasDefined kind = true ↔
      ∃ value, slots.get kind = some value ∧ (kind = .scalar → value.isDefined = true) := by
  cases h : slots.get kind <;> cases kind <;> simp [hasDefined, h]

end Slots

end Bindery
