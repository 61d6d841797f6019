/-
Edits of the table of a namespace.

An edit goes past the operations: it plants stubs, replaces entries, and fills and
empties slots without asking whether values fit.  It never fails, but to empty a slot
of a name that has no slots does nothing, which its outcome says.
-/
import Bindery.Namespace

namespace Bindery

/-- An entry that is to be made. -/
inductive EntryDraft (V : Type) where
  | bindings (pairs : List (Kind × V))
  | stub (raw : V)

namespace EntryDraft

/-- The draft with its values made. -/
def mapM {V W : Type} {m : Type → Type} [Monad m] (f : V → m W) : EntryDraft V → m (EntryDraft W)
  | bindings pairs => return .bindings (← pairs.mapM fun pair => return (pair.1, ← f pair.2))
  | stub raw => return .stub (← f raw)

/-- The entry that is drafted; of two values of one kind the later stays. -/
def toEntry : EntryDraft Value → Entry
  | bindings pairs => .bindings (.ofList pairs)
  | stub raw => .stub raw

end EntryDraft

/-- A change of the table of a namespace. -/
inductive Edit (V : Type) where
  | plantStub (name : String) (raw : V)
  | insert (name : String) (entry : EntryDraft V)
  | setSlot (name : String) (kind : Kind) (value : V)
  | clearSlot (name : String) (kind : Kind)
  | openSlots (name : String)
  | erase (name : String)

/-- What an edit found. -/
inductive EditOutcome where
  /-- The entry that was replaced or erased. -/
  | entry (found? : Option Entry)
  /-- What the slot held. -/
  | content (value? : Option Value)
  /-- The slots that were opened. -/
  | slots (slots : Slots)
  /-- There is no entry to empty a slot of. -/
  | unbound
  /-- There is only a stub. -/
  | onlyStub

namespace Edit

/-- The edit with its value made. -/
def mapM {V W : Type} {m : Type → Type} [Monad m] (f : V → m W) : Edit V → m (Edit W)
  | plantStub name raw => return .plantStub name (← f raw)
  | insert name entry => return .insert name (← entry.mapM f)
  | setSlot name kind value => return .setSlot name kind (← f value)
  | clearSlot name kind => return .clearSlot name kind
  | openSlots name => return .openSlots name
  | erase name => return .erase name

/-- Makes an edit. -/
def apply (s : Scope) : Edit Value → EditOutcome × Scope
  | plantStub name raw => (.entry s.table[name]?, s.setTable (s.table.insert name (.stub raw)))
  | insert name entry => (.entry s.table[name]?, s.setTable (s.table.insert name entry.toEntry))
  | setSlot name kind value =>
    (.content ((s.table.slots name).get kind), s.fill ⟨name, kind⟩ (some value))
  | clearSlot name kind =>
    match s.table[name]? with
    | none => (.unbound, s)
    | some (.stub _) => (.onlyStub, s)
    | some (.bindings slots) => (.content (slots.get kind), s.setSlots name (slots.clear kind))
  | openSlots name => (.slots (s.table.slots name), s.openSlots name)
  | erase name => (.entry s.table[name]?, s.setTable (s.table.erase name))

end Edit

end Bindery
