/-
The names of a namespace.

A table holds the entries of names; a name without an entry is unbound.
-/
import Bindery.Entry
import Bindery.Spec

namespace Bindery

/-- The entries of names. -/
abbrev SymbolTable := Dict Entry

namespace SymbolTable

/-- Whether a spec addresses a binding that counts. -/
def has (table : SymbolTable) (spec : Spec) : Bool :=
  table[spec.name]?.any (·.has spec.kind)

/-- What is found where a spec addresses. -/
def reading? (table : SymbolTable) (spec : Spec) : Option Reading :=
  table[spec.name]?.bind (·.reading? spec.kind)

/-- Whether a name has a stub. -/
def isStub (table : SymbolTable) (name : String) : Bool :=
  table[name]?.any Entry.isStub

/-- The slots of a name, empty ones if it has a stub or is unbound. -/
def slots (table : SymbolTable) (name : String) : Slots :=
  (table[name]?.bind Entry.slots?).getD {}

/-- The names that count as bound as a kind, or all names that have an entry. -/
def names (table : SymbolTable) (kind? : Option Kind) : List String :=
  (table.toList.filter fun pair => kind?.all pair.2.has).map Prod.fst

/-- What is found where each of some specs addresses, where anything is. -/
def readings (table : SymbolTable) (specs : List Spec) : List (Spec × Reading) :=
  specs.filterMap fun spec => (table.reading? spec).map (spec, ·)

/-- The specs that address a binding of one kind that counts, by their names. -/
def specsOf (table : SymbolTable) (kind : Kind) : List Spec :=
  (table.names (some kind)).map (⟨·, kind⟩)

/-- The specs that address another binding of the same name that counts, in slot order. -/
def siblingsOf (table : SymbolTable) (spec : Spec) : List Spec :=
  (spec.kind.siblings.map fun kind => { spec with kind }).filter table.has

end SymbolTable

end Bindery
