/-
Reading names.

`has` asks whether a binding counts, `find` gives what is bound, and `vivify` binds
the empty value of the kind first where nothing is bound.  A stub is read as the
callable it stands for, a new one at each reading, and stays a stub.
-/
import Bindery.Namespace.Bind

namespace Bindery.Scope

/-- Whether a spec addresses a binding that counts. -/
def has (spec : String) : Action Bool := do
  let spec ← parse spec
  return (← get).table.has spec

/-- The value that a spec addresses, if there is one. -/
def find (spec : String) : Action (Option Value) := do
  let spec ← parse spec
  modifyGet (·.lookup spec)

/--
The value that a spec addresses.  Where there is none the empty value of the kind is
bound and given; a callable has none, so that an unbound one is refused.
-/
def vivify (spec : String) : Action Value := do
  let spec ← parse spec
  match ← modifyGet (·.lookup spec) with
  | some value => return value
  | none =>
    match ← modifyGet (·.newEmpty spec.kind) with
    | none => throw (.vivifyUnsupported ((← get).qualify spec.name))
    | some value =>
      modify fun s => s.log (.vivifying s.space.ident spec)
      bind spec (some value) (.caller {})
      return value

/-- The names that count as bound as a kind, or all names that have an entry. -/
def names (kind? : Option Kind) : Action (List String) := do
  return (← get).table.names kind?

/-- The values bound as a kind, by their names. -/
def bindings (kind : Kind) : Action (List (String × Value)) := do
  let found ← modifyGet fun s => s.readAll (s.table.readings (s.table.specsOf kind))
  return found.map fun pair => (pair.1.name, pair.2)

end Bindery.Scope
