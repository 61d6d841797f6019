/-
Removing names.

One binding of a name is removed by reading the others, removing the whole entry and
binding the others again.  Bindings that do not count, such as a scalar that is
undefined, are not read and so are lost; a stub comes back as the callable it stood
for.  If a value that is bound again does not fit its kind, the removal stops there.
-/
import Bindery.Namespace.Bind

namespace Bindery.Scope

/-- Removes every binding of a name, and gives its entry. -/
def removeAll (name : String) : Action (Option Entry) :=
  modifyGet (·.drop name)

/-- Removes the binding that a spec addresses. -/
def remove (spec : String) : Action Unit := do
  let spec ← parse spec
  let kept ← modifyGet fun s => s.readAll (s.table.readings (s.table.siblingsOf spec))
  modify fun s => s.log (.removingKind s.space.ident spec kept.length)
  discard (removeAll spec.name)
  kept.forM fun pair => bind pair.1 (some pair.2) .renewal

end Bindery.Scope
