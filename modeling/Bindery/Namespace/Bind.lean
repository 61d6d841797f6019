/-
Binding names.

A value that is given must fit the kind it is bound as.  Where none is given the
empty value of the kind is bound, except for callables, which have none: those are
declared.  A declared callable leaves a stub of its name in place, since that says
all that a declaration says; whatever else is bound makes a stub give way.

The place of a callable goes to the debugger when a caller binds one, and only then:
not when one is declared, and not when one is bound again by the namespace itself.
-/
import Bindery.Namespace

namespace Bindery

/-- Who binds a name. -/
inductive Origin where
  /-- A caller, who may state the place of it. -/
  | caller (hint : RangeHint)
  /-- The namespace itself, which binds again what was bound before. -/
  | renewal
  deriving DecidableEq, Repr

namespace Scope

/-- What may change a namespace and its world and may fail; what was changed stays changed. -/
abbrev Action := EStateM BindError Scope

/-- Reads a spec. -/
def parse (spec : String) : Action Spec :=
  ofExcept (Spec.parse spec)

/-- The value to bind: the one given, or the empty value of the kind if there is one. -/
def valueFor (s : Scope) (kind : Kind) (given? : Option Value) : Option Value × Scope :=
  match given? with
  | some value => (some value, s)
  | none => s.newEmpty kind

/-- Binds a name to a value that fits, or declares it. -/
def place (s : Scope) (spec : Spec) (given? : Option Value) (origin : Origin) : Scope :=
  let (value?, s) := s.valueFor spec.kind given?
  let installed := value?.isSome
  let keptStub := !installed && s.table.isStub spec.name
  let s := if keptStub then s else s.fill spec value?
  let s := s.log (.bound s.space.ident spec installed keptStub)
  match origin with
  | .caller hint =>
    if installed && spec.kind == .callable then s.report spec.name hint else s
  | .renewal => s

/-- Binds a name to a value, refusing one that does not fit. -/
def bind (spec : Spec) (given? : Option Value) (origin : Origin) : Action Unit := do
  let s ← get
  match given? with
  | some value =>
    if value.fits spec.kind then set (s.place spec given? origin)
    else throw (.typeMismatch (s.qualify spec.name) spec.kind value.typeName)
  | none => set (s.place spec given? origin)

/-- Binds what a spec addresses, or declares it when no value is given. -/
def add (spec : String) (value? : Option Value) (hint : RangeHint) : Action Unit := do
  bind (← parse spec) value? (.caller hint)

end Scope

end Bindery
