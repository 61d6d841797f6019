/-
Addressed names.

A spec is what a program writes to address one binding: a tag character and a bare
name, or a bare name alone for a stream.  Reading one splits it; `Spec.text` writes
it back.  A qualified name joins the identifier of a namespace and a bare name.
-/
import Bindery.Error

namespace Bindery

/-- A bare name together with the kind it is addressed as. -/
structure Spec where
  name : String
  kind : Kind
  deriving DecidableEq, Repr, Inhabited

namespace Spec

/--
Splits a spec.  A first character that is a tag gives the kind and the rest is the
name; any other text is the name of a stream.  The name must not be empty.
-/
def parse (spec : String) : Except BindError Spec :=
  match spec.toList with
  | [] => .error (.invalidSpec spec)
  | first :: rest =>
    match Kind.ofTag? first with
    | none => .ok ⟨spec, .stream⟩
    | some kind =>
      if rest.isEmpty then .error (.invalidSpec spec) else .ok ⟨String.ofList rest, kind⟩

/-- The spec as it is written: the tag, then the name. -/
def text (spec : Spec) : String :=
  spec.kind.tagText ++ spec.name

end Spec

/-- What stands between the identifier of a namespace and a bare name. -/
def qualifier : String := "::"

/-- The name of `name` seen from outside the namespace `ident`. -/
def qualify (ident name : String) : String :=
  ident ++ qualifier ++ name

end Bindery
