/-
Why an operation on a namespace fails.

Each cause carries what its message names: the text that was refused, the
qualified name, the kind, the word for the value that did not fit.  The wording is
in `BindError.message` alone.
-/
import Bindery.Kind
import Bindery.Text.Quoted

namespace Bindery

/-- The causes of failure. -/
inductive BindError where
  /-- A tagged name without a name in it. -/
  | invalidSpec (spec : String)
  /-- An empty namespace identifier. -/
  | invalidNamespace (ident : String)
  /-- A value whose type does not fit the kind it was to be bound as. -/
  | typeMismatch (name : String) (kind : Kind) (found : String)
  /-- A callable was to be made up where none is bound. -/
  | vivifyUnsupported (name : String)
  /-- A callable that was declared but has no body was called. -/
  | undefinedCallable (name : String)
  /-- A word that names no kind. -/
  | unknownKind (word : String)
  /-- The message with which a callable failed. -/
  | raised (message : String)
  /-- A state that the namespace never reaches. -/
  | internalInvariant (context : String)
  deriving DecidableEq, Repr

namespace BindError

open Text (debugQuoted)

/-- The text of a failure. -/
def message : BindError → String
  | invalidSpec spec =>
    "invalid name spec " ++ debugQuoted spec ++ ": a non-empty name is required"
  | invalidNamespace ident =>
    "invalid namespace " ++ debugQuoted ident ++ ": a non-empty identifier is required"
  | typeMismatch name kind found =>
    found ++ " value cannot be bound as " ++ kind.text ++ " " ++ kind.tagText ++ name
  | vivifyUnsupported name =>
    "cannot vivify callable &" ++ name ++ ": callables have no empty default"
  | undefinedCallable name => "Undefined subroutine &" ++ name ++ " called"
  | unknownKind word => "unknown binding kind " ++ debugQuoted word
  | raised message => message
  | internalInvariant context => "internal invariant violated: " ++ context

end BindError

/-- Reads a kind, refusing a word that names none. -/
def Kind.parse (word : String) : Except BindError Kind :=
  match ofText? word with
  | some kind => .ok kind
  | none => .error (.unknownKind word)

end Bindery
