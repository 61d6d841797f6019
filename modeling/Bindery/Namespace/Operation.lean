/-
The operations on a namespace, as data.

Programs address a namespace by operations and get replies.  The type of the values
in an operation is left open, so that an operation can be written before its values
are there.
-/
import Bindery.Namespace.Read
import Bindery.Namespace.Remove

namespace Bindery

/-- What a program asks of a namespace. -/
inductive Operation (V : Type) where
  | add (spec : String) (value? : Option V) (hint : RangeHint)
  | has (spec : String)
  | find (spec : String)
  | vivify (spec : String)
  | remove (spec : String)
  | removeAll (name : String)
  | names (kind? : Option Kind)
  | bindings (kind : Kind)

/-- What a namespace gives back. -/
inductive Reply where
  | done
  | answer (holds : Bool)
  | value (value? : Option Value)
  | entry (found? : Option Entry)
  | names (names : List String)
  | bindings (bindings : List (String × Value))

namespace Operation

/-- The operation with its value made. -/
def mapM {V W : Type} {m : Type → Type} [Monad m] (f : V → m W) : Operation V → m (Operation W)
  | add spec value? hint => return .add spec (← value?.mapM f) hint
  | has spec => return .has spec
  | find spec => return .find spec
  | vivify spec => return .vivify spec
  | remove spec => return .remove spec
  | removeAll name => return .removeAll name
  | names kind? => return .names kind?
  | bindings kind => return .bindings kind

/-- Performs an operation. -/
def perform : Operation Value → Scope.Action Reply
  | add spec value? hint => do Scope.add spec value? hint; return .done
  | has spec => return .answer (← Scope.has spec)
  | find spec => return .value (← Scope.find spec)
  | vivify spec => return .value (some (← Scope.vivify spec))
  | remove spec => do Scope.remove spec; return .done
  | removeAll name => return .entry (← Scope.removeAll name)
  | names kind? => return .names (← Scope.names kind?)
  | bindings kind => return .bindings (← Scope.bindings kind)

end Operation

end Bindery
