/-
What a host can be asked, and what it answers.
-/
import Bindery.Host.Expr
import Bindery.Namespace.Edit
import Bindery.Namespace.Operation

namespace Bindery

/-- Which debugger is meant: one known by name, else a namespace's, else a realm's. -/
structure DebuggerRef where
  name? : Option String := none
  handle? : Option String := none
  realm : String

/-- A name alone means the debugger that is known by it. -/
instance : Coe String DebuggerRef :=
  ⟨fun name => { name? := some name, realm := "" }⟩

/-- Which registry is meant: one known by name, made at its first use, else a realm's. -/
structure RegistryRef where
  name? : Option String := none
  realm : String

/-- Which sink is meant. -/
inductive SinkDraft where
  | registry (registry : RegistryRef)
  | announce
  | once (registry : RegistryRef)
  | handOver (registry : RegistryRef)

/-- A change of a sequence, mapping or stream, or a question about one. -/
inductive CellCommand where
  | push (sequence : Expr) (value : Expr)
  | pop (sequence : Expr)
  | item (sequence : Expr) (index : Nat)
  | length (sequence : Expr)
  | insert (mapping : Expr) (key : String) (value : Expr)
  | lookup (mapping : Expr) (key : String)
  | erase (mapping : Expr) (key : String)
  | keys (mapping : Expr)
  | size (mapping : Expr)
  | write (stream : Expr) (line : String)
  | read (stream : Expr)
  | close (stream : Expr)
  | state (stream : Expr)

/-- A question about values. -/
inductive ValueCommand where
  | read (value : Expr)
  | display (value : Expr)
  | debug (value : Expr)
  | equal (a b : Expr)
  | same (a b : Expr)
  | referent (value : Expr)
  | invoke (callee : Expr) (args : List Expr)

/-- A question about the table of a namespace, or a use of it as a whole. -/
inductive TableCommand where
  | entry (name : String)
  | compare (name : String) (entry : EntryDraft Expr)
  | contains (name : String)
  | all
  | save (name : String)
  | load (name : String)

/-- What is done with realms and handles. -/
inductive RealmCommand where
  | make (realm : String) (document? : Option String)
  | openSpace (handle realm ident : String)
  /-- A namespace of no realm, on the debugger that is meant or else on a new one. -/
  | newSpace (handle ident : String) (debugger? : Option DebuggerRef)
  | find (realm ident : String)
  | closeSpace (realm ident : String) (handle? : Option String)
  | idents (realm : String)

/-- What is done with debuggers and registries. -/
inductive DebugCommand where
  | make (name : String) (sink? : Option RegistryRef)
  | state (debugger : DebuggerRef)
  /-- Whether the debugger is the one of the realm. -/
  | isRealms (debugger : DebuggerRef)
  | setEnabled (debugger : DebuggerRef) (enabled : Bool)
  | setSink (debugger : DebuggerRef) (sink : SinkDraft)
  | emit (debugger : DebuggerRef) (name : String) (hint : RangeHint)
  | registry (registry : RegistryRef)
  | lookup (registry : RegistryRef) (name : String)

/-- What a host can be asked. -/
inductive Command where
  | operation (handle : String) (operation : Operation Expr)
  /-- Calls what a spec addresses. -/
  | call (handle : String) (spec : String) (args : List Expr)
  /-- Gives the identifier of a namespace, and the name that a bare name has outside of it. -/
  | describe (handle : String) (name? : Option String)
  | edit (handle : String) (edit : Edit Expr)
  | table (handle : String) (command : TableCommand)
  | realm (command : RealmCommand)
  | debugging (command : DebugCommand)
  /-- Puts a value into a register. -/
  | hold (register : String) (value : Expr)
  | value (command : ValueCommand)
  | cell (command : CellCommand)

/-- What a host answers. -/
inductive Answer where
  | done
  | flag (b : Bool)
  | maybeFlag (b? : Option Bool)
  | text (s : String)
  | maybeText (s? : Option String)
  | names (names : List String)
  | count (n : Nat)
  /-- How many there are, and so whether there are none. -/
  | size (n : Nat)
  | value (value? : Option Value)
  | entry (found? : Option Entry)
  /-- An entry with all that can be asked of it. -/
  | entryReport (found? : Option Entry)
  | bindings (bindings : List (String × Value))
  | slots (slots : Slots)
  | table (table : SymbolTable)
  | description (ident : String) (qualified? : Option String)
  | space (space? : Option (String × List String))
  | debugger (debugger : Debugger)
  | registry (registry : Registry)
  | range (range? : Option SourceRange)
  | stream (stream : LineStream)

/-- The answer that tells of a reply. -/
def Answer.ofReply : Reply → Answer
  | .done => .done
  | .answer holds => .flag holds
  | .value value? => .value value?
  | .entry found? => .entry found?
  | .names found => .names found
  | .bindings found => .bindings found

end Bindery
