/-
Events as records of a log.

A record has a level, the part of the program it comes from, a message, and named
fields in a fixed order.
-/
import Bindery.Event
import Bindery.Settings

namespace Bindery

/-- How much an event matters. -/
inductive Level where
  | trace
  | debug
  | info
  deriving DecidableEq, Repr

/-- The word for a level. -/
def Level.text : Level → String
  | .trace => "TRACE"
  | .debug => "DEBUG"
  | .info => "INFO"

/-- What a field of a record holds. -/
inductive Field where
  | text (s : String)
  | flag (b : Bool)
  | count (n : Nat)
  deriving DecidableEq, Repr

namespace Event

/-- How much an event matters. -/
def level : Event → Level
  | bound .. | nameRemoved .. | recording .. => .trace
  | announced .. => .info
  | _ => .debug

/-- The part of the program that an event comes from. -/
def target : Event → String
  | realmCreated .. | namespaceCreated .. | namespaceRemoved .. => "symstash::realm"
  | debugOverridden .. => "symstash::config"
  | bound .. => "symstash::stash::add"
  | stubDiscarded .. => "symstash::stash::table"
  | vivifying .. => "symstash::stash::get"
  | removingKind .. | nameRemoved .. => "symstash::stash::remove"
  | recording .. | announced .. => "symstash::debug"

/-- What an event says. -/
def message : Event → String
  | realmCreated .. => "realm created"
  | namespaceCreated .. => "namespace created"
  | namespaceRemoved .. => "namespace removed"
  | debugOverridden .. => "debug override"
  | bound .. => "bind"
  | stubDiscarded .. => "discarding stub for a full binding set"
  | vivifying .. => "vivifying"
  | removingKind .. => "removing single kind"
  | nameRemoved .. => "remove_all"
  | recording .. => "recording callable location"
  | announced .. => "callable defined"

/-- The fields of an event. -/
def fields : Event → List (String × Field)
  | realmCreated debug => [("debug", .flag debug)]
  | namespaceCreated ident => [("namespace", .text ident)]
  | namespaceRemoved ident => [("namespace", .text ident)]
  | debugOverridden raw debug =>
    [("env", .text Settings.debugVariable), ("raw", .text raw), ("debug", .flag debug)]
  | bound ident spec installed keptStub =>
    [("namespace", .text ident), ("name", .text spec.name), ("kind", .text spec.kind.text),
      ("installed", .flag installed), ("kept_stub", .flag keptStub)]
  | stubDiscarded name raw => [("name", .text name), ("raw", .text raw)]
  | vivifying ident spec =>
    [("namespace", .text ident), ("name", .text spec.name), ("kind", .text spec.kind.text)]
  | removingKind ident spec kept =>
    [("namespace", .text ident), ("spec", .text spec.text), ("kept", .count kept)]
  | nameRemoved ident name existed =>
    [("namespace", .text ident), ("name", .text name), ("existed", .flag existed)]
  | recording name range => [("name", .text name), ("location", .text range.text)]
  | announced name range => [("name", .text name), ("location", .text range.text)]

end Event

end Bindery
