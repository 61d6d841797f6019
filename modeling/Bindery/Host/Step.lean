/-
How a host does what it is asked.

Of a command the values that are written in it are made first, then what it names is
looked up, then it is done; a call finds its callable before the arguments are made,
and what is asked of a sequence, mapping or stream finds that before other values.
-/
import Bindery.Host.Command
import Bindery.Settings.Document

namespace Bindery.Host

/-! ### Finding what a command names -/

/-- The debugger that is meant. -/
def findDebugger (which : DebuggerRef) : Action DebuggerId := do
  match which.name?, which.handle? with
  | some name, _ => require (← get).debuggers[name]? .noDebugger
  | none, some handle => return (← space handle).debugger
  | none, none => return (← realm which.realm).debugger

/-- The registry that is meant. -/
def findRegistry (which : RegistryRef) : Action RegistryId := do
  match which.name? with
  | none => return (← realm which.realm).registry
  | some name =>
    match (← get).registries[name]? with
    | some registry => return registry
    | none =>
      let registry ← modifyDebugging (·.newRegistry)
      modify fun host => { host with registries := host.registries.insert name registry }
      return registry

/-- The sink that is meant. -/
def findSink : SinkDraft → Action Sink
  | .registry which => return .registry (← findRegistry which)
  | .announce => return .announce
  | .once which => return .once (← findRegistry which)
  | .handOver which => return .handOver (← findRegistry which)

/-- Makes a value that must be a sequence. -/
def evalSequence (e : Expr) : Action (Handle .sequence) := do
  require (← e.eval).asSequence? .notSequence

/-- Makes a value that must be a mapping. -/
def evalMapping (e : Expr) : Action (Handle .mapping) := do
  require (← e.eval).asMapping? .notMapping

/-- Makes a value that must be a stream. -/
def evalStream (e : Expr) : Action (Handle .stream) := do
  require (← e.eval).asStream? .notStream

/-- Calls a value with arguments that are made first. -/
def callValue (callee : Value) (args : List Expr) : Action Answer := do
  let callee ← require callee.asCallable? .notCallable
  let args ← Expr.evalItems args
  return .value (some (← onHeap (Heap.call args callee)))

/-- The heap as it is. -/
def heap : Action Heap := do
  return (← get).world.heap

/-! ### Commands, by what they are about -/

/-- Asks a namespace for an operation. -/
def operate (handle : String) (operation : Operation Expr) : Action Answer := do
  let operation ← operation.mapM Expr.eval
  return Answer.ofReply (← onSpace handle operation.perform)

/-- Calls what a spec addresses, if anything is there. -/
def callSpec (handle spec : String) (args : List Expr) : Action Answer := do
  match ← onSpace handle (Scope.find spec) with
  | none => return .value none
  | some callee => callValue callee args

/-- Edits the table of a namespace. -/
def edit (handle : String) (edit : Edit Expr) : Action Answer := do
  let edit ← edit.mapM Expr.eval
  match ← onSpace handle (modifyGet edit.apply) with
  | .entry found? => return .entry found?
  | .content value? => return .value value?
  | .slots slots => return .slots slots
  | .unbound => throw .unbound
  | .onlyStub => throw .onlyStub

/-- Answers a question about the table of a namespace, or saves or replaces it. -/
def tableStep (handle : String) : TableCommand → Action Answer
  | .entry name => return .entryReport (← space handle).table[name]?
  | .compare name entry => do
    let entry ← entry.mapM Expr.eval
    let table := (← space handle).table
    let heap ← heap
    return .maybeFlag (table[name]?.map (heap.equalEntries · entry.toEntry))
  | .contains name => return .flag ((← space handle).table.contains name)
  | .all => return .table (← space handle).table
  | .save name => do
    let table := (← space handle).table
    modify fun host => { host with tables := host.tables.insert name table }
    return .done
  | .load name => do
    let space ← space handle
    let table ← require (← get).tables[name]? .noTable
    modify (·.withSpace handle { space with table })
    return .done

/-- Acts on realms and handles. -/
def realmStep : RealmCommand → Action Answer
  | .make name document? => do
    let settings ←
      match document? with
      | none => pure {}
      | some document => require (Settings.ofDocument? document) .badDocument
    newRealm name settings
    return .done
  | .openSpace handle name ident => return .text (← openSpace handle name ident)
  | .newSpace handle ident debugger? => do
    let debugger ←
      match debugger? with
      | some which => findDebugger which
      | none => modifyDebugging (·.newDebugger {})
    match Namespace.make ident debugger with
    | .error e => throw (.refused e)
    | .ok space =>
      setSeat handle (.owned space)
      return .done
  | .find name ident => do
    let found := (← realm name).spaces[ident]?
    return .space (found.map fun space => (space.ident, space.table.names none))
  | .closeSpace name ident handle? => do
    let (removed?, changed, world) := (← realm name).closeSpace ident (← get).world
    modify ({ · with world })
    setRealm name changed
    match removed?, handle? with
    | some space, some handle => setSeat handle (.owned space)
    | _, _ => pure ()
    return .flag removed?.isSome
  | .idents name => return .names (← realm name).idents

/-- Acts on debuggers and registries. -/
def debugStep : DebugCommand → Action Answer
  | .make name sink? => do
    let debugger ←
      match sink? with
      | none => pure {}
      | some which => pure (Debugger.withSink (.registry (← findRegistry which)))
    let id ← modifyDebugging (·.newDebugger debugger)
    modify fun host => { host with debuggers := host.debuggers.insert name id }
    return .done
  | .state which => do
    let id ← findDebugger which
    return .debugger ((← get).world.debugging.debugger id)
  | .isRealms which => do
    let id ← findDebugger which
    return .flag (id == (← realm which.realm).debugger)
  | .setEnabled which enabled => do
    let id ← findDebugger which
    modifyDebugging fun g => ((), g.setEnabled id enabled)
    return .done
  | .setSink which sink => do
    let id ← findDebugger which
    let sink ← findSink sink
    let before ← modifyDebugging fun g => ((g.debugger id).sink?, g.setSink id sink)
    return .flag before.isSome
  | .emit which name hint => do
    let id ← findDebugger which
    modify fun host => { host with world := host.world.emit id name hint.resolve }
    return .done
  | .registry which => do
    let id ← findRegistry which
    return .registry ((← get).world.debugging.registry id)
  | .lookup which name => do
    let id ← findRegistry which
    return .range ((← get).world.debugging.registry id)[name]?

/-- Answers a question about values. -/
def valueStep : ValueCommand → Action Answer
  | .read e => return .value (some (← e.eval))
  | .display e => do
    let value ← e.eval
    return .text ((← heap).display value)
  | .debug e => do
    let value ← e.eval
    return .text ((← heap).debug value)
  | .equal a b => do
    let a ← a.eval
    let b ← b.eval
    return .flag ((← heap).equal a b)
  | .same a b => do
    let a ← a.eval
    let b ← b.eval
    return .flag (a.same b)
  | .referent e => do
    let value ← e.eval
    return .value (value.asRef?.map (← heap).referent)
  | .invoke callee args => do callValue (← callee.eval) args

/-- Acts on a sequence, a mapping or a stream. -/
def cellStep : CellCommand → Action Answer
  | .push on e => do
    let s ← evalSequence on
    let value ← e.eval
    let items ← modifyHeap fun h =>
      let items := (h.items s).push value
      (items, h.setItems s items)
    return .count items.size
  | .pop on => do
    let s ← evalSequence on
    .value <$> modifyHeap fun h => ((h.items s).back?, h.setItems s (h.items s).pop)
  | .item on index => do
    let s ← evalSequence on
    return .value ((← heap).items s)[index]?
  | .length on => do
    let s ← evalSequence on
    return .size ((← heap).items s).size
  | .insert on key e => do
    let m ← evalMapping on
    let value ← e.eval
    .value <$> modifyHeap fun h => ((h.pairs m)[key]?, h.setPairs m ((h.pairs m).insert key value))
  | .lookup on key => do
    let m ← evalMapping on
    return .value ((← heap).pairs m)[key]?
  | .erase on key => do
    let m ← evalMapping on
    .value <$> modifyHeap fun h => ((h.pairs m)[key]?, h.setPairs m ((h.pairs m).erase key))
  | .keys on => do
    let m ← evalMapping on
    return .names ((← heap).pairs m).keys
  | .size on => do
    let m ← evalMapping on
    return .size ((← heap).pairs m).size
  | .write on line => do
    let s ← evalStream on
    .flag <$> modifyHeap fun h => ((h.lineStream s).write line).map id (h.setStream s)
  | .read on => do
    let s ← evalStream on
    .maybeText <$> modifyHeap fun h => (h.lineStream s).read.map id (h.setStream s)
  | .close on => do
    let s ← evalStream on
    modifyHeap fun h => (.done, h.setStream s (h.lineStream s).close)
  | .state on => do
    let s ← evalStream on
    return .stream ((← heap).lineStream s)

/-! ### Steps -/

/-- Does what is asked. -/
def perform : Command → Action Answer
  | .operation handle operation => operate handle operation
  | .call handle spec args => callSpec handle spec args
  | .describe handle name? => do
    let space ← space handle
    return .description space.ident (name?.map (qualify space.ident))
  | .edit handle change => edit handle change
  | .table handle command => tableStep handle command
  | .realm command => realmStep command
  | .debugging command => debugStep command
  | .hold register value => do
    setRegister register (← value.eval)
    return .done
  | .value command => valueStep command
  | .cell command => cellStep command

/-- Does what is asked; a value that is answered also goes into a register, if one is named. -/
def step (command : Command) (register? : Option String) : Action Answer := do
  let answer ← perform command
  match answer, register? with
  | .value (some value), some register => setRegister register value
  | _, _ => pure ()
  return answer

/-- A host with the realm `r` and in it a namespace that the handle `main` points at. -/
def start (settings : Settings) (ident : String) : Action Unit := do
  newRealm "r" settings
  discard (openSpace "main" "r" ident)

/-! ### Answers with their events -/

/-- What came of an action, the events it made, and the host after it. -/
structure Outcome (α : Type) where
  result : Except HostError α
  events : List Event
  host : Host

/-- Acts on a host, taking the events that are made out of the trace. -/
def attempt {α : Type} (act : Action α) (host : Host) : Outcome α :=
  let take (host : Host) : List Event × Host :=
    (host.world.trace.toList, { host with world := { host.world with trace := #[] } })
  match act host with
  | .ok a host => let (events, host) := take host; ⟨.ok a, events, host⟩
  | .error e host => let (events, host) := take host; ⟨.error e, events, host⟩

end Bindery.Host
