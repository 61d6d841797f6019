/-
Hosts that differ in debugging only.

Two hosts are alike when whatever they know is alike: the worlds, the namespaces that their
realms keep and their handles hold, the values in their registers and the tables they saved.
Which debuggers and registries there are, what these hold and by which names they are known
may be anything.

Every command but those about debugging goes abreast on hosts that are alike, and may state
other places, other settings and other debuggers on one side than on the other.
-/
import Bindery.Proofs.Host.Sending
import Bindery.Proofs.Namespace.Alike

namespace Bindery

/-! ### Alike -/

/-- Two realms keep namespaces that are alike, under the same identifiers. -/
def Realm.Alike (r r' : Realm) : Prop :=
  Dict.Rel Namespace.Alike r.spaces r'.spaces

/-- Two handles stand for the same place in a realm, or hold namespaces that are alike. -/
inductive Seat.Alike : Seat → Seat → Prop where
  | kept (realm ident : String) : Alike (.kept realm ident) (.kept realm ident)
  | owned {a b : Namespace} (h : a.Alike b) : Alike (.owned a) (.owned b)

/-- All that two hosts know is alike, but for debuggers and registries. -/
structure Host.Alike (host host' : Host) : Prop where
  world : host.world.Alike host'.world
  realms : Dict.Rel Realm.Alike host.realms host'.realms
  seats : Dict.Rel Seat.Alike host.seats host'.seats
  registers : host.registers = host'.registers
  tables : host.tables = host'.tables

theorem Realm.Alike.refl (r : Realm) : r.Alike r :=
  Dict.Rel.refl Namespace.Alike.refl r.spaces

theorem Seat.Alike.refl (seat : Seat) : seat.Alike seat := by
  cases seat with
  | kept realm ident => exact .kept realm ident
  | owned space => exact .owned (.refl space)

namespace Host

namespace Alike

theorem refl (host : Host) : host.Alike host where
  world := .refl _
  realms := .refl Realm.Alike.refl _
  seats := .refl Seat.Alike.refl _
  registers := rfl
  tables := rfl

variable {host host' : Host} (h : host.Alike host')
include h

theorem heap : host.world.heap = host'.world.heap :=
  h.world.heap

theorem setWorld {w w' : World} (hw : w.Alike w') :
    Alike { host with world := w } { host' with world := w' } :=
  ⟨hw, h.realms, h.seats, h.registers, h.tables⟩

theorem setRealm (name : String) {realm realm' : Realm} (hrealm : realm.Alike realm') :
    Alike { host with realms := host.realms.insert name realm }
      { host' with realms := host'.realms.insert name realm' } :=
  ⟨h.world, h.realms.insert name hrealm, h.seats, h.registers, h.tables⟩

theorem setSeat (name : String) {seat seat' : Seat} (hseat : seat.Alike seat') :
    Alike { host with seats := host.seats.insert name seat }
      { host' with seats := host'.seats.insert name seat' } :=
  ⟨h.world, h.realms, h.seats.insert name hseat, h.registers, h.tables⟩

theorem setRegister (name : String) (value : Value) :
    Alike { host with registers := host.registers.insert name value }
      { host' with registers := host'.registers.insert name value } :=
  ⟨h.world, h.realms, h.seats, congrArg (·.insert name value) h.registers, h.tables⟩

theorem setTable (name : String) (table : SymbolTable) :
    Alike { host with tables := host.tables.insert name table }
      { host' with tables := host'.tables.insert name table } :=
  ⟨h.world, h.realms, h.seats, h.registers, congrArg (·.insert name table) h.tables⟩

/-- A handle has namespaces that are alike, or none. -/
theorem spaceOf? (handle : String) :
    Option.Rel Namespace.Alike (host.spaceOf? handle) (host'.spaceOf? handle) := by
  unfold Host.spaceOf?
  rcases rel_cases (h.seats handle) with ⟨hs, hs'⟩ | ⟨seat, seat', hs, hs', hseat⟩
  · rw [hs, hs']
    exact .none
  · rw [hs, hs']
    cases hseat with
    | owned hspace => exact .some hspace
    | kept realm ident =>
        show Option.Rel _ (host.realms[realm]?.bind _) (host'.realms[realm]?.bind _)
        rcases rel_cases (h.realms realm) with ⟨hr, hr'⟩ | ⟨r, r', hr, hr', hrealm⟩
        · rw [hr, hr']
          exact .none
        · rw [hr, hr']
          exact hrealm ident

theorem withSpace (handle : String) {space space' : Namespace} (hspace : space.Alike space') :
    (host.withSpace handle space).Alike (host'.withSpace handle space') := by
  unfold Host.withSpace
  rcases rel_cases (h.seats handle) with ⟨hs, hs'⟩ | ⟨seat, seat', hs, hs', hseat⟩
  · rw [hs, hs']
    exact h
  · rw [hs, hs']
    cases hseat with
    | owned _ => exact h.setSeat handle (.owned hspace)
    | kept realm ident =>
        simp only
        rcases rel_cases (h.realms realm) with ⟨hr, hr'⟩ | ⟨r, r', hr, hr', hrealm⟩
        · rw [hr, hr']
          exact h
        · rw [hr, hr']
          exact h.setRealm realm (hrealm.insert ident hspace)

theorem withScope (handle : String) {scope scope' : Scope} (hscope : scope.Alike scope') :
    (host.withScope handle scope).Alike (host'.withScope handle scope') :=
  (h.setWorld hscope.world).withSpace handle hscope.space

end Alike

/-! ### What goes abreast -/

theorem abreast_require {α β : Type} {R : α → β → Prop} {found? : Option α} {found?' : Option β}
    (h : Option.Rel R found? found?') (e : HostError) :
    Abreast Alike R (Host.require found? e) (Host.require found?' e) := by
  cases h with
  | none => exact .throw e
  | some h => exact .pure h

theorem abreast_require_eq {α : Type} (found? : Option α) (e : HostError) :
    Abreast Alike Eq (Host.require found? e) (Host.require found? e) := by
  cases found? with
  | none => exact .throw e
  | some found => exact .pure rfl

theorem abreast_onHeap {α : Type} (act : Heap.Action α) :
    Abreast Alike Eq (Host.onHeap act) (Host.onHeap act) := by
  intro host host' h
  unfold Host.onHeap
  rw [h.heap]
  cases act host'.world.heap with
  | ok a heap => exact .ok rfl (h.setWorld (h.world.setHeap heap))
  | error e heap => exact .error _ (h.setWorld (h.world.setHeap heap))

/-- All that is done with values goes abreast. -/
theorem abreast_parts : Parts fun {_} act => Abreast Alike Eq act act where
  pure _ := .pure rfl
  throw e := .throw e
  bind hact hnext := hact.bind_eq hnext
  register name := by
    refine Abreast.get.bind fun host host' h => ?_
    rw [h.registers]
    exact abreast_require_eq _ _
  heap := by
    refine Abreast.get.bind fun host host' h => ?_
    rw [h.heap]
    exact .pure rfl
  newCallable _ := abreast_onHeap _
  cells _ _ := abreast_onHeap _
  call _ _ := abreast_onHeap _

theorem abreast_realm (name : String) :
    Abreast Alike Realm.Alike (Host.realm name) (Host.realm name) :=
  Abreast.get.bind fun _ _ h => abreast_require (h.realms name) _

theorem abreast_space (handle : String) :
    Abreast Alike Namespace.Alike (Host.space handle) (Host.space handle) :=
  Abreast.get.bind fun _ _ h => abreast_require (h.spaceOf? handle) _

theorem abreast_setRegister (name : String) (value : Value) :
    Abreast Alike Eq (Host.setRegister name value) (Host.setRegister name value) :=
  .modify fun _ _ h => h.setRegister name value

/-- What goes abreast on namespaces that are alike goes abreast on the hosts. -/
theorem abreast_onSpace {α : Type} (handle : String) {act act' : Scope.Action α}
    (hact : Abreast Scope.Alike Eq act act') :
    Abreast Alike Eq (Host.onSpace handle act) (Host.onSpace handle act') := by
  intro host host' h
  rw [onSpace_run, onSpace_run]
  rcases rel_cases (h.spaceOf? handle) with ⟨hs, hs'⟩ | ⟨space, space', hs, hs', hspace⟩
  · rw [hs, hs']
    exact .error _ h
  · rw [hs, hs']
    have hscope : Scope.Alike ⟨space, host.world⟩ ⟨space', host'.world⟩ := ⟨hspace, h.world⟩
    rcases (hact _ _ hscope).cases with ⟨a, b, scope, scope', heq, heq', hresult, hafter⟩ |
      ⟨e, scope, scope', heq, heq', hafter⟩
    · simp only [heq, heq']
      exact .ok hresult (h.withScope handle hafter)
    · simp only [heq, heq']
      exact .error _ (h.withScope handle hafter)

/-! ### Commands that differ in debugging -/

end Host

/-- The settings that are stated for a new realm, if they can be read. -/
def Settings.stated? : Option String → Option Settings
  | none => some {}
  | some document => Settings.ofDocument? document

/-- A command about debuggers and registries. -/
def Command.isDebugging : Command → Bool
  | .debugging _ => true
  | _ => false

/--
Two commands are the same, none about debuggers and registries, but for the places, the
settings and the debuggers that they state.
-/
inductive Command.Twin : Command → Command → Prop where
  | same {command : Command} (h : command.isDebugging = false) : Twin command command
  | operation (handle : String) {operation operation' : Operation Expr}
      (h : operation.Twin operation') :
      Twin (.operation handle operation) (.operation handle operation')
  | makeRealm (name : String) {document? document?' : Option String}
      (h : (Settings.stated? document?).isSome = (Settings.stated? document?').isSome) :
      Twin (.realm (.make name document?)) (.realm (.make name document?'))
  | newSpace (handle ident : String) (debugger? debugger?' : Option DebuggerRef) :
      Twin (.realm (.newSpace handle ident debugger?)) (.realm (.newSpace handle ident debugger?'))

namespace Host

/-- The debugger that a command states for a new namespace is there. -/
def Knows (host : Host) : Command → Prop
  | .realm (.newSpace _ _ (some which)) => (host.debuggerOf? which).isSome = true
  | _ => True

theorem abreast_operationMapM {operation operation' : Operation Expr}
    (htwin : operation.Twin operation') :
    Abreast Alike Operation.Twin (operation.mapM Expr.eval) (operation'.mapM Expr.eval) := by
  cases htwin with
  | same =>
      refine (abreast_parts.operationMapM operation).imp ?_
      intro made made' heq
      rw [heq]
      exact .same made'
  | placed text value? hint hint' =>
      refine (abreast_parts.optionMapM value? abreast_parts.eval).bind ?_
      intro value? value?' heq
      rw [heq]
      exact .pure (.placed text value?' hint hint')

theorem abreast_operate (handle : String) {operation operation' : Operation Expr}
    (htwin : operation.Twin operation') :
    Abreast Alike Eq (Host.operate handle operation) (Host.operate handle operation') := by
  refine (abreast_operationMapM htwin).bind fun made made' hmade => ?_
  exact (abreast_onSpace handle (Operation.abreast hmade)).bind_eq fun _ => .pure rfl

theorem abreast_callSpec (handle spec : String) (args : List Expr) :
    Abreast Alike Eq (Host.callSpec handle spec args) (Host.callSpec handle spec args) := by
  refine (abreast_onSpace handle (Scope.abreast_find spec)).bind_eq fun callee? => ?_
  cases callee? with
  | none => exact .pure rfl
  | some callee => exact abreast_parts.callValue callee args

theorem abreast_edit (handle : String) (change : Edit Expr) :
    Abreast Alike Eq (Host.edit handle change) (Host.edit handle change) := by
  refine (abreast_parts.editMapM change).bind_eq fun change => ?_
  refine Abreast.bind_eq (abreast_onSpace handle (.modifyGet fun s t h => h.edit change)) ?_
  intro outcome
  cases outcome with
  | unbound => exact .throw _
  | onlyStub => exact .throw _
  | _ => exact .pure rfl

theorem abreast_tableStep (handle : String) (command : TableCommand) :
    Abreast Alike Eq (Host.tableStep handle command) (Host.tableStep handle command) := by
  have hspace := abreast_space handle
  cases command with
  | entry name =>
      refine hspace.bind fun space space' h => ?_
      rw [h.table]
      exact .pure rfl
  | compare name draft =>
      refine (abreast_parts.draftMapM draft).bind_eq fun draft => ?_
      refine hspace.bind fun space space' h => ?_
      refine abreast_parts.heap.bind_eq fun heap => ?_
      rw [h.table]
      exact .pure rfl
  | contains name =>
      refine hspace.bind fun space space' h => ?_
      rw [h.table]
      exact .pure rfl
  | all =>
      refine hspace.bind fun space space' h => ?_
      rw [h.table]
      exact .pure rfl
  | save name =>
      refine hspace.bind fun space space' h => ?_
      rw [h.table]
      exact Abreast.bind_eq (.modify fun _ _ hhost => hhost.setTable name _) fun _ => .pure rfl
  | load name =>
      refine hspace.bind fun space space' h => ?_
      refine Abreast.get.bind fun host host' hhost => ?_
      rw [hhost.tables]
      refine (abreast_require_eq _ _).bind_eq fun table => ?_
      refine Abreast.bind_eq (.modify fun _ _ hhost => ?_) fun _ => .pure rfl
      exact hhost.withSpace handle ⟨h.ident, rfl⟩

/-! ### Realms -/

/-- Realms may be made with different settings. -/
theorem abreast_newRealm (name : String) (settings settings' : Settings) :
    Abreast Alike Eq (Host.newRealm name settings) (Host.newRealm name settings') := by
  refine Abreast.bind (R := Realm.Alike) (.modifyGet fun host host' h => ?_) ?_
  · refine ⟨Dict.Rel.refl Namespace.Alike.refl _, h.setWorld ?_⟩
    exact (h.world.setDebugging _ _).log rfl
  · intro made made' hmade
    exact .modify fun _ _ h => h.setRealm name hmade

theorem makeRealm_eq (name : String) (document? : Option String) :
    Host.realmStep (.make name document?)
      = Host.require (Settings.stated? document?) .badDocument >>= fun settings =>
          Host.newRealm name settings >>= fun _ => pure .done := by
  cases document? <;> rfl

theorem abreast_makeRealm (name : String) {document? document?' : Option String}
    (hread : (Settings.stated? document?).isSome = (Settings.stated? document?').isSome) :
    Abreast Alike Eq (Host.realmStep (.make name document?))
      (Host.realmStep (.make name document?')) := by
  have hrequire : Option.Rel (fun _ _ => True) (Settings.stated? document?)
      (Settings.stated? document?') := by
    cases hs : Settings.stated? document? with
    | none =>
        cases hs' : Settings.stated? document?' with
        | none => exact .none
        | some settings' => simp [hs, hs'] at hread
    | some settings =>
        cases hs' : Settings.stated? document?' with
        | none => simp [hs, hs'] at hread
        | some settings' => exact .some trivial
  rw [makeRealm_eq, makeRealm_eq]
  refine (abreast_require hrequire _).bind fun settings settings' _ => ?_
  exact (abreast_newRealm name settings settings').bind_eq fun _ => .pure rfl

theorem abreast_openSpace (handle name ident : String) :
    Abreast Alike Eq (Host.openSpace handle name ident) (Host.openSpace handle name ident) := by
  intro host host' h
  rw [openSpace_run, openSpace_run]
  rcases rel_cases (h.realms name) with ⟨hr, hr'⟩ | ⟨realm, realm', hr, hr', hrealm⟩
  · rw [hr, hr']
    exact .error _ h
  · rw [hr, hr']
    simp only [Realm.openSpace]
    rcases rel_cases (hrealm ident) with ⟨hs, hs'⟩ | ⟨space, space', hs, hs', hspace⟩
    · rw [hs, hs']
      simp only [Namespace.make]
      cases ident.isEmpty with
      | true => exact .error _ h
      | false =>
          have hinserted : Realm.Alike
              { realm with spaces := realm.spaces.insert ident ⟨ident, ∅, realm.debugger⟩ }
              { realm' with spaces := realm'.spaces.insert ident ⟨ident, ∅, realm'.debugger⟩ } :=
            Dict.Rel.insert hrealm ident ⟨rfl, rfl⟩
          have hopened := (h.setWorld (h.world.log_same [.namespaceCreated ident])).setRealm name
            hinserted
          exact .ok rfl (hopened.setSeat handle (.kept name ident))
    · rw [hs, hs']
      exact .ok hspace.ident ((h.setRealm name hrealm).setSeat handle (.kept name ident))

theorem abreast_closeSpace (name ident : String) (handle? : Option String) :
    Abreast Alike Eq (Host.realmStep (.closeSpace name ident handle?))
      (Host.realmStep (.closeSpace name ident handle?)) := by
  intro host host' h
  rw [closeSpace_run, closeSpace_run]
  rcases rel_cases (h.realms name) with ⟨hr, hr'⟩ | ⟨realm, realm', hr, hr', hrealm⟩
  · rw [hr, hr']
    exact .error _ h
  · rw [hr, hr']
    simp only [Realm.closeSpace]
    rcases rel_cases (hrealm ident) with ⟨hs, hs'⟩ | ⟨space, space', hs, hs', hspace⟩
    · rw [hs, hs']
      exact .ok rfl (h.setRealm name hrealm)
    · rw [hs, hs']
      have herased : Realm.Alike { realm with spaces := realm.spaces.erase ident }
          { realm' with spaces := realm'.spaces.erase ident } := Dict.Rel.erase hrealm ident
      have hclosed := (h.setWorld (h.world.log_same [.namespaceRemoved ident])).setRealm name
        herased
      cases handle? with
      | none => exact .ok rfl hclosed
      | some handle => exact .ok rfl (hclosed.setSeat handle (.owned hspace))

/--
The debugger for a namespace that a handle is to own, with the debuggers and registries once
it is there: the one that is meant, or else a new one.
-/
def debuggerFor? (host : Host) : Option DebuggerRef → Option (DebuggerId × Debugging)
  | some which => (host.debuggerOf? which).map (·, host.world.debugging)
  | none => some (host.world.debugging.newDebugger {})

/-- The host with other debuggers and registries. -/
def setDebugging (host : Host) (debugging : Debugging) : Host :=
  { host with world := { host.world with debugging } }

theorem newSpace_run (handle ident : String) (debugger? : Option DebuggerRef) (host : Host) :
    ∃ e, Host.realmStep (.newSpace handle ident debugger?) host
      = match host.debuggerFor? debugger? with
        | none => .error e host
        | some (d, g) =>
          match Namespace.make ident d with
          | .error e => .error (.refused e) (host.setDebugging g)
          | .ok space => .ok .done { host.setDebugging g with
              seats := host.seats.insert handle (.owned space) } := by
  have hmake (d : DebuggerId) (g : Debugging) :
      (match Namespace.make ident d with
        | .error e => throw (.refused e)
        | .ok space => do
          Host.setSeat handle (.owned space)
          return .done : Action Answer) (host.setDebugging g)
      = match Namespace.make ident d with
        | .error e => .error (.refused e) (host.setDebugging g)
        | .ok space => .ok .done { host.setDebugging g with
            seats := host.seats.insert handle (.owned space) } := by
    cases Namespace.make ident d <;> rfl
  cases debugger? with
  | none => exact ⟨.noDebugger, hmake _ _⟩
  | some which =>
      obtain ⟨e, hfind⟩ := findDebugger_run which host
      refine ⟨e, ?_⟩
      show (Host.findDebugger which >>= fun d => _) host = _
      rw [bind_run, hfind, debuggerFor?]
      cases host.debuggerOf? which with
      | none => rfl
      | some d => exact hmake d host.world.debugging

theorem Knows.debuggerFor? {handle ident : String} {debugger? : Option DebuggerRef} {host : Host}
    (h : host.Knows (.realm (.newSpace handle ident debugger?))) :
    ∃ d g, host.debuggerFor? debugger? = some (d, g) := by
  cases debugger? with
  | none => exact ⟨_, _, rfl⟩
  | some which =>
      obtain ⟨d, hd⟩ := Option.isSome_iff_exists.mp h
      exact ⟨d, host.world.debugging, congrArg (Option.map (·, host.world.debugging)) hd⟩

theorem parallel_newSpace (handle ident : String) {debugger? debugger?' : Option DebuggerRef}
    {host host' : Host} (h : host.Alike host')
    (hknows : host.Knows (.realm (.newSpace handle ident debugger?)))
    (hknows' : host'.Knows (.realm (.newSpace handle ident debugger?'))) :
    Parallel Alike Eq (Host.realmStep (.newSpace handle ident debugger?) host)
      (Host.realmStep (.newSpace handle ident debugger?') host') := by
  obtain ⟨e, hrun⟩ := newSpace_run handle ident debugger? host
  obtain ⟨e', hrun'⟩ := newSpace_run handle ident debugger?' host'
  obtain ⟨d, g, hdebugger⟩ := hknows.debuggerFor?
  obtain ⟨d', g', hdebugger'⟩ := hknows'.debuggerFor?
  have hafter : Alike (host.setDebugging g) (host'.setDebugging g') :=
    h.setWorld (h.world.setDebugging g g')
  rw [hrun, hrun', hdebugger, hdebugger']
  simp only [Namespace.make]
  cases ident.isEmpty with
  | true => exact .error _ hafter
  | false => exact .ok rfl (hafter.setSeat handle (.owned ⟨rfl, rfl⟩))

theorem abreast_find (name ident : String) :
    Abreast Alike Eq (Host.realmStep (.find name ident)) (Host.realmStep (.find name ident)) := by
  refine (abreast_realm name).bind fun realm realm' h => ?_
  rcases rel_cases (h ident) with ⟨hs, hs'⟩ | ⟨space, space', hs, hs', hspace⟩
  · rw [hs, hs']
    exact .pure rfl
  · rw [hs, hs']
    simp only [Option.map_some, hspace.ident, hspace.table]
    exact .pure rfl

theorem abreast_idents (name : String) :
    Abreast Alike Eq (Host.realmStep (.idents name)) (Host.realmStep (.idents name)) := by
  refine (abreast_realm name).bind fun realm realm' h => .pure ?_
  rw [Realm.idents, Realm.idents, Dict.Rel.keys h]

/-! ### Steps -/

/-- A command that is the same on both sides goes the same way. -/
theorem parallel_same {command : Command} (hengine : command.isDebugging = false)
    {host host' : Host} (h : host.Alike host') (hknows : host.Knows command)
    (hknows' : host'.Knows command) :
    Parallel Alike Eq (perform command host) (perform command host') := by
  cases command with
  | operation handle operation => exact abreast_operate handle (.same operation) host host' h
  | call handle spec args => exact abreast_callSpec handle spec args host host' h
  | describe handle name? =>
      refine Abreast.bind (abreast_space handle) (fun space space' hspace => ?_) host host' h
      rw [hspace.ident]
      exact .pure rfl
  | edit handle change => exact abreast_edit handle change host host' h
  | table handle command => exact abreast_tableStep handle command host host' h
  | realm command =>
      cases command with
      | make name document? => exact abreast_makeRealm name rfl host host' h
      | openSpace handle name ident =>
          exact (abreast_openSpace handle name ident).bind_eq (fun _ => .pure rfl) host host' h
      | newSpace handle ident debugger? => exact parallel_newSpace handle ident h hknows hknows'
      | find name ident => exact abreast_find name ident host host' h
      | closeSpace name ident handle? => exact abreast_closeSpace name ident handle? host host' h
      | idents name => exact abreast_idents name host host' h
  | debugging command => cases hengine
  | hold register value =>
      refine (abreast_parts.eval value).bind_eq (fun value => ?_) host host' h
      exact (abreast_setRegister register value).bind_eq fun _ => .pure rfl
  | value command => exact abreast_parts.valueStep command host host' h
  | cell command => exact abreast_parts.cellStep command host host' h

/-- **Commands that differ in debugging only go the same way on hosts that are alike.** -/
theorem parallel_perform {command command' : Command} (htwin : command.Twin command')
    {host host' : Host} (h : host.Alike host') (hknows : host.Knows command)
    (hknows' : host'.Knows command') :
    Parallel Alike Eq (perform command host) (perform command' host') := by
  cases htwin with
  | same hengine => exact parallel_same hengine h hknows hknows'
  | operation handle htwin => exact abreast_operate handle htwin host host' h
  | makeRealm name hread => exact abreast_makeRealm name hread host host' h
  | newSpace handle ident => exact parallel_newSpace handle ident h hknows hknows'

theorem parallel_step {command command' : Command} (htwin : command.Twin command')
    (register? : Option String) {host host' : Host} (h : host.Alike host')
    (hknows : host.Knows command) (hknows' : host'.Knows command') :
    Parallel Alike Eq (step command register? host) (step command' register? host') := by
  unfold step
  rw [bind_run, bind_run]
  rcases (parallel_perform htwin h hknows hknows').cases with
    ⟨answer, _, after, after', hact, hact', rfl, hafter⟩ | ⟨e, after, after', hact, hact', hafter⟩
  · simp only [hact, hact']
    split
    · exact (abreast_setRegister _ _).bind_eq (fun _ => .pure rfl) after after' hafter
    · exact .ok rfl hafter
  · simp only [hact, hact']
    exact .error e hafter

end Host

end Bindery
