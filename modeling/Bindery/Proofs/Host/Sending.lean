/-
What a host sends to sinks.

Two things a host is asked may make a debugger send a place: to emit one, and to bind a
callable that is given.  All else is mute.  What is sent follows from the host before:
which debugger is meant, whether it is on, and which sink it has at that moment.
-/
import Bindery.Proofs.Host.Mute

namespace Bindery.Host

/-! ### What a command makes a debugger emit -/

/-- The namespace of a handle, if there is one. -/
def spaceOf? (host : Host) (handle : String) : Option Namespace :=
  host.seats[handle]?.bind host.atSeat?

/-- The debugger that is meant, if there is one. -/
def debuggerOf? (host : Host) (which : DebuggerRef) : Option DebuggerId :=
  match which.name?, which.handle? with
  | some name, _ => host.debuggers[name]?
  | none, some handle => (host.spaceOf? handle).map (·.debugger)
  | none, none => host.realms[which.realm]?.map (·.debugger)

/-- What is sent when a callable is bound in the namespace of a handle. -/
def definitionSendings (host : Host) (handle name : String) (range : SourceRange) :
    List Sending :=
  match host.spaceOf? handle with
  | some space =>
    host.world.debugging.sendings space.debugger (qualify space.ident name) range
  | none => []

/--
What a command sends if it succeeds.  A place that is to be emitted goes to the sink of
the debugger that is meant, and the place of a callable that is given goes to the sink
of the debugger of the namespace.
-/
def sendings (host : Host) : Command → List Sending
  | .debugging (.emit which name hint) =>
    match host.debuggerOf? which with
    | some d => host.world.debugging.sendings d name hint.resolve
    | none => []
  | .operation handle (.add text (some _) hint) =>
    match Spec.parse text with
    | .ok ⟨name, .callable⟩ => host.definitionSendings handle name hint.resolve
    | _ => []
  | _ => []

/-- What is sent on the way to an outcome: what was to be sent, or nothing after a failure. -/
def sentBy {α : Type} (sendings : List Sending) :
    EStateM.Result HostError Host α → List Sending
  | .ok _ _ => sendings
  | .error _ _ => []

theorem sentBy_nil {α : Type} (outcome : EStateM.Result HostError Host α) :
    sentBy [] outcome = [] := by
  cases outcome <;> rfl

namespace Sends

variable {α β : Type} {host : Host} {sent : List Sending}

/-- What is sent is not changed by a mute action that comes after and does not fail. -/
theorem followed {act : Action α} {next : α → Action β}
    (hact : host.Sends (left (act host)) (sentBy sent (act host)))
    (hnext : ∀ a after, after.Linked →
      ∃ b last, next a after = .ok b last ∧ after.Sends last []) :
    host.Sends (left ((act >>= next) host)) (sentBy sent ((act >>= next) host)) := by
  rw [bind_run]
  cases heq : act host with
  | ok a after =>
      rw [heq] at hact
      obtain ⟨b, last, hlast, hsends⟩ := hnext a after hact.linked
      simp only [hlast]
      have hall := hact.trans hsends
      rw [List.append_nil] at hall
      exact hall
  | error e after =>
      rw [heq] at hact
      exact hact

/-- What is sent is not changed by what is allocated before. -/
theorem preceded {act : Action α} [hallocates : Allocates act] {next : α → Action β}
    (h : host.Linked)
    (hnext : ∀ a heap, (host.setHeap heap).Linked → (host.setHeap heap).Sends
      (left (next a (host.setHeap heap))) (sentBy sent (next a (host.setHeap heap)))) :
    host.Sends (left ((act >>= next) host)) (sentBy sent ((act >>= next) host)) := by
  have hact := Mute.gives act h
  obtain ⟨heap, hheap⟩ := hallocates.heap host
  rw [bind_run]
  cases heq : act host with
  | ok a after =>
      rw [heq] at hact hheap
      obtain rfl : after = host.setHeap heap := hheap
      exact hact.1.trans (hnext a heap hact.1.linked)
  | error e after =>
      rw [heq] at hact
      exact hact

end Sends

/-! ### What commands look up -/

theorem space_run (handle : String) (host : Host) :
    Host.space handle host = Host.require (host.spaceOf? handle) .noNamespace host := rfl

/-- What is asked of the namespace of a handle is asked of a scope. -/
theorem onSpace_run {α : Type} (handle : String) (act : Scope.Action α) (host : Host) :
    Host.onSpace handle act host = match host.spaceOf? handle with
      | none => .error .noNamespace host
      | some space =>
        match act ⟨space, host.world⟩ with
        | .ok a scope => .ok a (host.withScope handle scope)
        | .error e scope => .error (.refused e) (host.withScope handle scope) := by
  show EStateM.bind (Host.space handle) _ host = _
  unfold EStateM.bind
  rw [space_run]
  cases host.spaceOf? handle with
  | none => rfl
  | some space =>
      cases hact : act ⟨space, host.world⟩ with
      | ok a scope => simp only [Host.require, pure, EStateM.pure, hact]
      | error e scope => simp only [Host.require, pure, EStateM.pure, hact]

/-- What is found where something is looked up in what a host requires. -/
theorem require_map {α β : Type} (found? : Option α) (f : α → β) (e : HostError) (host : Host) :
    (Host.require found? e >>= fun found => pure (f found)) host
      = Host.require (found?.map f) e host := by
  cases found? <;> rfl

theorem findDebugger_run (which : DebuggerRef) (host : Host) :
    ∃ e, Host.findDebugger which host = Host.require (host.debuggerOf? which) e host := by
  obtain ⟨name?, handle?, realmName⟩ := which
  cases name? with
  | some name => exact ⟨.noDebugger, rfl⟩
  | none =>
      cases handle? with
      | some handle =>
          exact ⟨.noNamespace, require_map (host.spaceOf? handle) (·.debugger) .noNamespace host⟩
      | none =>
          exact ⟨.noRealm, require_map host.realms[realmName]? (·.debugger) .noRealm host⟩

/-! ### What commands send -/

/-- A place that is emitted goes to the debugger that is meant. -/
theorem emit_sends {host : Host} (h : host.Linked) (which : DebuggerRef) (name : String)
    (hint : RangeHint) :
    let outcome := debugStep (.emit which name hint) host
    host.Sends (left outcome)
      (sentBy (host.sendings (.debugging (.emit which name hint))) outcome) := by
  intro outcome
  obtain ⟨e, hfind⟩ := findDebugger_run which host
  have houtcome : outcome = EStateM.bind (Host.require (host.debuggerOf? which) e) (fun d =>
      (do
        modify fun host => { host with world := host.world.emit d name hint.resolve }
        return .done)) host := by
    show EStateM.bind (Host.findDebugger which) _ host = _
    unfold EStateM.bind
    rw [hfind]
  rw [houtcome, sendings]
  cases host.debuggerOf? which with
  | none => exact .refl h
  | some d => exact .of_world h (.emit h.sinks d name hint.resolve)

/-- To make an operation that gives a value is to make the value. -/
theorem mapM_add_some (text : String) (e : Expr) (hint : RangeHint) (host : Host) :
    (Operation.add text (some e) hint).mapM Expr.eval host
      = (e.eval >>= fun value => pure (.add text (some value) hint)) host := by
  show EStateM.bind (EStateM.map some e.eval) _ host = EStateM.bind e.eval _ host
  unfold EStateM.bind EStateM.map
  cases e.eval host <;> rfl

/-- An operation that gives a callable once it is made gives one as it is written. -/
theorem defines_of_mapM {operation : Operation Expr} {made : Operation Value} {host after : Host}
    (hmade : operation.mapM Expr.eval host = .ok made after) (h : made.Defines) :
    operation.Defines := by
  obtain ⟨text, value, hint, spec, rfl, hp, hkind⟩ := h
  cases operation with
  | add text' value? hint' =>
      cases value? with
      | none => cases hmade
      | some e =>
          rw [mapM_add_some] at hmade
          change EStateM.bind e.eval _ host = _ at hmade
          unfold EStateM.bind at hmade
          cases heval : e.eval host with
          | ok v last =>
              rw [heval] at hmade
              cases hmade
              exact ⟨text, e, hint, spec, rfl, hp, hkind⟩
          | error er last =>
              rw [heval] at hmade
              cases hmade
  | _ => cases hmade

/-- What is asked of a namespace is mute, unless a callable is given. -/
theorem operate_mute (handle : String) {operation : Operation Expr} (hnot : ¬ operation.Defines) :
    Mute (Host.operate handle operation) where
  sends host h := by
    refine Mute.bind_at (Mute.gives (operation.mapM Expr.eval) h) fun made after hmade hafter => ?_
    have hspace : Mute (Host.onSpace handle made.perform) :=
      Mute.onSpace handle _ fun s hs =>
        Step.sends_nothing hs fun hdefines => hnot (defines_of_mapM hmade hdefines)
    exact (Mute.bind (Host.onSpace handle made.perform) _).sends after hafter

/-- A callable that is given to a namespace is emitted by the debugger of the namespace. -/
theorem give_sends {host : Host} (h : host.Linked) (handle : String) {text name : String}
    (hp : Spec.parse text = .ok ⟨name, .callable⟩) (value : Value) (hint : RangeHint) :
    let outcome := Host.onSpace handle (Operation.add text (some value) hint).perform host
    host.Sends (left outcome)
      (sentBy (host.definitionSendings handle name hint.resolve) outcome) := by
  intro outcome
  unfold definitionSendings
  have houtcome : outcome = _ :=
    onSpace_run handle (Operation.add text (some value) hint).perform host
  cases hspace : host.spaceOf? handle with
  | none =>
      simp only [hspace] at houtcome
      rw [houtcome]
      exact .refl h
  | some space =>
      simp only [hspace] at houtcome
      have hstep : host.world.Sends _ _ :=
        Step.sends_add_callable (s := ⟨space, host.world⟩) h.sinks hp value hint
      unfold Step.after Step.result EStateM.run at hstep
      cases hperform : (Operation.add text (some value) hint).perform ⟨space, host.world⟩ with
      | ok reply scope =>
          rw [hperform] at houtcome hstep
          rw [houtcome]
          exact .withScope h handle hstep
      | error e scope =>
          rw [hperform] at houtcome hstep
          rw [houtcome]
          exact .withScope h handle hstep

/-- To bind a value that is written is to make it first and then to give it. -/
theorem operate_add_some (handle text : String) (e : Expr) (hint : RangeHint) (host : Host) :
    operate handle (.add text (some e) hint) host
      = (e.eval >>= fun value =>
          onSpace handle (Operation.add text (some value) hint).perform >>= fun reply =>
            pure (Answer.ofReply reply)) host := by
  show EStateM.bind ((Operation.add text (some e) hint).mapM Expr.eval) _ host = _
  unfold EStateM.bind
  rw [mapM_add_some]
  simp only [bind, EStateM.bind]
  cases e.eval host <;> rfl

/-- An operation that gives no callable has nothing to send. -/
theorem sendings_eq_nil {operation : Operation Expr} (hnot : ¬ operation.Defines) (host : Host)
    (handle : String) : host.sendings (.operation handle operation) = [] := by
  unfold sendings
  split
  · rename_i heq
    cases heq
  · rename_i text e hint heq
    cases heq
    split
    · rename_i name hp
      exact absurd ⟨text, e, hint, _, rfl, hp, rfl⟩ hnot
    · rfl
  · rfl

/-- What an operation on a namespace sends. -/
theorem operate_sends {host : Host} (h : host.Linked) (handle : String)
    (operation : Operation Expr) :
    let outcome := operate handle operation host
    host.Sends (left outcome) (sentBy (host.sendings (.operation handle operation)) outcome) := by
  intro outcome
  by_cases hdefines : operation.Defines
  · obtain ⟨text, e, hint, ⟨name, kind⟩, rfl, hp, hkind⟩ := hdefines
    cases hkind
    have houtcome : outcome = _ := operate_add_some handle text e hint host
    rw [houtcome]
    refine .preceded h fun value heap hheap => ?_
    refine .followed ?_ fun reply after hafter => ⟨_, _, rfl, .refl hafter⟩
    simp only [sendings, hp]
    exact give_sends hheap handle hp value hint
  · rw [sendings_eq_nil hdefines, sentBy_nil]
    exact (operate_mute handle hdefines).sends host h

/-- **What a command sends.** -/
theorem perform_sends {host : Host} (h : host.Linked) (command : Command) :
    host.Sends (left (perform command host))
      (sentBy (host.sendings command) (perform command host)) := by
  have hmute (hnone : host.sendings command = []) (hperform : Mute (perform command)) :
      host.Sends (left (perform command host))
        (sentBy (host.sendings command) (perform command host)) := by
    rw [hnone, sentBy_nil]
    exact hperform.sends host h
  cases command with
  | operation handle operation => exact operate_sends h handle operation
  | debugging command =>
      by_cases hemit : ∃ which name hint, command = .emit which name hint
      · obtain ⟨which, name, hint, rfl⟩ := hemit
        exact emit_sends h which name hint
      · refine hmute ?_ (Mute.debugStep fun which name hint heq => hemit ⟨which, name, hint, heq⟩)
        cases command with
        | emit which name hint => exact absurd ⟨which, name, hint, rfl⟩ hemit
        | _ => rfl
  | _ =>
      refine hmute rfl ?_
      unfold perform
      infer_instance

/-- To put an answer into a register sends nothing. -/
theorem step_sends {host : Host} (h : host.Linked) (command : Command)
    (register? : Option String) :
    host.Sends (left (step command register? host))
      (sentBy (host.sendings command) (step command register? host)) := by
  refine (perform_sends h command).followed fun answer after hafter => ?_
  split
  · rename_i value register
    exact ⟨_, _, rfl, (Mute.setRegister register value).sends after hafter⟩
  · exact ⟨_, after, rfl, .refl hafter⟩

end Bindery.Host
