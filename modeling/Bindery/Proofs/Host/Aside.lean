/-
What is done about debugging is done aside.

A command about debuggers and registries changes debuggers and registries, the names they
are known by, and the trace, by events that tell of debugging.  It changes nothing else that
a host knows, and it answers no value that could be held.  So of two hosts that are alike one
may be asked such a command alone.
-/
import Bindery.Proofs.Host.Alike

namespace Bindery

theorem World.Alike.trans {u v w : World} (h : u.Alike v) (h' : v.Alike w) : u.Alike w :=
  ⟨h.heap.trans h'.heap, h.told.trans h'.told⟩

theorem World.Alike.symm {v w : World} (h : v.Alike w) : w.Alike v :=
  ⟨h.heap.symm, h.told.symm⟩

namespace Host

/-- Of two hosts the later differs from the earlier in debugging only. -/
structure Beside (host after : Host) : Prop where
  world : host.world.Alike after.world
  realms : after.realms = host.realms
  seats : after.seats = host.seats
  registers : after.registers = host.registers
  tables : after.tables = host.tables

namespace Beside

variable {host after last : Host}

theorem refl (host : Host) : host.Beside host :=
  ⟨.refl _, rfl, rfl, rfl, rfl⟩

theorem trans (h : host.Beside after) (h' : after.Beside last) : host.Beside last :=
  ⟨h.world.trans h'.world, h'.realms.trans h.realms, h'.seats.trans h.seats,
    h'.registers.trans h.registers, h'.tables.trans h.tables⟩

end Beside

/-- A host stays alike another when only debugging changes on one side. -/
theorem Alike.beside {host host' after after' : Host} (h : host.Alike host')
    (hafter : host.Beside after) (hafter' : host'.Beside after') : after.Alike after' where
  world := hafter.world.symm.trans (h.world.trans hafter'.world)
  realms := by rw [hafter.realms, hafter'.realms]; exact h.realms
  seats := by rw [hafter.seats, hafter'.seats]; exact h.seats
  registers := by rw [hafter.registers, hafter'.registers]; exact h.registers
  tables := by rw [hafter.tables, hafter'.tables]; exact h.tables

/-- Nothing but debugging is changed by an action, however it ends. -/
class Aside {α : Type} (act : Action α) : Prop where
  beside : ∀ host : Host, host.Beside (left (act host))

namespace Aside

variable {α β : Type}

/-! ### Parts of actions -/

instance pure (a : α) : Aside (Pure.pure a : Action α) :=
  ⟨.refl⟩

instance throw (e : HostError) : Aside (MonadExcept.throw e : Action α) :=
  ⟨.refl⟩

instance get : Aside (MonadState.get : Action Host) :=
  ⟨.refl⟩

instance bind (act : Action α) (next : α → Action β) [hact : Aside act]
    [hnext : ∀ a, Aside (next a)] : Aside (act >>= next) where
  beside host := by
    have hfirst := hact.beside host
    rw [bind_run]
    cases heq : act host with
    | ok a after =>
        rw [heq] at hfirst
        exact hfirst.trans ((hnext a).beside after)
    | error e after =>
        rw [heq] at hfirst
        exact hfirst

instance require (found? : Option α) (e : HostError) : Aside (Host.require found? e) := by
  cases found? with
  | none => exact throw e
  | some found => exact pure found

theorem modifyGet {f : Host → α × Host} (h : ∀ host : Host, host.Beside (f host).2) :
    Aside (MonadState.modifyGet f : Action α) :=
  ⟨h⟩

instance modifyDebugging (act : Debugging → α × Debugging) : Aside (Host.modifyDebugging act) :=
  modifyGet fun _ => ⟨⟨rfl, rfl⟩, rfl, rfl, rfl, rfl⟩

instance realm (name : String) : Aside (Host.realm name) :=
  inferInstanceAs (Aside (MonadState.get >>= fun _ : Host => _))

instance space (handle : String) : Aside (Host.space handle) :=
  inferInstanceAs (Aside (MonadState.get >>= fun _ : Host => _))

/-! ### Debuggers and registries -/

instance findDebugger (which : DebuggerRef) : Aside (Host.findDebugger which) := by
  unfold Host.findDebugger
  split <;> infer_instance

instance findRegistry (which : RegistryRef) : Aside (Host.findRegistry which) := by
  have hname (name : String) (id : RegistryId) :
      Aside (modify fun host => { host with registries := host.registries.insert name id }) :=
    modifyGet fun _ => ⟨.refl _, rfl, rfl, rfl, rfl⟩
  unfold Host.findRegistry
  split
  · infer_instance
  · refine @bind _ _ MonadState.get _ _ fun host => ?_
    split <;> infer_instance

instance findSink (draft : SinkDraft) : Aside (Host.findSink draft) := by
  cases draft <;> unfold Host.findSink <;> infer_instance

/-- **Whatever is done about debugging changes nothing else.** -/
instance debugStep (command : DebugCommand) : Aside (Host.debugStep command) := by
  have hname (name : String) (id : DebuggerId) :
      Aside (modify fun host => { host with debuggers := host.debuggers.insert name id }) :=
    modifyGet fun _ => ⟨.refl _, rfl, rfl, rfl, rfl⟩
  have hemit (id : DebuggerId) (name : String) (hint : RangeHint) :
      Aside (modify fun host => { host with world := host.world.emit id name hint.resolve }) :=
    modifyGet fun host => ⟨host.world.alike_emit id name hint.resolve, rfl, rfl, rfl, rfl⟩
  cases command with
  | make name sink? =>
      unfold Host.debugStep
      cases sink? <;> infer_instance
  | _ =>
      unfold Host.debugStep
      infer_instance

end Aside

/-! ### Answers -/

/-- Whatever an action gives meets a condition. -/
def Always {α : Type} (condition : α → Prop) (act : Action α) : Prop :=
  ∀ host a after, act host = .ok a after → condition a

theorem Always.pure {α : Type} {condition : α → Prop} {a : α} (h : condition a) :
    Always condition (Pure.pure a) := by
  intro host b after heq
  cases heq
  exact h

/-- What is given by one action after another is given by the last. -/
theorem Always.bind {α β : Type} {condition : β → Prop} (act : Action α) {next : α → Action β}
    (h : ∀ a, Always condition (next a)) : Always condition (act >>= next) := by
  intro host b last heq
  rw [bind_run] at heq
  cases hact : act host with
  | ok a after =>
      rw [hact] at heq
      exact h a after b last heq
  | error e after =>
      rw [hact] at heq
      cases heq

/-- A command about debugging answers no value. -/
theorem debugStep_no_value (command : DebugCommand) :
    Always (fun answer => ∀ value?, answer ≠ .value value?) (Host.debugStep command) := by
  cases command with
  | make name sink? =>
      cases sink? with
      | none => exact .bind _ fun _ => .bind _ fun _ => .bind _ fun _ => .pure nofun
      | some which =>
          exact .bind _ fun _ => .bind _ fun _ => .bind _ fun _ => .bind _ fun _ => .pure nofun
  | state which => exact .bind _ fun _ => .bind _ fun _ => .pure nofun
  | isRealms which => exact .bind _ fun _ => .bind _ fun _ => .pure nofun
  | setEnabled which enabled => exact .bind _ fun _ => .bind _ fun _ => .pure nofun
  | setSink which sink =>
      exact .bind _ fun _ => .bind _ fun _ => .bind _ fun _ => .pure nofun
  | emit which name hint => exact .bind _ fun _ => .bind _ fun _ => .pure nofun
  | registry which => exact .bind _ fun _ => .bind _ fun _ => .pure nofun
  | lookup which name => exact .bind _ fun _ => .bind _ fun _ => .pure nofun

/-- A command about debugging changes no register, even if one is named for its answer. -/
theorem step_debugging (command : DebugCommand) (register? : Option String) (host : Host) :
    host.Beside (left (step (.debugging command) register? host)) := by
  have hbeside := (Aside.debugStep command).beside host
  have hperform : perform (.debugging command) = Host.debugStep command := rfl
  unfold step
  rw [bind_run, hperform]
  cases heq : Host.debugStep command host with
  | error e after =>
      rw [heq] at hbeside
      exact hbeside
  | ok answer after =>
      rw [heq] at hbeside
      have hvalue := debugStep_no_value command host answer after heq
      simp only
      split
      · exact absurd rfl (hvalue _)
      · exact hbeside

end Host

end Bindery
