/-
Actions of a host by which nothing is sent.

Most of what a host does concerns no debugger.  Such an action is mute: whatever it
changes and however it ends, no place is sent to a sink.  Mute actions are closed under
sequencing, so an action is shown to be mute by looking at its parts; `Mute` is a class
for that reason, and instances are found part by part.

What comes along is the invariant under which sinks can be relied on.  A host is linked
if every registry that a sink, a realm or a name refers to is there.
-/
import Bindery.Proofs.Host.Allocating
import Bindery.Proofs.Namespace.Sending
import Bindery.Proofs.Realm

namespace Bindery.Host

/-! ### Linked hosts -/

/-- Every registry that is referred to is there. -/
structure Linked (host : Host) : Prop where
  sinks : host.world.debugging.Linked
  realms : ∀ (name : String) (realm : Realm), host.realms[name]? = some realm →
    host.world.debugging.Has realm.registry
  registries : ∀ (name : String) (id : RegistryId), host.registries[name]? = some id →
    host.world.debugging.Has id

theorem linked_empty : Linked {} where
  sinks := Debugging.linked_empty
  realms name realm h := by simp at h
  registries name id h := by simp at h

/-- Between two hosts exactly these places are sent, and the host after is linked. -/
structure Sends (host after : Host) (sent : List Sending) : Prop where
  world : host.world.Sends after.world sent
  linked : after.Linked

namespace Sends

variable {host after last : Host} {sent sent' : List Sending}

theorem trans (h : host.Sends after sent) (h' : after.Sends last sent') :
    host.Sends last (sent ++ sent') :=
  ⟨h.world.trans h'.world, h'.linked⟩

/-- What is sent when only the world changes. -/
theorem of_world (h : host.Linked) {w : World} (hw : host.world.Sends w sent) :
    host.Sends { host with world := w } sent where
  world := hw
  linked :=
    { sinks := hw.debugging.linked
      realms := fun name realm hr => hw.debugging.has _ (h.realms name realm hr)
      registries := fun name id hi => hw.debugging.has _ (h.registries name id hi) }

theorem of_debugging (h : host.Linked) {g : Debugging} (hg : host.world.debugging.Receives g []) :
    host.Sends { host with world := { host.world with debugging := g } } [] :=
  of_world h (.of_debugging hg rfl)

/-- Nothing is sent when the world stays and what is referred to is there. -/
theorem of_references (h : host.Linked) (hworld : after.world = host.world)
    (hrealms : ∀ (name : String) (realm : Realm), after.realms[name]? = some realm →
      host.world.debugging.Has realm.registry)
    (hregistries : ∀ (name : String) (id : RegistryId), after.registries[name]? = some id →
      host.world.debugging.Has id) : host.Sends after [] := by
  refine ⟨?_, ?_, ?_, ?_⟩
  · rw [hworld]
    exact .refl h.sinks
  · rw [hworld]
    exact h.sinks
  · rw [hworld]
    exact hrealms
  · rw [hworld]
    exact hregistries

theorem refl (h : host.Linked) : host.Sends host [] :=
  of_references h rfl h.realms h.registries

/-- A realm that is put under a name must refer to a registry that is there. -/
theorem insertRealm (h : host.Linked) (name : String) {realm : Realm}
    (hhas : host.world.debugging.Has realm.registry) :
    host.Sends { host with realms := host.realms.insert name realm } [] := by
  refine of_references h rfl ?_ h.registries
  intro other found hfound
  rw [Dict.getElem?_insert] at hfound
  split at hfound
  · cases hfound
    exact hhas
  · exact h.realms other found hfound

theorem insertRegistry (h : host.Linked) (name : String) {id : RegistryId}
    (hhas : host.world.debugging.Has id) :
    host.Sends { host with registries := host.registries.insert name id } [] := by
  refine of_references h rfl h.realms ?_
  intro other found hfound
  rw [Dict.getElem?_insert] at hfound
  split at hfound
  · cases hfound
    exact hhas
  · exact h.registries other found hfound

/-- Whatever namespace is put where a handle points, realms keep their registries. -/
theorem withSpace (h : host.Linked) (handle : String) (space : Namespace) :
    host.Sends (host.withSpace handle space) [] := by
  unfold Host.withSpace
  split
  · split
    · rename_i realm hrealm
      exact insertRealm h _ (h.realms _ realm hrealm)
    · exact refl h
  · exact of_references h rfl h.realms h.registries
  · exact refl h

/-- What is sent in a scope of a host is sent by the host. -/
theorem withScope (h : host.Linked) (handle : String) {scope : Scope}
    (hscope : host.world.Sends scope.world sent) :
    host.Sends (host.withScope handle scope) sent := by
  have hworld := of_world h hscope
  have hspace := hworld.trans (withSpace hworld.linked handle scope.space)
  rw [List.append_nil] at hspace
  exact hspace

end Sends

/-! ### Mute actions -/

/-- Nothing is sent up to an outcome, and what is given, if anything is, meets a condition. -/
def Gives {α : Type} (host : Host) (condition : α → Host → Prop) :
    EStateM.Result HostError Host α → Prop
  | .ok a after => host.Sends after [] ∧ condition a after
  | .error _ after => host.Sends after []

namespace Gives

variable {α β : Type} {host : Host}

theorem sends {condition : α → Host → Prop} {outcome : EStateM.Result HostError Host α}
    (h : host.Gives condition outcome) : host.Sends (left outcome) [] := by
  cases outcome with
  | ok a after => exact h.1
  | error e after => exact h

theorem of_sends {outcome : EStateM.Result HostError Host α} (h : host.Sends (left outcome) []) :
    host.Gives (fun a after => outcome = .ok a after) outcome := by
  cases outcome with
  | ok a after => exact ⟨h, rfl⟩
  | error e after => exact h

theorem imp {condition condition' : α → Host → Prop} {outcome : EStateM.Result HostError Host α}
    (h : host.Gives condition outcome)
    (himp : ∀ a after, condition a after → condition' a after) :
    host.Gives condition' outcome := by
  cases outcome with
  | ok a after => exact ⟨h.1, himp a after h.2⟩
  | error e after => exact h

/-- Of two actions the second starts from what the first gives. -/
theorem bind {act : Action α} {next : α → Action β} {given : α → Host → Prop}
    {condition : β → Host → Prop} (hact : host.Gives given (act host))
    (hnext : ∀ a after, given a after → after.Linked → after.Gives condition (next a after)) :
    host.Gives condition ((act >>= next) host) := by
  rw [bind_run]
  cases heq : act host with
  | ok a after =>
      rw [heq] at hact
      have hlast := hnext a after hact.2 hact.1.linked
      simp only
      cases hout : next a after with
      | ok b last =>
          rw [hout] at hlast
          exact ⟨hact.1.trans hlast.1, hlast.2⟩
      | error e last =>
          rw [hout] at hlast
          exact hact.1.trans hlast
  | error e after =>
      rw [heq] at hact
      exact hact

end Gives

/-- Nothing is sent by an action, however it ends. -/
class Mute {α : Type} (act : Action α) : Prop where
  sends : ∀ host : Host, host.Linked → host.Sends (left (act host)) []

namespace Mute

variable {α β : Type}

instance pure (a : α) : Mute (Pure.pure a : Action α) :=
  ⟨fun _ h => .refl h⟩

instance throw (e : HostError) : Mute (MonadExcept.throw e : Action α) :=
  ⟨fun _ h => .refl h⟩

instance get : Mute (MonadState.get : Action Host) :=
  ⟨fun _ h => .refl h⟩

theorem gives (act : Action α) [hact : Mute act] {host : Host} (h : host.Linked) :
    host.Gives (fun a after => act host = .ok a after) (act host) :=
  .of_sends (hact.sends host h)

/-- One action after the other sends nothing if the second does not where the first ends. -/
theorem bind_at {act : Action α} {next : α → Action β} {host : Host} {given : α → Host → Prop}
    (hact : host.Gives given (act host))
    (hnext : ∀ a after, given a after → after.Linked → after.Sends (left (next a after)) []) :
    host.Sends (left ((act >>= next) host)) [] := by
  have hall : host.Gives (fun _ _ => True) ((act >>= next) host) := by
    refine hact.bind fun a after ha hafter => ?_
    exact (Gives.of_sends (hnext a after ha hafter)).imp fun _ _ _ => trivial
  exact hall.sends

instance bind (act : Action α) (next : α → Action β) [Mute act] [∀ a, Mute (next a)] :
    Mute (act >>= next) :=
  ⟨fun _ h => bind_at (gives act h) fun _ _ _ hafter => sends _ hafter⟩

instance map (f : α → β) (act : Action α) [Mute act] : Mute (f <$> act) :=
  inferInstanceAs (Mute (act >>= fun a => Pure.pure (f a)))

/-- A change of a host is mute if nothing is sent between the host before and after. -/
theorem modifyGet {f : Host → α × Host}
    (h : ∀ host : Host, host.Linked → host.Sends (f host).2 []) :
    Mute (MonadState.modifyGet f : Action α) :=
  ⟨h⟩

instance require (found? : Option α) (e : HostError) : Mute (Host.require found? e) := by
  cases found? with
  | none => exact throw e
  | some found => exact pure found

/-- Nothing is sent by allocating. -/
instance (priority := low) of_allocates (act : Action α) [hact : Allocates act] : Mute act where
  sends host h := by
    obtain ⟨heap, hheap⟩ := hact.heap host
    rw [hheap]
    exact .of_world h ((World.Unheard.allocate host.world heap).sends h.sinks)

/-! ### Parts of actions -/

instance realm (name : String) : Mute (Host.realm name) :=
  inferInstanceAs (Mute (MonadState.get >>= fun _ : Host => _))

instance space (handle : String) : Mute (Host.space handle) :=
  inferInstanceAs (Mute (MonadState.get >>= fun _ : Host => _))

instance setRegister (name : String) (value : Value) : Mute (Host.setRegister name value) :=
  modifyGet fun _ h => .of_references h rfl h.realms h.registries

instance setSeat (name : String) (seat : Seat) : Mute (Host.setSeat name seat) :=
  modifyGet fun _ h => .of_references h rfl h.realms h.registries

/-- What is asked of the namespace of a handle is mute if the namespace sends nothing. -/
theorem onSpace (handle : String) (act : Scope.Action α)
    (hact : ∀ s : Scope, s.world.debugging.Linked → s.world.Sends (Scope.left (act s)).world []) :
    Mute (Host.onSpace handle act) := by
  refine @bind _ _ (Host.space handle) _ _ fun space => ⟨fun host h => ?_⟩
  have hscope := hact ⟨space, host.world⟩ h.sinks
  split
  · rename_i a scope heq
    rw [heq] at hscope
    exact .withScope h handle hscope
  · rename_i e scope heq
    rw [heq] at hscope
    exact .withScope h handle hscope

/-! ### Namespaces -/

/-- To find what a spec addresses and to call it sends nothing. -/
instance callSpec (handle spec : String) (args : List Expr) :
    Mute (Host.callSpec handle spec args) := by
  have hfind : Mute (Host.onSpace handle (Scope.find spec)) := by
    refine onSpace handle _ fun s h => ?_
    have hnot : ¬ (Operation.find spec : Operation Value).Defines := by
      rintro ⟨_, _, _, _, ⟨⟩, -⟩
    have hstep := Step.sends_nothing h hnot
    rw [Step.after_find] at hstep
    exact hstep
  refine @bind _ _ (Host.onSpace handle (Scope.find spec)) _ _ fun callee? => ?_
  cases callee? <;> infer_instance

/-- To edit a table sends nothing. -/
instance edit (handle : String) (change : Edit Expr) : Mute (Host.edit handle change) := by
  unfold Host.edit
  refine @bind _ _ (change.mapM Expr.eval) _ _ fun change => ?_
  have hedit : Mute (Host.onSpace handle (MonadState.modifyGet change.apply)) :=
    onSpace handle _ fun s h => (s.unheard_edit change).sends h
  refine @bind _ _ (Host.onSpace handle _) _ _ fun outcome => ?_
  cases outcome <;> infer_instance

/-- To put another namespace where a handle points sends nothing. -/
theorem modify_withSpace (handle : String) (space : Namespace) :
    Mute (modify fun host => host.withSpace handle space) :=
  modifyGet fun _ h => .withSpace h handle space

/-- Questions about a table and uses of it as a whole send nothing. -/
instance tableStep (handle : String) (command : TableCommand) :
    Mute (Host.tableStep handle command) := by
  have hsave (name : String) (table : SymbolTable) :
      Mute (modify fun host => { host with tables := host.tables.insert name table }) :=
    modifyGet fun _ h => .of_references h rfl h.realms h.registries
  have hload := modify_withSpace handle
  cases command <;> unfold Host.tableStep <;> infer_instance

/-! ### Realms -/

theorem realm_eq_ok {name : String} {found : Realm} {host after : Host}
    (h : Host.realm name host = .ok found after) :
    after = host ∧ host.realms[name]? = some found := by
  change Host.require host.realms[name]? .noRealm host = .ok found after at h
  cases hr : host.realms[name]? with
  | none =>
      rw [hr] at h
      cases h
  | some realm =>
      rw [hr] at h
      cases h
      exact ⟨rfl, rfl⟩

instance newRealm (name : String) (settings : Settings) : Mute (Host.newRealm name settings) where
  sends host h := by
    have hmake := Sends.of_world h (Realm.sends_make h.sinks settings)
    exact hmake.trans (.insertRealm hmake.linked name (Realm.has_registry_make settings))

instance openSpace (handle name ident : String) : Mute (Host.openSpace handle name ident) where
  sends host h := by
    refine bind_at (gives (Host.realm name) h) fun found after hok _ => ?_
    obtain ⟨rfl, hfound⟩ := realm_eq_ok hok
    refine bind_at (gives MonadState.get h) fun seen after' hget _ => ?_
    cases hget
    generalize hopen : found.openSpace ident after.world = opened
    rcases opened with e | ⟨space, changed, world⟩
    · exact .refl h
    · obtain ⟨hsends, hregistry⟩ := Realm.sends_openSpace h.sinks hopen
      have hworld := Sends.of_world h hsends
      have hhas : world.debugging.Has changed.registry := by
        rw [hregistry]
        exact hsends.debugging.has _ (h.realms name found hfound)
      have hrealm := hworld.trans (.insertRealm hworld.linked name hhas)
      exact hrealm.trans ((setSeat handle _).sends _ hrealm.linked)

theorem modifyDebugging {act : Debugging → α × Debugging}
    (hact : ∀ g : Debugging, g.Linked → g.Receives (act g).2 []) :
    Mute (Host.modifyDebugging act) :=
  modifyGet fun host h => .of_debugging h (hact host.world.debugging h.sinks)

/-- To begin with a realm and a namespace of it sends nothing. -/
theorem start (settings : Settings) (ident : String) : Mute (Host.start settings ident) :=
  @bind _ _ (Host.newRealm "r" settings) _ _ fun _ =>
    inferInstanceAs (Mute ((fun _ => ()) <$> Host.openSpace "main" "r" ident))

/-- To close a namespace of a realm sends nothing, and the realm keeps its registry. -/
theorem realmStep_closeSpace (name ident : String) (handle? : Option String) :
    Mute (Host.realmStep (.closeSpace name ident handle?)) where
  sends host h := by
    refine bind_at (gives (Host.realm name) h) fun found after hok _ => ?_
    obtain ⟨rfl, hfound⟩ := realm_eq_ok hok
    obtain ⟨hsends, hregistry⟩ := Realm.sends_closeSpace h.sinks found ident
    refine bind_at (gives MonadState.get h) fun seen after' hget _ => ?_
    cases hget
    generalize found.closeSpace ident after.world = closed at hsends hregistry
    obtain ⟨removed?, changed, world⟩ := closed
    have hworld := Sends.of_world h hsends
    have hhas : world.debugging.Has changed.registry := by
      rw [hregistry]
      exact hsends.debugging.has _ (h.realms name found hfound)
    have hrealm := hworld.trans (.insertRealm hworld.linked name hhas)
    cases removed? with
    | none => exact hrealm
    | some space =>
        cases handle? with
        | none => exact hrealm
        | some handle => exact hrealm.trans ((setSeat handle _).sends _ hrealm.linked)

instance findDebugger (which : DebuggerRef) : Mute (Host.findDebugger which) := by
  unfold Host.findDebugger
  split <;> infer_instance

/-- What is done with realms and handles sends nothing. -/
instance realmStep (command : RealmCommand) : Mute (Host.realmStep command) := by
  cases command with
  | make name document? =>
      unfold Host.realmStep
      cases document? <;> infer_instance
  | newSpace handle ident debugger? =>
      unfold Host.realmStep
      have hnew : Mute (Host.modifyDebugging (·.newDebugger {})) :=
        modifyDebugging fun g h => .newDebugger h {} nofun
      have hmake (debugger : DebuggerId) : Mute (α := Answer)
          (match Namespace.make ident debugger with
          | .error e => MonadExcept.throw (.refused e)
          | .ok space => do
            Host.setSeat handle (.owned space)
            Pure.pure .done) := by
        split <;> infer_instance
      cases debugger? <;> exact bind _ _
  | closeSpace name ident handle? => exact realmStep_closeSpace name ident handle?
  | _ =>
      unfold Host.realmStep
      infer_instance

/-! ### Debuggers and registries -/

/-- To find a registry sends nothing, though it may be made; then it is there. -/
theorem findRegistry_gives (which : RegistryRef) {host : Host} (h : host.Linked) :
    host.Gives (fun id after => after.world.debugging.Has id) (Host.findRegistry which host) := by
  obtain ⟨name?, realmName⟩ := which
  cases name? with
  | none =>
      refine (gives (Host.realm realmName) h).bind fun found after hok _ => ?_
      obtain ⟨rfl, hfound⟩ := realm_eq_ok hok
      exact ⟨.refl h, h.realms realmName found hfound⟩
  | some name =>
      refine (gives MonadState.get h).bind fun seen after hget _ => ?_
      cases hget
      cases hid : host.registries[name]? with
      | some id => exact ⟨.refl h, h.registries name id hid⟩
      | none =>
          have hworld := Sends.of_debugging h (.newRegistry h.sinks)
          have hhas := host.world.debugging.has_newRegistry
          exact ⟨hworld.trans (.insertRegistry hworld.linked name hhas), hhas⟩

instance findRegistry (which : RegistryRef) : Mute (Host.findRegistry which) :=
  ⟨fun _ h => (findRegistry_gives which h).sends⟩

/-- A sink that is made of a registry that is found is backed. -/
theorem madeSink_gives (which : RegistryRef) {make : RegistryId → Sink}
    (hmake : ∀ id, (make id).target? = some id) {host : Host} (h : host.Linked) :
    host.Gives (fun sink after => after.world.debugging.Backs sink)
      ((Host.findRegistry which >>= fun id => Pure.pure (make id)) host) := by
  refine (findRegistry_gives which h).bind fun id after hhas hafter => ?_
  exact ⟨.refl hafter, Debugging.backs_of_has (hmake id) hhas⟩

theorem findSink_gives (draft : SinkDraft) {host : Host} (h : host.Linked) :
    host.Gives (fun sink after => after.world.debugging.Backs sink) (Host.findSink draft host) := by
  cases draft with
  | announce => exact ⟨.refl h, nofun⟩
  | registry which => exact madeSink_gives which (fun _ => rfl) h
  | once which => exact madeSink_gives which (fun _ => rfl) h
  | handOver which => exact madeSink_gives which (fun _ => rfl) h

/-- To make a debugger and to name it sends nothing, if its sink is backed. -/
theorem newDebugger_at (name : String) {debugger : Debugger} {host : Host} (h : host.Linked)
    (hbacks : ∀ sink, debugger.sink? = some sink → host.world.debugging.Backs sink) :
    host.Sends (left ((do
      let id ← Host.modifyDebugging (·.newDebugger debugger)
      modify fun host => { host with debuggers := host.debuggers.insert name id }
      return .done : Action Answer) host)) [] := by
  have hworld := Sends.of_debugging h (.newDebugger h.sinks debugger hbacks)
  exact hworld.trans (.of_references hworld.linked rfl hworld.linked.realms
    hworld.linked.registries)

theorem debugStep_make (name : String) (sink? : Option RegistryRef) :
    Mute (Host.debugStep (.make name sink?)) where
  sends host h := by
    cases sink? with
    | none => exact newDebugger_at name h nofun
    | some which =>
        refine bind_at (findRegistry_gives which h) fun id after hhas hafter => ?_
        refine newDebugger_at name hafter ?_
        intro sink hsink
        cases hsink
        exact Debugging.backs_of_has rfl hhas

/-- To give a debugger a sink sends nothing. -/
theorem debugStep_setSink (which : DebuggerRef) (draft : SinkDraft) :
    Mute (Host.debugStep (.setSink which draft)) where
  sends host h := by
    refine bind_at (gives (Host.findDebugger which) h) fun d after _ hafter => ?_
    refine bind_at (findSink_gives draft hafter) fun sink after hbacks hafter => ?_
    exact .of_debugging hafter (.setSink hafter.sinks d hbacks)

/-- **What is done with debuggers and registries sends nothing, unless a place is emitted.** -/
theorem debugStep {command : DebugCommand}
    (hnot : ∀ which name hint, command ≠ .emit which name hint) :
    Mute (Host.debugStep command) := by
  cases command with
  | make name sink? => exact debugStep_make name sink?
  | setSink which draft => exact debugStep_setSink which draft
  | setEnabled which enabled =>
      unfold Host.debugStep
      have hset (d : DebuggerId) :
          Mute (Host.modifyDebugging fun g => ((), g.setEnabled d enabled)) :=
        modifyDebugging fun g h => .setEnabled h d enabled
      infer_instance
  | emit which name hint => exact absurd rfl (hnot which name hint)
  | _ =>
      unfold Host.debugStep
      infer_instance

end Mute

end Bindery.Host
