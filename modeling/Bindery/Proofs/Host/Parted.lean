/-
Realms have debuggers and registries of their own.

A realm is made with a new debugger and a new registry, and gives the debugger to every namespace
that it makes.  So in a session no two realms share either, and what a realm keeps has the debugger
of the realm.  A debugger has a sink that refers to the registry of a realm only if it is the
debugger of the realm, or if a command about debugging has put the sink there.  A namespace that a
handle holds may have the debugger of any realm, for it can be made with it.

What is made is new: no realm has it yet, and no sink refers to it.  And a request changes no
debugger but that of the namespace it is asked of, whose sink it never makes refer to another
registry.  So these facts are kept through a session.
-/
import Bindery.Proofs.Host.Addressed
import Bindery.Proofs.Namespace.Emission

namespace Bindery.Host

/-! ### Debuggers and registries of realms -/

/-- The debugger and the registry of a realm. -/
def gear? (host : Host) (name : String) : Option (DebuggerId × RegistryId) :=
  host.realms[name]?.map fun realm => (realm.debugger, realm.registry)

/-- The registry that the sink of a debugger refers to, if there is a sink that refers to one. -/
def target? (host : Host) (d : DebuggerId) : Option RegistryId :=
  (host.world.debugging.debugger d).sink?.bind Sink.target?

/-- A turn about debugging makes the sink of a debugger refer to a registry. -/
def Turn.Installs (turn : Turn) (d : DebuggerId) (r : RegistryId) : Prop :=
  (∃ about, turn.command = .debugging about) ∧ turn.before.target? d ≠ some r ∧
    turn.outcome.host.target? d = some r

/-- Debuggers and registries are there for good. -/
structure Adds (host after : Host) : Prop where
  debuggers : host.world.debugging.debuggers.size ≤ after.world.debugging.debuggers.size
  registries : host.world.debugging.registries.size ≤ after.world.debugging.registries.size

/-- The debuggers and registries of a host are there later, as they were. -/
structure Retains (host after : Host) : Prop extends host.Adds after where
  debugger : ∀ d : DebuggerId, d.index < host.world.debugging.debuggers.size →
    after.world.debugging.debugger d = host.world.debugging.debugger d
  registry : ∀ r, after.world.debugging.registry r = host.world.debugging.registry r

namespace Retains

variable {host after last : Host}

theorem refl (host : Host) : host.Retains host :=
  ⟨⟨Nat.le_refl _, Nat.le_refl _⟩, fun _ _ => rfl, fun _ => rfl⟩

theorem followed (h : host.Retains after) (hlast : last.world.debugging = after.world.debugging) :
    host.Retains last where
  debuggers := hlast ▸ h.debuggers
  registries := hlast ▸ h.registries
  debugger d hd := hlast ▸ h.debugger d hd
  registry r := hlast ▸ h.registry r

end Retains

/--
After some turns, realms share no debugger and no registry; what they keep has their debuggers, and
who else sends to a registry of theirs was made to by a turn.
-/
structure Parted (turns : List Turn) (host : Host) : Prop where
  kept : ∀ {name ident space d r}, host.spaceAt? (.kept name ident) = some space →
    host.gear? name = some (d, r) → space.debugger = d
  there : ∀ {name d r}, host.gear? name = some (d, r) →
    d.index < host.world.debugging.debuggers.size ∧ r.index < host.world.debugging.registries.size
  distinct : ∀ {name name' d d' r r'}, host.gear? name = some (d, r) →
    host.gear? name' = some (d', r') → d = d' ∨ r = r' → name = name'
  installed : ∀ {name d r e}, host.gear? name = some (d, r) → host.target? e = some r →
    e = d ∨ ∃ turn ∈ turns, turn.Installs e r

theorem parted_empty : Parted [] {} := by
  have hgear {name : String} {gear : DebuggerId × RegistryId} : gear? {} name ≠ some gear := by
    simp [gear?]
  exact ⟨fun _ h => absurd h hgear, fun h => absurd h hgear, fun h => absurd h hgear,
    fun h => absurd h hgear⟩

namespace Parted

variable {turns turns' : List Turn} {host after : Host}

/--
Where realms keep their debuggers and registries and no debugger and no registry goes away, it is
enough that what the realms keep has their debuggers, and that no sink comes to refer to another
registry but by a command about debugging.
-/
theorem step (h : Parted turns host) (hturns : ∀ turn ∈ turns, turn ∈ turns')
    (hadds : host.Adds after) (hgear : ∀ name, after.gear? name = host.gear? name)
    (hkept : ∀ {name ident space d r}, after.spaceAt? (.kept name ident) = some space →
      host.gear? name = some (d, r) → space.debugger = d)
    (htarget : ∀ {e r}, after.target? e = some r →
      host.target? e = some r ∨ ∃ turn ∈ turns', turn.Installs e r) : Parted turns' after where
  kept hspace hd := hkept hspace (hgear _ ▸ hd)
  there hd := by
    obtain ⟨hlt, hlt'⟩ := h.there (hgear _ ▸ hd)
    exact ⟨Nat.lt_of_lt_of_le hlt hadds.debuggers, Nat.lt_of_lt_of_le hlt' hadds.registries⟩
  distinct hd hd' := h.distinct (hgear _ ▸ hd) (hgear _ ▸ hd')
  installed hd hsink := by
    rcases htarget hsink with hbefore | hinstalled
    · rcases h.installed (hgear _ ▸ hd) hbefore with heq | ⟨turn, hturn, hinstalls⟩
      · exact Or.inl heq
      · exact Or.inr ⟨turn, hturns turn hturn, hinstalls⟩
    · exact Or.inr hinstalled

/-- What is parted stays so where neither namespaces nor debugging are moved. -/
theorem unmoved (h : Parted turns host) (hturns : ∀ turn ∈ turns, turn ∈ turns')
    (hunmoved : host.Unmoved after) : Parted turns' after := by
  have hgear (name : String) : after.gear? name = host.gear? name := by
    rw [gear?, gear?, hunmoved.realms]
  have hretains := (Retains.refl host).followed hunmoved.debugging
  refine h.step hturns hretains.toAdds hgear ?_ ?_
  · intro name ident space d r hspace hd
    rw [hunmoved.spaceAt?] at hspace
    exact h.kept hspace hd
  · intro e r hsink
    rw [target?, hunmoved.debugging] at hsink
    exact Or.inl hsink

end Parted

/-! ### Realms and handles -/

theorem gear?_of_realm {host : Host} {name : String} {realm : Realm}
    (there : host.realms[name]? = some realm) :
    host.gear? name = some (realm.debugger, realm.registry) := by
  rw [gear?, there]
  rfl

theorem gear?_insertRealm {host : Host} {name : String} {realm realm' : Realm}
    (hthere : host.realms[name]? = some realm) (hdebugger : realm'.debugger = realm.debugger)
    (hregistry : realm'.registry = realm.registry) (other : String) :
    ((host.realms.insert name realm')[other]?.map fun realm => (realm.debugger, realm.registry))
      = host.gear? other := by
  rw [Dict.getElem?_insert]
  by_cases hother : other = name
  · rw [if_pos hother, gear?, hother, hthere]
    simp [hdebugger, hregistry]
  · rw [if_neg hother]
    rfl

theorem debugger_newDebugger_eq (g : Debugging) (new : Debugger) (e : DebuggerId) :
    (g.newDebugger new).2.debugger e
      = if e.index = g.debuggers.size then new else g.debugger e := by
  unfold Debugging.newDebugger Debugging.debugger
  rw [Array.getD_eq_getD_getElem?, Array.getElem?_push, Array.getD_eq_getD_getElem?]
  split <;> rfl

/-- A debugger that was just made, and set to nothing, is what one is that is not there. -/
theorem debugger_newDebugger_blank (g : Debugging) (e : DebuggerId) :
    (g.newDebugger {}).2.debugger e = g.debugger e := by
  rw [debugger_newDebugger_eq]
  split
  · rename_i hindex
    unfold Debugging.debugger
    rw [Array.getD_eq_getD_getElem?, Array.getElem?_eq_none (Nat.le_of_eq hindex.symm)]
    rfl
  · rfl

section Making

variable {host : Host} {name : String} {settings : Settings}

/-- The host once a realm is made under a name. -/
def making (host : Host) (name : String) (settings : Settings) : Host :=
  { host with
    world := (Realm.make settings host.world).2
    realms := host.realms.insert name (Realm.make settings host.world).1 }

/-- A realm is made with one more debugger and one more registry. -/
theorem size_making (host : Host) (name : String) (settings : Settings) :
    (host.making name settings).world.debugging.debuggers.size
        = host.world.debugging.debuggers.size + 1 ∧
      (host.making name settings).world.debugging.registries.size
        = host.world.debugging.registries.size + 1 :=
  ⟨Array.size_push _, Array.size_push _⟩

/-- A realm that is made has the new debugger and the new registry, and the others have what they had. -/
theorem gear?_making {other : String} {d : DebuggerId} {r : RegistryId}
    (hd : (host.making name settings).gear? other = some (d, r)) :
    (other = name ∧ d.index = host.world.debugging.debuggers.size ∧
        r.index = host.world.debugging.registries.size) ∨
      (other ≠ name ∧ host.gear? other = some (d, r)) := by
  unfold gear? making at hd
  simp only [Dict.getElem?_insert] at hd
  by_cases hother : other = name
  · rw [if_pos hother] at hd
    cases hd
    exact Or.inl ⟨hother, rfl, rfl⟩
  · rw [if_neg hother] at hd
    exact Or.inr ⟨hother, hd⟩

theorem debugger_making (e : DebuggerId) :
    (host.making name settings).world.debugging.debugger e
      = if e.index = host.world.debugging.debuggers.size
        then ⟨settings.debug, some (.registry ⟨host.world.debugging.registries.size⟩)⟩
        else host.world.debugging.debugger e :=
  debugger_newDebugger_eq host.world.debugging.newRegistry.2 _ e

theorem target?_making (e : DebuggerId) :
    (host.making name settings).target? e
      = if e.index = host.world.debugging.debuggers.size
        then some ⟨host.world.debugging.registries.size⟩ else host.target? e := by
  rw [target?, debugger_making]
  split <;> rfl

end Making

/-- Of the debugger that a handle is to get, nothing but that it is there makes a difference. -/
theorem debuggerFor?_debugging {host : Host} {debugger? : Option DebuggerRef} {d : DebuggerId}
    {g : Debugging} (h : host.debuggerFor? debugger? = some (d, g)) :
    host.world.debugging.debuggers.size ≤ g.debuggers.size ∧
      g.registries = host.world.debugging.registries ∧
      ∀ e, g.debugger e = host.world.debugging.debugger e := by
  cases debugger? with
  | some which =>
      obtain ⟨found, -, heq⟩ := Option.map_eq_some_iff.mp h
      cases heq
      exact ⟨Nat.le_refl _, rfl, fun _ => rfl⟩
  | none =>
      cases h
      exact ⟨Nat.le.intro (Array.size_push _).symm, rfl, debugger_newDebugger_blank _⟩

namespace Arranges

variable {host after : Host} {about : RealmCommand} (h : host.Arranges about after)
include h

/-- Commands about realms and handles leave the debuggers and registries alone that are there. -/
theorem retains : host.Retains after := by
  have hfor {debugger? : Option DebuggerRef} {d : DebuggerId} {g : Debugging}
      (hdebugger : host.debuggerFor? debugger? = some (d, g)) :
      host.Retains (host.setDebugging g) := by
    obtain ⟨hsize, hregistries, hsame⟩ := debuggerFor?_debugging hdebugger
    refine ⟨⟨hsize, Nat.le_of_eq (congrArg Array.size hregistries.symm)⟩, fun e _ => hsame e, ?_⟩
    intro r
    show g.registry r = _
    rw [Debugging.registry, hregistries]
    rfl
  cases h with
  | made name document? settings =>
      obtain ⟨hsize, hregistries⟩ := size_making host name settings
      exact ⟨⟨Nat.le.intro hsize.symm, Nat.le.intro hregistries.symm⟩,
        fun d hd => (debugger_making d).trans (if_neg (Nat.ne_of_lt hd)),
        fun r => host.world.debugging.registry_newRegistry r⟩
  | refused handle ident debugger => exact hfor debugger
  | seated debugger nonempty => exact (hfor debugger).followed rfl
  | _ => exact (Retains.refl host).followed rfl

/-- Unless a realm is made, realms keep their debuggers and registries, and no debugger is set. -/
theorem gear (hmake : ¬ ∃ name document?, about = .make name document?) :
    (∀ name, after.gear? name = host.gear? name) ∧
      ∀ d, after.world.debugging.debugger d = host.world.debugging.debugger d := by
  cases h with
  | made name document? settings => exact absurd ⟨name, document?, rfl⟩ hmake
  | opened there absent nonempty => exact ⟨gear?_insertRealm there rfl rfl, fun _ => rfl⟩
  | closed there kept => exact ⟨gear?_insertRealm there rfl rfl, fun _ => rfl⟩
  | refused handle ident debugger =>
      exact ⟨fun _ => rfl, (debuggerFor?_debugging debugger).2.2⟩
  | seated debugger nonempty => exact ⟨fun _ => rfl, (debuggerFor?_debugging debugger).2.2⟩
  | _ => exact ⟨fun _ => rfl, fun _ => rfl⟩

end Arranges

namespace Parted

variable {turns turns' : List Turn} {host after : Host}

/-- A realm that is made shares its debugger and its registry with no one. -/
theorem made (h : Parted turns host) (hlinked : host.world.debugging.Linked) (name : String)
    (settings : Settings) : Parted turns (host.making name settings) := by
  obtain ⟨hsize, hregistries⟩ := size_making host name settings
  refine ⟨?_, ?_, ?_, ?_⟩
  · intro other ident space d r hspace hd
    replace hspace := (spaceAt?_insertRealm name _ other ident).symm.trans hspace
    rcases gear?_making hd with ⟨hother, -⟩ | ⟨hother, hbefore⟩
    · rw [if_pos hother] at hspace
      simp [Realm.make] at hspace
    · rw [if_neg hother] at hspace
      exact h.kept hspace hbefore
  · intro other d r hd
    rcases gear?_making hd with ⟨-, hdebugger, hregistry⟩ | ⟨-, hbefore⟩
    · omega
    · have hthere := h.there hbefore
      omega
  · intro other other' d d' r r' hd hd' hsame
    rcases gear?_making hd with ⟨hname, hdebugger, hregistry⟩ | ⟨-, hbefore⟩ <;>
      rcases gear?_making hd' with ⟨hname', hdebugger', hregistry'⟩ | ⟨-, hbefore'⟩
    · rw [hname, hname']
    · have hthere := h.there hbefore'
      rcases hsame with rfl | rfl <;> omega
    · have hthere := h.there hbefore
      rcases hsame with rfl | rfl <;> omega
    · exact h.distinct hbefore hbefore' hsame
  · intro other d r e hd hsink
    rw [target?_making] at hsink
    by_cases hindex : e.index = host.world.debugging.debuggers.size
    · -- The sink of the new debugger refers to the new registry.
      rw [if_pos hindex] at hsink
      obtain rfl : ⟨host.world.debugging.registries.size⟩ = r := Option.some.inj hsink
      rcases gear?_making hd with ⟨-, hdebugger, -⟩ | ⟨-, hbefore⟩
      · left
        cases e
        cases d
        simp only at hindex hdebugger
        rw [hindex, hdebugger]
      · exact absurd (h.there hbefore).2 (Nat.lt_irrefl _)
    · rw [if_neg hindex] at hsink
      rcases gear?_making hd with ⟨-, -, hregistry⟩ | ⟨-, hbefore⟩
      · obtain ⟨sink, hsink, href⟩ := Option.bind_eq_some_iff.mp hsink
        have hhas : r.index < host.world.debugging.registries.size := hlinked e sink hsink r href
        omega
      · exact h.installed hbefore hsink

/-- **Whatever is done with realms and handles, realms stay parted.** -/
theorem arranges (h : Parted turns host) (hlinked : host.world.debugging.Linked)
    {about : RealmCommand} (harranges : host.Arranges about after) : Parted turns after := by
  by_cases hmake : ∃ name document?, about = .make name document?
  · obtain ⟨name, document?, rfl⟩ := hmake
    cases harranges with
    | still => exact h
    | made name document? settings => exact h.made hlinked name settings
  · obtain ⟨hgear, hdebugger⟩ := harranges.gear hmake
    refine h.step (fun _ hturn => hturn) harranges.retains.toAdds hgear ?_ ?_
    · intro name ident space d r hspace hd
      cases harranges.origin hspace with
      | stayed before => exact h.kept before hd
      | taken command here before => cases here
      | opened here there new =>
          cases here
          rw [gear?_of_realm there] at hd
          cases hd
          rw [new]
      | seated here debugger debugging new => cases here
    · intro e r hsink
      rw [target?, hdebugger] at hsink
      exact Or.inl hsink

end Parted

/-! ### Debugging -/

namespace Adds

variable {host after last : Host}

theorem refl (host : Host) : host.Adds host :=
  ⟨Nat.le_refl _, Nat.le_refl _⟩

theorem trans (h : host.Adds after) (h' : after.Adds last) : host.Adds last :=
  ⟨Nat.le_trans h.debuggers h'.debuggers, Nat.le_trans h.registries h'.registries⟩

end Adds

/-- An action adds to debuggers and registries at most, however it ends. -/
class Adding {α : Type} (act : Action α) : Prop where
  adds : ∀ host : Host, host.Adds (left (act host))

namespace Adding

variable {α β : Type}

instance pure (a : α) : Adding (Pure.pure a : Action α) :=
  ⟨.refl⟩

instance throw (e : HostError) : Adding (MonadExcept.throw e : Action α) :=
  ⟨.refl⟩

instance get : Adding (MonadState.get : Action Host) :=
  ⟨.refl⟩

instance bind (act : Action α) (next : α → Action β) [hact : Adding act]
    [hnext : ∀ a, Adding (next a)] : Adding (act >>= next) where
  adds host := by
    have hfirst := hact.adds host
    rw [bind_run]
    cases heq : act host with
    | ok a after =>
        rw [heq] at hfirst
        exact hfirst.trans ((hnext a).adds after)
    | error e after =>
        rw [heq] at hfirst
        exact hfirst

instance require (found? : Option α) (e : HostError) : Adding (Host.require found? e) := by
  cases found? with
  | none => exact throw e
  | some found => exact pure found

instance realm (name : String) : Adding (Host.realm name) :=
  inferInstanceAs (Adding (MonadState.get >>= fun _ : Host => _))

instance space (handle : String) : Adding (Host.space handle) :=
  inferInstanceAs (Adding (MonadState.get >>= fun _ : Host => _))

theorem modifyDebugging {act : Debugging → α × Debugging}
    (h : ∀ g, g.debuggers.size ≤ (act g).2.debuggers.size ∧
      g.registries.size ≤ (act g).2.registries.size) : Adding (Host.modifyDebugging act) :=
  ⟨fun host => ⟨(h host.world.debugging).1, (h host.world.debugging).2⟩⟩

/-- To set a debugger anew adds none. -/
theorem setDebugger (d : DebuggerId) (tell : Debugging → α) (new : Debugging → Debugger) :
    Adding (Host.modifyDebugging fun g => (tell g, g.setDebugger d (new g))) :=
  modifyDebugging fun _ => ⟨Nat.le_of_eq Array.size_setIfInBounds.symm, Nat.le_refl _⟩

/-- What leaves debugging alone adds nothing. -/
theorem of_debugging {f : Host → Host}
    (h : ∀ host : Host, (f host).world.debugging = host.world.debugging) :
    Adding (modify f : Action Unit) :=
  ⟨fun host => ⟨Nat.le_of_eq (congrArg (·.debuggers.size) (h host).symm),
    Nat.le_of_eq (congrArg (·.registries.size) (h host).symm)⟩⟩

instance findDebugger (which : DebuggerRef) : Adding (Host.findDebugger which) := by
  unfold Host.findDebugger
  split <;> infer_instance

instance findRegistry (which : RegistryRef) : Adding (Host.findRegistry which) := by
  have hmake : Adding (Host.modifyDebugging (·.newRegistry)) :=
    modifyDebugging fun g => ⟨Nat.le_refl _, Nat.le_of_lt (by simp [Debugging.newRegistry])⟩
  have hname (name : String) (id : RegistryId) :
      Adding (modify fun host => { host with registries := host.registries.insert name id }) :=
    of_debugging fun _ => rfl
  unfold Host.findRegistry
  split
  · infer_instance
  · refine @bind _ _ MonadState.get _ _ fun host => ?_
    split <;> infer_instance

instance findSink (draft : SinkDraft) : Adding (Host.findSink draft) := by
  cases draft <;> unfold Host.findSink <;> infer_instance

/-- **Whatever is done about debugging takes no debugger and no registry away.** -/
instance debugStep (command : DebugCommand) : Adding (Host.debugStep command) := by
  cases command with
  | make name sink? =>
      have hnew (new : Debugger) : Adding (Host.modifyDebugging (·.newDebugger new)) :=
        modifyDebugging fun g => ⟨Nat.le_of_lt (by simp [Debugging.newDebugger]), Nat.le_refl _⟩
      have hname (id : DebuggerId) :
          Adding (modify fun host => { host with debuggers := host.debuggers.insert name id }) :=
        of_debugging fun _ => rfl
      unfold Host.debugStep
      cases sink? <;> infer_instance
  | setEnabled which enabled =>
      have hset (d : DebuggerId) :
          Adding (Host.modifyDebugging fun g => ((), g.setEnabled d enabled)) :=
        setDebugger d _ _
      unfold Host.debugStep
      infer_instance
  | setSink which sink =>
      have hset (d : DebuggerId) (sink : Sink) :
          Adding (Host.modifyDebugging fun g => ((g.debugger d).sink?, g.setSink d sink)) :=
        setDebugger d _ _
      unfold Host.debugStep
      infer_instance
  | emit which name hint =>
      have hemit (d : DebuggerId) :
          Adding (modify fun host => { host with world := host.world.emit d name hint.resolve }) := by
        refine ⟨fun host => ?_⟩
        have hsize := (host.world.debugging.emits_emit d name hint.resolve).size
        exact ⟨Nat.le_of_eq hsize.1.symm, Nat.le_of_eq hsize.2.symm⟩
      unfold Host.debugStep
      infer_instance
  | _ =>
      unfold Host.debugStep
      infer_instance

end Adding

/-! ### Requests -/

namespace Passes

variable {host after : Host} {handle : String} {asked : Asked}

theorem gear? (h : host.Passes handle asked after) (name : String) :
    after.gear? name = host.gear? name := by
  unfold Host.gear?
  rw [h.unmoved.realms]
  rcases realms_withSpace { host with world := asked.after.world } handle asked.after.space name
    with hsame | ⟨ident, realm, -, hbefore, hafter⟩
  · exact congrArg _ hsame
  · replace hbefore : host.realms[name]? = some realm := hbefore
    rw [withScope, hafter, hbefore]
    rfl

/-- Handles stand for namespaces with the debuggers that they had. -/
theorem debugger (h : host.Passes handle asked after) {place : Place} {space : Namespace}
    (hspace : after.spaceAt? place = some space) :
    ∃ space', host.spaceAt? place = some space' ∧ space'.debugger = space.debugger := by
  obtain ⟨stood, hstood, hthere⟩ := placeOf?_of_space h.space
  rw [h.spaceAt? hstood] at hspace
  split at hspace
  · rename_i heq
    cases hspace
    refine ⟨asked.before.space, heq ▸ hthere, ?_⟩
    rw [Asked.space_after]
  · exact ⟨space, hspace, rfl⟩

/-- A request makes of debuggers and registries what an emission may make of them. -/
theorem emits (h : host.Passes handle asked after) :
    Debugging.Emits asked.before.space.debugger host.world.debugging after.world.debugging := by
  have hafter : after.world.debugging = asked.before.heard asked.request.definition? := by
    rw [h.unmoved.debugging, withScope, world_withSpace]
    exact asked.debugging_after
  obtain ⟨heap, hworld⟩ := h.world
  have hbefore : asked.before.world.debugging = host.world.debugging := by rw [hworld]
  rw [hafter, ← hbefore]
  exact asked.before.emits_heard _

end Passes

namespace Parted

variable {turns : List Turn} {host after : Host}

/-- Requests leave realms parted. -/
theorem passes (h : Parted turns host) {handle : String} {asked : Asked}
    (hpasses : host.Passes handle asked after) : Parted turns after := by
  have hemits := hpasses.emits
  refine h.step (fun _ hturn => hturn)
    ⟨Nat.le_of_eq hemits.size.1.symm, Nat.le_of_eq hemits.size.2.symm⟩ hpasses.gear? ?_ ?_
  · intro name ident space d r hspace hd
    obtain ⟨space', hspace', heq⟩ := hpasses.debugger hspace
    exact heq ▸ h.kept hspace' hd
  · intro e r hsink
    unfold target? at hsink
    rw [hemits.target] at hsink
    exact Or.inl hsink

/-- What a turn about debugging makes a sink refer to is on record. -/
theorem debugs {turn : Turn} (h : Parted turns turn.before) {about : DebugCommand}
    (command : turn.command = .debugging about)
    (hunmoved : (left (Host.debugStep about turn.before)).Unmoved turn.outcome.host) :
    Parted (turns ++ [turn]) turn.outcome.host := by
  have hbeside := (Aside.debugStep about).beside turn.before
  have hadds := (Adding.debugStep about).adds turn.before
  have hdebugging := hunmoved.debugging
  have hspaces (place : Place) :
      turn.outcome.host.spaceAt? place = turn.before.spaceAt? place := by
    rw [hunmoved.spaceAt?, spaceAt?_congr hbeside.realms hbeside.seats]
  have hgear (name : String) : turn.outcome.host.gear? name = turn.before.gear? name := by
    rw [gear?, gear?, hunmoved.realms, hbeside.realms]
  refine h.step (fun _ => List.mem_append_left _)
    ⟨hdebugging ▸ hadds.debuggers, hdebugging ▸ hadds.registries⟩ hgear ?_ ?_
  · intro name ident space d r hspace hd
    exact h.kept (hspaces _ ▸ hspace) hd
  · intro e r hsink
    by_cases hbefore : turn.before.target? e = some r
    · exact Or.inl hbefore
    · exact Or.inr ⟨turn, by simp, ⟨about, command⟩, hbefore, hsink⟩

/-- **A turn leaves realms parted.** -/
theorem turn {turn : Turn} (h : Parted turns turn.before)
    (hlinked : turn.before.world.debugging.Linked) :
    Parted (turns ++ [turn]) turn.outcome.host := by
  have hturns : ∀ earlier ∈ turns, earlier ∈ turns ++ [turn] := fun _ => List.mem_append_left _
  cases turn.does with
  | arranges command arranged _ unmoved => exact (h.arranges hlinked arranged).unmoved hturns unmoved
  | debugs command unmoved => exact h.debugs command unmoved
  | asks found passes => exact (h.passes passes).unmoved hturns (.refl _)
  | nothing quiet unmoved => exact h.unmoved hturns unmoved

end Parted

/-- **In every session realms are parted.** -/
theorem Session.parted {turns : List Turn} {host : Host} (session : Session turns host) :
    Parted turns host := by
  induction session with
  | empty => exact parted_empty
  | start settings ident =>
      have hmade : Parted [] (left (newRealm "r" settings {})) :=
        parted_empty.made Debugging.linked_empty "r" settings
      have hlinked := ((Mute.newRealm "r" settings).sends {} linked_empty).linked.sinks
      have hopened := hmade.arranges hlinked (arranges_openSpace "main" "r" ident _)
      have hstart : left (Host.start settings ident {})
          = left (openSpace "main" "r" ident (left (newRealm "r" settings {}))) := by
        have hrun : Host.start settings ident {}
            = (openSpace "main" "r" ident >>= fun _ => pure ())
              (left (newRealm "r" settings {})) := rfl
        rw [hrun, bind_run]
        cases openSpace "main" "r" ident (left (newRealm "r" settings {})) <;> rfl
      refine hopened.unmoved (fun _ h => h) ?_
      rw [attempt_host, hstart]
      exact ⟨rfl, rfl, rfl, rfl, rfl⟩
  | turn session command register? ih =>
      exact @Parted.turn _ ⟨_, command, register?⟩ ih session.invariant.1.linked.sinks

end Bindery.Host
