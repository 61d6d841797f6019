/-
What registries hold in the course of a session.

In a session a host is begun and then asked one thing after the other, whatever it is
asked and whatever fails.  The invariant of a session is that the host is linked, that
its trace is empty between turns, and that each registry holds what was sent to it so
far.  So a registry is the log of what was sent to it: of each name it holds what was
sent last.
-/
import Bindery.Proofs.Host.Sending
import Mathlib.Data.Finset.Card
import Mathlib.Data.List.Induction

namespace Bindery

/-! ### Registries as logs -/

/-- What was sent to sinks that keep it in a registry. -/
def Sending.keptIn (r : RegistryId) (sent : List Sending) : List Sending :=
  sent.filter fun sending => sending.sink.keeper? = some r

/-- A registry holds what it was sent, and of each name the last. -/
structure Registry.Logs (registry : Registry) (kept : List Sending) : Prop where
  lookup : ∀ name, registry[name]?
    = (kept.filter fun sending => sending.name = name).getLast?.map Sending.range
  mem_names : ∀ name, name ∈ registry.keys ↔ ∃ sending ∈ kept, sending.name = name
  ascending : registry.keys.Pairwise fun a b => Text.bytes a < Text.bytes b
  size : registry.size = (kept.map Sending.name).toFinset.card
  isEmpty : registry.isEmpty = true ↔ kept = []

namespace Registry

theorem lookup_foldl_receive (r : RegistryId) (sent : List Sending) (name : String) :
    (sent.foldl (receive r) ∅)[name]? = ((Sending.keptIn r sent).filter fun sending =>
      sending.name = name).getLast?.map Sending.range := by
  unfold Sending.keptIn
  induction sent using List.reverseRecOn with
  | nil => rfl
  | append_singleton sent sending ih =>
      rw [List.foldl_append, List.foldl_cons, List.foldl_nil, List.filter_append, receive]
      by_cases hkeeper : sending.sink.keeper? = some r
      · rw [if_pos hkeeper, Dict.getElem?_insert, ih]
        by_cases hname : sending.name = name
        · simp [hkeeper, hname]
        · simp [hkeeper, hname, Ne.symm hname]
      · rw [if_neg hkeeper, ih]
        simp [hkeeper]

/-- **A registry that began empty is the log of what was sent to it.** -/
theorem logs_foldl_receive (r : RegistryId) (sent : List Sending) :
    Logs (sent.foldl (receive r) ∅) (Sending.keptIn r sent) := by
  have hlookup := lookup_foldl_receive r sent
  generalize Sending.keptIn r sent = kept at hlookup ⊢
  generalize sent.foldl (receive r) ∅ = registry at hlookup ⊢
  have hnames (name : String) : name ∈ registry.keys ↔ ∃ sending ∈ kept, sending.name = name := by
    rw [Dict.mem_keys, hlookup]
    simp
  have hsize : registry.size = (kept.map Sending.name).toFinset.card := by
    have hkeys : registry.keys.toFinset = (kept.map Sending.name).toFinset := by
      ext name
      rw [List.mem_toFinset, hnames]
      simp
    rw [← hkeys, List.toFinset_card_of_nodup Std.ExtTreeMap.nodup_keys,
      Std.ExtTreeMap.length_keys]
  refine ⟨hlookup, hnames, registry.keys_ascending, hsize, ?_⟩
  rw [Std.ExtTreeMap.isEmpty_eq_size_beq_zero, hsize, beq_iff_eq, Finset.card_eq_zero]
  simp

end Registry

namespace Host

/-! ### Turns -/

/-- A command that a host is asked, with the register for its answer. -/
structure Turn where
  before : Host
  command : Command
  register? : Option String

namespace Turn

/-- What comes of a turn. -/
def outcome (turn : Turn) : Outcome Answer :=
  attempt (step turn.command turn.register?) turn.before

/-- What is sent in a turn. -/
def sendings (turn : Turn) : List Sending :=
  match turn.outcome.result with
  | .ok _ => turn.before.sendings turn.command
  | .error _ => []

end Turn

/-- A host between turns: its sinks can be relied on, and its events are taken out. -/
structure AtRest (host : Host) : Prop where
  linked : host.Linked
  trace : host.world.trace = #[]

/-- What is sent on the way to an outcome is kept by registries and told by events. -/
theorem attempt_sends {α : Type} {act : Action α} {host : Host} {sent : List Sending}
    (hrest : host.AtRest) (h : host.Sends (left (act host)) sent) :
    (attempt act host).host.AtRest ∧
      (∀ r, (attempt act host).host.world.debugging.registry r
        = sent.foldl (Registry.receive r) (host.world.debugging.registry r)) ∧
      (attempt act host).events.filter Event.isReport = sent.flatMap Sending.events := by
  obtain ⟨events, htrace, htold⟩ := h.world.trace
  rw [attempt_host, attempt_events, htrace, hrest.trace]
  exact ⟨⟨⟨h.linked.sinks, h.linked.realms, h.linked.registries⟩, rfl⟩,
    h.world.debugging.registry, htold⟩

/-- **What a turn sends.** -/
theorem Turn.sends (turn : Turn) (hrest : turn.before.AtRest) :
    turn.outcome.host.AtRest ∧
      (∀ r, turn.outcome.host.world.debugging.registry r
        = turn.sendings.foldl (Registry.receive r) (turn.before.world.debugging.registry r)) ∧
      turn.outcome.events.filter Event.isReport = turn.sendings.flatMap Sending.events := by
  have hsent : sentBy (turn.before.sendings turn.command)
      (step turn.command turn.register? turn.before) = turn.sendings := by
    unfold Turn.sendings Turn.outcome attempt
    cases step turn.command turn.register? turn.before <;> rfl
  have hstep := step_sends hrest.linked turn.command turn.register?
  rw [hsent] at hstep
  exact attempt_sends hrest hstep

/-! ### Sessions -/

/-- A session leads from a host that is begun, with or without a first realm, through turns. -/
inductive Session : List Turn → Host → Prop where
  | empty : Session [] {}
  | start (settings : Settings) (ident : String) :
      Session [] (attempt (Host.start settings ident) {}).host
  | turn {turns : List Turn} {host : Host} (session : Session turns host) (command : Command)
      (register? : Option String) :
      Session (turns ++ [⟨host, command, register?⟩])
        (Turn.outcome ⟨host, command, register?⟩).host

namespace Session

variable {turns : List Turn} {host : Host}

/-- What carries a session: between turns each registry holds what was sent to it. -/
theorem invariant (session : Session turns host) :
    host.AtRest ∧ ∀ r, host.world.debugging.registry r
      = (turns.flatMap Turn.sendings).foldl (Registry.receive r) ∅ := by
  have hempty : AtRest {} := ⟨linked_empty, rfl⟩
  induction session with
  | empty => exact ⟨hempty, fun _ => rfl⟩
  | start settings ident =>
      have hstart := (Mute.start settings ident).sends {} hempty.linked
      obtain ⟨hrest, hregistry, -⟩ := attempt_sends hempty hstart
      exact ⟨hrest, hregistry⟩
  | @turn turns host session command register? ih =>
      obtain ⟨hrest, hregistry⟩ := ih
      obtain ⟨hrest', hregistry', -⟩ := Turn.sends ⟨host, command, register?⟩ hrest
      refine ⟨hrest', ?_⟩
      intro r
      rw [hregistry', List.flatMap_append, List.flatMap_singleton, List.foldl_append, ← hregistry]

/-- Every turn of a session is asked of a host at rest. -/
theorem before_atRest (session : Session turns host) : ∀ turn ∈ turns, turn.before.AtRest := by
  induction session with
  | empty => simp
  | start settings ident => simp
  | @turn turns host session command register? ih =>
      intro turn hturn
      rcases List.mem_append.mp hturn with hturn | hturn
      · exact ih turn hturn
      · rw [List.mem_singleton.mp hturn]
        exact session.invariant.1

end Session

/--
**Registries are the logs of what debuggers send.**  In every session, whatever is
asked and whatever fails, the events of a turn tell exactly what it sends: the place
that is emitted, or that of the callable that is given and bound, to the sink that the
debugger has at that moment, if it is on, and nothing else.  And each registry holds, of
each name, the place that was sent last to a sink that keeps it there; it lists the names
that were sent in ascending order, each once.
-/
theorem registries_log_sendings {turns : List Turn} {host : Host} (session : Session turns host) :
    (∀ turn ∈ turns,
      turn.outcome.events.filter Event.isReport = turn.sendings.flatMap Sending.events) ∧
    ∀ r, Registry.Logs (host.world.debugging.registry r)
      (Sending.keptIn r (turns.flatMap Turn.sendings)) := by
  refine ⟨fun turn hturn => (turn.sends (session.before_atRest turn hturn)).2.2, ?_⟩
  intro r
  rw [session.invariant.2]
  exact Registry.logs_foldl_receive r _

/-- A callable is logged when it is given; when a removal binds it again it is not. -/
theorem renewal_not_logged :
    ∃ turns host, Session turns host ∧
      turns.map Turn.command =
        [.debugging (.setEnabled { realm := "r" } true),
          .operation "main" (.add "&f" (some (.constant (.int 1))) { first? := some 7 }),
          .operation "main" (.add "$f" (some (.int 2)) {}),
          .operation "main" (.remove "$f")] ∧
      Registry.Logs (host.world.debugging.registry ⟨0⟩)
        [⟨.registry ⟨0⟩, "main::f", ⟨"<caller>", 7, 7⟩⟩] := by
  have session := (Session.start {} "main")
    |>.turn (.debugging (.setEnabled { realm := "r" } true)) none
    |>.turn (.operation "main" (.add "&f" (some (.constant (.int 1))) { first? := some 7 })) none
    |>.turn (.operation "main" (.add "$f" (some (.int 2)) {})) none
    |>.turn (.operation "main" (.remove "$f")) none
  refine ⟨_, _, session, rfl, ?_⟩
  have hlogs := (registries_log_sendings session).2 ⟨0⟩
  refine Eq.subst (motive := fun kept => Registry.Logs _ kept) ?_ hlogs
  rfl

end Host

end Bindery
