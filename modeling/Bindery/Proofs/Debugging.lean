/-
What the debugging side channel tells, and what its registries come to hold.

To emit a place is to send it to the sink that the debugger has at that moment, if the
debugger is on.  A sink that hands over sends once more, to the registry that takes
over.  The events of the side channel announce what is sent, and a registry holds what
was sent to a sink that keeps it there.

All of it rests on one invariant: that the registries which sinks refer to are there.
To keep a place in a registry that is not there would keep it nowhere.
-/
import Bindery.Debugging
import Bindery.Proofs.Dict

namespace Bindery

/-- The events of the debugging side channel. -/
def Event.isReport : Event → Bool
  | .recording .. | .announced .. => true
  | _ => false

/-! ### Sendings -/

/-- A place that is sent to a sink. -/
structure Sending where
  sink : Sink
  name : String
  range : SourceRange

/-- The events that tell of a sending. -/
def Sending.events (sending : Sending) : List Event :=
  .recording sending.name sending.range ::
    if sending.sink = .announce then [.announced sending.name sending.range] else []

/-- The registry that a sink refers to. -/
def Sink.target? : Sink → Option RegistryId
  | .registry r | .once r | .handOver r => some r
  | .announce => none

/-- The registry in which a sink keeps what is sent to it. -/
def Sink.keeper? : Sink → Option RegistryId
  | .registry r | .once r => some r
  | .announce | .handOver _ => none

/-- What a registry holds after a sending: only what is sent to it makes a difference. -/
def Registry.receive (r : RegistryId) (registry : Registry) (sending : Sending) : Registry :=
  if sending.sink.keeper? = some r then registry.insert sending.name sending.range else registry

namespace Debugging

/-- What is sent when the place of a name is emitted. -/
def sendings (g : Debugging) (d : DebuggerId) (name : String) (range : SourceRange) :
    List Sending :=
  match g.debugger d with
  | ⟨true, some (.handOver r)⟩ =>
    [⟨.handOver r, name, range⟩, ⟨.registry r, handedOver name, range⟩]
  | ⟨true, some sink⟩ => [⟨sink, name, range⟩]
  | _ => []

variable {g g' g'' : Debugging}

/-- The events of an emission are those of what it sends. -/
theorem emit_events (g : Debugging) (d : DebuggerId) (name : String) (range : SourceRange) :
    (g.emit d name range).2 = (g.sendings d name range).flatMap Sending.events := by
  unfold emit sendings
  rcases g.debugger d with ⟨enabled, sink?⟩
  cases enabled with
  | false => rfl
  | true =>
      cases sink? with
      | none => rfl
      | some sink => cases sink <;> rfl

/-- An emission makes no other events than those of the side channel. -/
theorem emit_isReport (g : Debugging) (d : DebuggerId) (name : String) (range : SourceRange) :
    ∀ event ∈ (g.emit d name range).2, event.isReport = true := by
  intro event hevent
  rw [emit_events] at hevent
  obtain ⟨sending, -, hevent⟩ := List.mem_flatMap.mp hevent
  unfold Sending.events at hevent
  split at hevent
  · rcases List.mem_cons.mp hevent with rfl | hrest
    · rfl
    · rw [List.mem_singleton.mp hrest]
      rfl
  · rw [List.mem_singleton.mp hevent]
    rfl

/-! ### Registries that are there -/

/-- A registry is there. -/
def Has (g : Debugging) (r : RegistryId) : Prop :=
  r.index < g.registries.size

/-- The registry that a sink refers to, if it refers to one, is there. -/
def Backs (g : Debugging) (sink : Sink) : Prop :=
  ∀ r, sink.target? = some r → g.Has r

/-- The registry that each sink refers to is there. -/
def Linked (g : Debugging) : Prop :=
  ∀ d sink, (g.debugger d).sink? = some sink → g.Backs sink

theorem linked_empty : Linked {} := by
  intro d sink hsink
  simp [debugger] at hsink

/-- A sink that refers to a registry is backed by the registry. -/
theorem backs_of_has {sink : Sink} {r : RegistryId} (href : sink.target? = some r)
    (hhas : g.Has r) : g.Backs sink := by
  intro r' href'
  rw [href] at href'
  cases href'
  exact hhas

theorem debugger_setDebugger (g : Debugging) (d e : DebuggerId) (new : Debugger) :
    (g.setDebugger d new).debugger e = new ∨
      (g.setDebugger d new).debugger e = g.debugger e := by
  unfold setDebugger debugger
  simp only [Array.getD_eq_getD_getElem?, Array.getElem?_setIfInBounds]
  split
  · split
    · exact Or.inl rfl
    · rename_i h hsize
      right
      rw [← h, Array.getElem?_eq_none (Nat.le_of_not_lt hsize)]
  · exact Or.inr rfl

theorem debugger_newDebugger (g : Debugging) (new : Debugger) (e : DebuggerId) :
    (g.newDebugger new).2.debugger e = new ∨
      (g.newDebugger new).2.debugger e = g.debugger e := by
  unfold newDebugger debugger
  simp only [Array.getD_eq_getD_getElem?, Array.getElem?_push]
  split
  · exact Or.inl rfl
  · exact Or.inr rfl

theorem has_newRegistry (g : Debugging) : g.newRegistry.2.Has g.newRegistry.1 := by
  show g.registries.size < (g.registries.push ∅).size
  simp

/-- A registry that was just made holds what one that is not there holds: nothing. -/
theorem registry_newRegistry (g : Debugging) (r : RegistryId) :
    g.newRegistry.2.registry r = g.registry r := by
  unfold newRegistry registry
  simp only [Array.getD_eq_getD_getElem?, Array.getElem?_push]
  split
  · rename_i h
    rw [h, Array.getElem?_eq_none (Nat.le_refl _)]
    rfl
  · rfl

theorem registry_keep {r : RegistryId} (h : g.Has r) (name : String) (range : SourceRange)
    (r' : RegistryId) :
    (g.keep r name range).registry r'
      = if r = r' then (g.registry r').insert name range else g.registry r' := by
  unfold keep registry
  simp only [Array.getD_eq_getD_getElem?, Array.getElem?_setIfInBounds]
  by_cases hr : r = r'
  · subst hr
    rw [if_pos rfl, if_pos rfl, if_pos (show r.index < g.registries.size from h)]
    rfl
  · have hindex : r.index ≠ r'.index := by
      cases r
      cases r'
      simpa using hr
    rw [if_neg hindex, if_neg hr]

/-! ### What changes do to registries -/

/--
From one state of the debuggers and registries to another, exactly what is sent is
received: no registry goes away, none is referred to that is not there, and each holds
what it held and what was sent to it since.
-/
structure Receives (g g' : Debugging) (sent : List Sending) : Prop where
  has : ∀ r, g.Has r → g'.Has r
  linked : g'.Linked
  registry : ∀ r, g'.registry r = sent.foldl (Registry.receive r) (g.registry r)

namespace Receives

theorem refl (h : g.Linked) : g.Receives g [] :=
  ⟨fun _ hr => hr, h, fun _ => rfl⟩

theorem trans {sent sent' : List Sending} (h : g.Receives g' sent) (h' : g'.Receives g'' sent') :
    g.Receives g'' (sent ++ sent') := by
  refine ⟨fun r hr => h'.has r (h.has r hr), h'.linked, ?_⟩
  intro r
  rw [List.foldl_append, ← h.registry, h'.registry]

/-- Nothing is sent when a debugger is made or changed whose sink is backed. -/
theorem of_debugger (h : g.Linked) (new : Debugger)
    (hnew : ∀ sink, new.sink? = some sink → g.Backs sink)
    (hregistries : g'.registries = g.registries)
    (heach : ∀ d, g'.debugger d = new ∨ g'.debugger d = g.debugger d) : g.Receives g' [] := by
  have hhas : ∀ r, g.Has r → g'.Has r := by
    intro r hr
    unfold Has
    rw [hregistries]
    exact hr
  refine ⟨hhas, ?_, ?_⟩
  · intro d sink hsink r hr
    rcases heach d with heq | heq
    · rw [heq] at hsink
      exact hhas r (hnew sink hsink r hr)
    · rw [heq] at hsink
      exact hhas r (h d sink hsink r hr)
  · intro r
    unfold Debugging.registry
    rw [hregistries]
    rfl

theorem setDebugger (h : g.Linked) (d : DebuggerId) (new : Debugger)
    (hnew : ∀ sink, new.sink? = some sink → g.Backs sink) :
    g.Receives (g.setDebugger d new) [] :=
  of_debugger h new hnew rfl fun e => debugger_setDebugger g d e new

theorem newDebugger (h : g.Linked) (new : Debugger)
    (hnew : ∀ sink, new.sink? = some sink → g.Backs sink) :
    g.Receives (g.newDebugger new).2 [] :=
  of_debugger h new hnew rfl (debugger_newDebugger g new)

theorem setEnabled (h : g.Linked) (d : DebuggerId) (enabled : Bool) :
    g.Receives (g.setEnabled d enabled) [] :=
  setDebugger h d _ (h d)

theorem setSink (h : g.Linked) (d : DebuggerId) {sink : Sink} (hbacks : g.Backs sink) :
    g.Receives (g.setSink d sink) [] := by
  refine setDebugger h d _ ?_
  intro sink' hsink
  cases hsink
  exact hbacks

theorem newRegistry (h : g.Linked) : g.Receives g.newRegistry.2 [] := by
  have hhas : ∀ r, g.Has r → g.newRegistry.2.Has r := by
    intro r hr
    show r.index < (g.registries.push ∅).size
    rw [Array.size_push]
    exact Nat.lt_succ_of_lt hr
  exact ⟨hhas, fun d sink hd r hr => hhas r (h d sink hd r hr), registry_newRegistry g⟩

/-- What is sent to a sink that keeps nothing changes no registry. -/
theorem unkept (h : g.Receives g' []) (sending : Sending) (hkeeper : sending.sink.keeper? = none) :
    g.Receives g' [sending] := by
  refine ⟨h.has, h.linked, ?_⟩
  intro r
  rw [h.registry]
  simp [Registry.receive, hkeeper]

/-- To keep a place in a registry that is there is to send it to a sink that keeps it there. -/
theorem keep (h : g.Linked) (sink : Sink) {r : RegistryId} (hkeeper : sink.keeper? = some r)
    (hhas : g.Has r) (name : String) (range : SourceRange) :
    g.Receives (g.keep r name range) [⟨sink, name, range⟩] := by
  have hsame : ∀ r', g.Has r' → (g.keep r name range).Has r' := by
    intro r' hr'
    show r'.index < (g.registries.setIfInBounds _ _).size
    rw [Array.size_setIfInBounds]
    exact hr'
  refine ⟨hsame, fun d sink hd r hr => hsame r (h d sink hd r hr), ?_⟩
  intro r'
  rw [registry_keep hhas]
  simp [Registry.receive, hkeeper]

/-- **An emission sends what it sends and nothing else.** -/
theorem emit (h : g.Linked) (d : DebuggerId) (name : String) (range : SourceRange) :
    g.Receives (g.emit d name range).1 (g.sendings d name range) := by
  have hd := h d
  unfold Debugging.emit sendings
  rcases hdebugger : g.debugger d with ⟨enabled, sink?⟩
  rw [hdebugger] at hd
  cases enabled with
  | false => exact refl h
  | true =>
      cases sink? with
      | none => exact refl h
      | some sink =>
          cases sink with
          | registry r => exact keep h (.registry r) rfl (hd _ rfl r rfl) name range
          | announce => exact (refl h).unkept ⟨.announce, name, range⟩ rfl
          | once r =>
              have hkept := keep h (.once r) rfl (hd _ rfl r rfl) name range
              exact hkept.trans (setEnabled hkept.linked d false)
          | handOver r =>
              have hhas := hd _ rfl r rfl
              have hset : g.Receives (g.setSink d (.registry r)) [] :=
                setSink h d (backs_of_has rfl hhas)
              have hkept := keep hset.linked (.registry r) rfl (hset.has r hhas)
                (handedOver name) range
              exact (hset.unkept ⟨.handOver r, name, range⟩ rfl).trans hkept

end Receives

end Debugging

end Bindery
