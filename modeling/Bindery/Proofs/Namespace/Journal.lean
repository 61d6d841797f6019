/-
The events of a namespace are a journal of it.

The outline of a table keeps of each name only whether it is unbound, has a stub, or
has slots, and of slots only which of them hold a value.  Two events carry enough to
follow it: a name that is removed becomes unbound, and a name that is bound gets
slots, unless its stub is kept, and in them its kind, if a value was installed.  What
`Journal` says of a list of events is that it leads from one outline to another when
they are replayed in order, and that a stub is announced as discarded right before the
binding that makes it give way, and nowhere else.

Journals follow one another, so it is enough that each move of a scope tells its own.
That also covers the steps that are made of several moves, and a removal that stops
halfway.
-/
import Bindery.Proofs.Namespace.Run
import Mathlib.Data.Finset.Dedup
import Mathlib.Data.Finset.Insert
import Mathlib.Logic.Function.Basic

namespace Bindery

/-! ### Outlines -/

/-- What the outline keeps of an entry. -/
inductive Outline where
  | stub
  | kinds (present : Finset Kind)

/-- The kinds whose slots hold a value. -/
def Slots.present (slots : Slots) : Finset Kind :=
  (Kind.all.filter slots.contains).toFinset

def Entry.outline : Entry → Outline
  | .bindings slots => .kinds slots.present
  | .stub _ => .stub

/-- The outline of each name; an unbound name has none. -/
abbrev Outlines := String → Option Outline

def SymbolTable.outlines (table : SymbolTable) : Outlines := fun name =>
  table[name]?.map Entry.outline

/-- The kinds that a name has once it has slots: none but those it had. -/
def Outlines.present (outlines : Outlines) (name : String) : Finset Kind :=
  match outlines name with
  | some (.kinds present) => present
  | _ => ∅

/-- What an event of a namespace says that the outlines became. -/
def Event.replay (ident : String) (outlines : Outlines) : Event → Outlines
  | .nameRemoved owner name _ =>
    if owner = ident then Function.update outlines name none else outlines
  | .bound owner spec installed keptStub =>
    if owner = ident ∧ keptStub = false then
      Function.update outlines spec.name <| some <| .kinds <|
        if installed then insert spec.kind (outlines.present spec.name)
        else outlines.present spec.name
    else outlines
  | _ => outlines

/-- What the events of a namespace, one after the other, say that the outlines became. -/
def Event.replayAll (ident : String) (outlines : Outlines) (events : List Event) : Outlines :=
  events.foldl (Event.replay ident) outlines

/-! ### Outlines of a table that changes -/

theorem Slots.mem_present {slots : Slots} {kind : Kind} :
    kind ∈ slots.present ↔ slots.contains kind = true := by
  simp [Slots.present]

theorem Slots.present_empty : ({} : Slots).present = ∅ := by
  ext kind
  simp [Slots.mem_present, Slots.contains]

theorem Slots.present_set (slots : Slots) (kind : Kind) (value : Value) :
    (slots.set kind value).present = insert kind slots.present := by
  ext j
  rw [Slots.mem_present, Finset.mem_insert, Slots.mem_present, Slots.contains, Slots.contains,
    Slots.get_set]
  by_cases h : j = kind
  · simp [h]
  · simp [h]

namespace SymbolTable

variable (table : SymbolTable)

theorem outlines_insert (name : String) (entry : Entry) :
    SymbolTable.outlines (table.insert name entry)
      = Function.update table.outlines name (some entry.outline) := by
  funext other
  unfold outlines
  rw [Dict.getElem?_insert, Function.update_apply]
  split <;> rfl

theorem outlines_erase (name : String) :
    SymbolTable.outlines (table.erase name) = Function.update table.outlines name none := by
  funext other
  unfold outlines
  rw [Dict.getElem?_erase, Function.update_apply]
  split <;> rfl

theorem outlines_eq_stub_iff {name : String} :
    table.outlines name = some .stub ↔ table.isStub name = true := by
  unfold outlines isStub
  cases table[name]? with
  | none => simp
  | some entry => cases entry <;> simp [Entry.outline, Entry.isStub]

theorem present_outlines (name : String) :
    table.outlines.present name = (table.slots name).present := by
  unfold Outlines.present outlines SymbolTable.slots
  cases table[name]? with
  | none => simp [Slots.present_empty]
  | some entry => cases entry <;> simp [Entry.outline, Entry.slots?, Slots.present_empty]

/-- The event of a binding tells what the binding makes of the outlines. -/
theorem outlines_bound (ident : String) (spec : Spec) (value? : Option Value) :
    (table.bound spec value?).outlines
      = Event.replay ident table.outlines
          (.bound ident spec value?.isSome (value?.isNone && table.isStub spec.name)) := by
  cases value? with
  | some value =>
      rw [bound, outlines_insert, Entry.outline, Slots.present_set, ← present_outlines]
      simp [Event.replay]
  | none =>
      cases hstub : table.isStub spec.name with
      | true =>
          rw [table.bound_none_of_isStub hstub]
          simp [Event.replay]
      | false =>
          have hreplay : Event.replay ident table.outlines (.bound ident spec false false)
              = Function.update table.outlines spec.name
                  (some (.kinds (table.outlines.present spec.name))) := by
            simp [Event.replay]
          show _ = Event.replay ident table.outlines (.bound ident spec false false)
          rw [hreplay, present_outlines, bound]
          split
          · rename_i hc
            rw [Dict.contains_eq, Option.isSome_iff_exists] at hc
            obtain ⟨entry, he⟩ := hc
            have hsame : some (Outline.kinds (table.slots spec.name).present)
                = table.outlines spec.name := by
              cases entry with
              | bindings slots =>
                  simp [outlines, SymbolTable.slots, he, Entry.slots?, Entry.outline]
              | stub raw => simp [isStub, he, Entry.isStub] at hstub
            rw [hsame, Function.update_eq_self]
          · rename_i hc
            rw [outlines_insert, slots_eq_of_unbound table (Bool.eq_false_iff.mpr hc)]
            rfl

end SymbolTable

/-! ### Journals -/

/-- An event that stands alone: no stub is discarded by it, and none has to be before it. -/
def Event.Alone (outlines : Outlines) : Event → Prop
  | .stubDiscarded .. => False
  | .bound _ spec _ keptStub => keptStub = false → outlines spec.name ≠ some .stub
  | _ => True

/-- Events that lead from outlines to outlines when the events of a namespace are replayed. -/
inductive Journal (ident : String) : Outlines → List Event → Outlines → Prop where
  | nil (o : Outlines) : Journal ident o [] o
  | alone {o o' : Outlines} {event : Event} {rest : List Event} (alone : event.Alone o)
      (next : Journal ident (Event.replay ident o event) rest o') :
      Journal ident o (event :: rest) o'
  /-- A stub is discarded, and then the name is bound. -/
  | discarding {o o' : Outlines} {spec : Spec} {raw : String} {installed : Bool}
      {rest : List Event} (stub : o spec.name = some .stub)
      (next : Journal ident (Event.replay ident o (.bound ident spec installed false)) rest o') :
      Journal ident o
        (.stubDiscarded spec.name raw :: .bound ident spec installed false :: rest) o'

namespace Journal

variable {ident : String} {o o' o'' : Outlines} {events events' : List Event}

/-- Journals follow one another. -/
theorem append (h : Journal ident o events o') (h' : Journal ident o' events' o'') :
    Journal ident o (events ++ events') o'' := by
  induction h with
  | nil => exact h'
  | alone halone _ ih => exact .alone halone (ih h')
  | discarding hstub _ ih => exact .discarding hstub (ih h')

/-- **Replaying a journal gives the outlines it leads to.** -/
theorem replayAll (h : Journal ident o events o') : Event.replayAll ident o events = o' := by
  induction h with
  | nil => rfl
  | alone _ _ ih => exact ih
  | discarding _ _ ih => exact ih

/-- A binding that finds a stub and does not keep it comes right after the stub is discarded. -/
theorem discarded_before (h : Journal ident o events o') :
    ∀ earlier spec installed later,
      events = earlier ++ .bound ident spec installed false :: later →
      Event.replayAll ident o earlier spec.name = some .stub →
      ∃ start raw, earlier = start ++ [.stubDiscarded spec.name raw] := by
  induction h with
  | nil => simp
  | @alone _ _ event _ halone _ ih =>
      intro earlier spec installed later heq hstub
      cases earlier with
      | nil =>
          cases heq
          exact absurd hstub (halone rfl)
      | cons head earlier =>
          simp only [List.cons_append, List.cons.injEq] at heq
          obtain ⟨rfl, hrest⟩ := heq
          obtain ⟨start, raw, rfl⟩ := ih earlier spec installed later hrest hstub
          exact ⟨event :: start, raw, rfl⟩
  | @discarding _ _ found raw _ _ hfound _ ih =>
      intro earlier spec installed later heq hstub
      match earlier with
      | [] => cases heq
      | [head] =>
          cases heq
          exact ⟨[], raw, rfl⟩
      | head :: next :: earlier =>
          simp only [List.cons_append, List.cons.injEq] at heq
          obtain ⟨rfl, rfl, hrest⟩ := heq
          obtain ⟨start, raw', rfl⟩ := ih earlier spec installed later hrest hstub
          exact ⟨_ :: _ :: start, raw', rfl⟩

/-- A stub is discarded only right before a binding that finds it and does not keep it. -/
theorem bound_after (h : Journal ident o events o') :
    ∀ earlier name raw later, events = earlier ++ .stubDiscarded name raw :: later →
      Event.replayAll ident o earlier name = some .stub ∧
        ∃ spec installed rest, spec.name = name ∧
          later = .bound ident spec installed false :: rest := by
  induction h with
  | nil => simp
  | alone halone _ ih =>
      intro earlier name raw later heq
      cases earlier with
      | nil =>
          cases heq
          exact halone.elim
      | cons head earlier =>
          simp only [List.cons_append, List.cons.injEq] at heq
          obtain ⟨rfl, hrest⟩ := heq
          exact ih earlier name raw later hrest
  | @discarding _ _ found _ installed rest hfound _ ih =>
      intro earlier name raw later heq
      match earlier with
      | [] =>
          cases heq
          exact ⟨hfound, found, installed, rest, rfl, rfl⟩
      | [head] =>
          simp at heq
      | head :: next :: earlier =>
          simp only [List.cons_append, List.cons.injEq] at heq
          obtain ⟨rfl, rfl, hrest⟩ := heq
          exact ih earlier name raw later hrest

/-- Events that change no outline and discard no stub. -/
theorem asides (h : ∀ event ∈ events, event.Alone o ∧ Event.replay ident o event = o) :
    Journal ident o events o := by
  induction events with
  | nil => exact .nil o
  | cons event rest ih =>
      obtain ⟨halone, hreplay⟩ := h event (by simp)
      refine .alone halone ?_
      rw [hreplay]
      exact ih fun e he => h e (by simp [he])

end Journal

/-! ### What the moves of a scope tell -/

namespace Scope

variable (s : Scope)

/-- What a debugger tells of a binding is an aside. -/
theorem reporting_aside (spec : Spec) (given? : Option Value) (origin : Origin) (ident : String)
    (o : Outlines) : ∀ event ∈ (s.reporting spec given? origin).2,
      event.Alone o ∧ Event.replay ident o event = o := by
  intro event hevent
  cases origin with
  | renewal => cases hevent
  | caller hint =>
      unfold reporting at hevent
      simp only at hevent
      split at hevent
      · have hreport := Debugging.emit_isReport _ _ _ _ event hevent
        cases event <;> first | exact ⟨trivial, rfl⟩ | cases hreport
      · cases hevent

/-- A binding tells what it does to the outlines. -/
theorem told_journal (spec : Spec) (given? : Option Value) (origin : Origin) :
    Journal s.space.ident s.table.outlines (s.told spec given? origin)
      (s.place spec given? origin).table.outlines := by
  refine Journal.append ?_ (Journal.asides (s.reporting_aside spec given? origin _ _))
  rw [table_place, SymbolTable.outlines_bound s.table s.space.ident]
  obtain ⟨heap, hheap⟩ := s.valueFor_scope spec.kind given?
  unfold bindingEvents
  rcases hv : s.valueFor spec.kind given? with ⟨value?, t⟩
  obtain rfl : t = s.setHeap heap := by rw [← hheap, hv]
  simp only
  change Journal _ _ _ (Event.replay s.space.ident _ (.bound _ _ _ (s.keepsStub spec value?)))
  cases hkept : s.keepsStub spec value? with
  | true => exact .alone nofun (.nil _)
  | false =>
      rw [if_neg Bool.false_ne_true]
      cases hstub : s.table.isStub spec.name with
      | true =>
          obtain ⟨raw, hraw⟩ := (s.setHeap heap).discards_of_isStub hstub
          rw [hraw]
          exact .discarding ((SymbolTable.outlines_eq_stub_iff _).mpr hstub) (.nil _)
      | false =>
          rw [(s.setHeap heap).discards_eq_nil hstub]
          refine .alone (fun _ hfound => ?_) (.nil _)
          rw [SymbolTable.outlines_eq_stub_iff, hstub] at hfound
          cases hfound

/-- The scope told a journal since another scope of the same namespace. -/
def Tells (s t : Scope) : Prop :=
  t.space.ident = s.space.ident ∧ ∃ events,
    t.world.trace.toList = s.world.trace.toList ++ events ∧
      Journal s.space.ident s.table.outlines events t.table.outlines

/-- Each move of a scope tells its own journal. -/
theorem kept_tells (s : Scope) : Kept True s.Tells where
  allocate _ _ h := h
  notice t event hnotice h := by
    obtain ⟨hident, events, htrace, hjournal⟩ := h
    refine ⟨hident, events ++ [event], ?_, ?_⟩
    · simp [log, World.log, htrace]
    · refine hjournal.append (.alone ?_ ?_)
      · cases event <;> first | exact trivial | cases hnotice
      · cases event <;> first | exact .nil _ | cases hnotice
  place t spec value? origin hfit _ h := by
    obtain ⟨hident, events, htrace, hjournal⟩ := h
    have hspace : (t.place spec value? origin).space.ident = t.space.ident := by
      rw [space_place]
      rfl
    refine ⟨hspace.trans hident, events ++ t.told spec value? origin, ?_, ?_⟩
    · obtain ⟨heap, hheap⟩ := t.valueFor_scope spec.kind value?
      rw [world_place, hheap]
      simp [World.log, htrace, setHeap]
    · refine hjournal.append ?_
      rw [← hident]
      exact t.told_journal spec value? origin
  drop t name h := by
    obtain ⟨hident, events, htrace, hjournal⟩ := h
    refine ⟨hident, events ++ [.nameRemoved t.space.ident name t.table[name]?.isSome], ?_, ?_⟩
    · simp [drop, log, setTable, World.log, htrace]
    · refine hjournal.append (.alone trivial ?_)
      have htable : (t.drop name).2.table = t.table.erase name := rfl
      rw [htable, SymbolTable.outlines_erase, hident]
      simp only [Event.replay, if_pos]
      exact .nil _

end Scope

/-! ### What steps tell -/

namespace Step

/-- The events that a step adds to the trace. -/
def events (step : Step) : List Event :=
  step.after.world.trace.toList.drop step.before.world.trace.size

/-- A step adds its events to the trace and tells a journal by them. -/
theorem tells (step : Step) :
    step.after.space.ident = step.before.space.ident ∧
      step.after.world.trace.toList = step.before.world.trace.toList ++ step.events ∧
      Journal step.before.space.ident step.before.table.outlines step.events
        step.after.table.outlines := by
  have hstart : step.before.Tells step.before := ⟨rfl, [], by simp, .nil _⟩
  obtain ⟨hident, events, htrace, hjournal⟩ :=
    (Scope.kept_tells step.before).after step.operation (fun _ => trivial) hstart
  have hevents : step.events = events := by
    unfold Step.events
    rw [htrace, ← Array.length_toList, List.drop_left]
  rw [hevents]
  exact ⟨hident, htrace, hjournal⟩

theorem events_eq_nil {step : Step} (h : step.after = step.before) : step.events = [] := by
  unfold Step.events
  rw [h, ← Array.length_toList, List.drop_length]

/-- A binding that is refused tells nothing. -/
theorem events_add_refused {s : Scope} {text : String} {value? : Option Value} {hint : RangeHint}
    {e : BindError} (h : result ⟨s, .add text value? hint⟩ = .error e) :
    events ⟨s, .add text value? hint⟩ = [] :=
  events_eq_nil (after_add_of_error h)

/-- A vivifying read that is refused tells nothing. -/
theorem events_vivify_refused {s : Scope} {text : String} {e : BindError}
    (h : result ⟨s, .vivify text⟩ = .error e) : events ⟨s, .vivify text⟩ = [] :=
  events_eq_nil (after_vivify_of_error h)

/-- A removal that is refused for its spec tells nothing. -/
theorem events_remove_invalid {s : Scope} {text bad : String}
    (h : result ⟨s, .remove text⟩ = .error (.invalidSpec bad)) :
    events ⟨s, .remove text⟩ = [] := by
  apply events_eq_nil
  show after ⟨s, .remove text⟩ = s
  rw [result_remove, Scope.remove_run] at h
  rw [after_remove, Scope.remove_run]
  cases hp : Spec.parse text with
  | error e => rfl
  | ok spec =>
      simp only [hp] at h
      cases hr : (s.emptied spec).renew (s.keep spec).1 with
      | ok a t =>
          rw [hr] at h
          cases h
      | error e t =>
          rw [hr] at h
          exact absurd (by cases h; rfl) (Scope.renew_not_invalidSpec _ hr bad)

end Step

/-! ### Whole runs -/

/-- A run that is not edited tells a journal by the events of its steps. -/
theorem Run.tells {s t : Scope} {steps : List Step} (run : Run (fun _ => False) s steps t) :
    t.space.ident = s.space.ident ∧
      Journal s.space.ident s.table.outlines (steps.flatMap Step.events) t.table.outlines := by
  induction run with
  | start => exact ⟨rfl, .nil _⟩
  | @step t steps run operation ih =>
      obtain ⟨hident, hjournal⟩ := ih
      obtain ⟨hident', -, hjournal'⟩ := Step.tells ⟨t, operation⟩
      refine ⟨hident'.trans hident, ?_⟩
      rw [List.flatMap_append, List.flatMap_singleton]
      rw [hident] at hjournal'
      exact hjournal.append hjournal'
  | edit _ edit he => exact he.elim
  | elsewhere _ world ih => exact ih

/--
**The events are a faithful journal.**  From any table, after any steps that are not
interrupted by edits, to replay the events of the steps on the outlines at the start
gives the outlines at the end.  A stub is announced as discarded right before each
binding that finds one and does not keep it, and nowhere else.  Every step only adds to
the trace, and a refused binding or vivifying read, or a removal of a spec that does not
read, adds nothing.
-/
theorem replay_events_of_run {s t : Scope} {steps : List Step}
    (run : Run (fun _ => False) s steps t) :
    Event.replayAll s.space.ident s.table.outlines (steps.flatMap Step.events)
        = t.table.outlines ∧
      (∀ earlier spec installed later,
        steps.flatMap Step.events
            = earlier ++ .bound s.space.ident spec installed false :: later →
        Event.replayAll s.space.ident s.table.outlines earlier spec.name = some .stub →
        ∃ start raw, earlier = start ++ [.stubDiscarded spec.name raw]) ∧
      (∀ earlier name raw later,
        steps.flatMap Step.events = earlier ++ .stubDiscarded name raw :: later →
        Event.replayAll s.space.ident s.table.outlines earlier name = some .stub ∧
          ∃ spec installed rest, spec.name = name ∧
            later = .bound s.space.ident spec installed false :: rest) ∧
      ∀ step ∈ steps,
        step.after.world.trace.toList = step.before.world.trace.toList ++ step.events ∧
        (∀ e text, step.result = .error e →
          (∃ value? hint, step.operation = .add text value? hint) ∨
            step.operation = .vivify text → step.events = []) ∧
        (∀ text bad, step.operation = .remove text →
          step.result = .error (.invalidSpec bad) → step.events = []) := by
  obtain ⟨-, hjournal⟩ := run.tells
  refine ⟨hjournal.replayAll, hjournal.discarded_before, hjournal.bound_after, ?_⟩
  rintro ⟨before, operation⟩ -
  refine ⟨(Step.tells _).2.1, ?_, ?_⟩
  · rintro e text he (⟨value?, hint, rfl⟩ | rfl)
    · exact Step.events_add_refused he
    · exact Step.events_vivify_refused he
  · rintro text bad rfl he
    exact Step.events_remove_invalid he

/-- A stub gives way to a scalar, which a removal takes from its sibling. -/
theorem replay_discarded_stub :
    ∃ steps t, Run (fun _ => False)
        ⟨⟨"main", (∅ : SymbolTable).insert "x" (.stub (.int 1)), ⟨0⟩⟩, {}⟩ steps t ∧
      steps.flatMap Step.events =
        [.stubDiscarded "x" "1", .bound "main" ⟨"x", .scalar⟩ true false,
          .bound "main" ⟨"x", .sequence⟩ true false, .removingKind "main" ⟨"x", .scalar⟩ 1,
          .nameRemoved "main" "x" true, .bound "main" ⟨"x", .sequence⟩ true false] ∧
      t.table.outlines "x" = some (.kinds {.sequence}) := by
  have run := (Run.start : Run (fun _ => False)
      ⟨⟨"main", (∅ : SymbolTable).insert "x" (.stub (.int 1)), ⟨0⟩⟩, {}⟩ [] _)
    |>.step (.add "$x" (some (.int 2)) {}) |>.step (.add "@x" none {}) |>.step (.remove "$x")
  refine ⟨_, _, run, rfl, ?_⟩
  rw [← (replay_events_of_run run).1]
  rfl

end Bindery
