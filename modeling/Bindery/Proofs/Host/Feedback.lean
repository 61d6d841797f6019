/-
Debugging never feeds back.

Two courses are asked the same, but for the settings of realms, the debuggers of namespaces
and the places that are stated of callables; and in each of them debuggers may be turned on
and off, given sinks and asked to emit, at any time.  Then all that is asked of both is
answered in the same way, and all that the hosts know stays alike.

A course is taken apart at its first turn that is not about debugging: the turns before it
change nothing else, so that the hosts are still alike when the two turns meet.
-/
import Bindery.Proofs.Host.Course

namespace Bindery.Host

/-! ### Between turns -/

/-- Two hosts between turns are alike: their events are taken out. -/
structure Level (host host' : Host) : Prop where
  alike : host.Alike host'
  quiet : host.world.trace = #[]
  quiet' : host'.world.trace = #[]

/-- Two hosts that are alike have the same tables. -/
theorem Alike.table {host host' : Host} (h : host.Alike host') (handle : String) :
    (host.spaceOf? handle).map Namespace.table = (host'.spaceOf? handle).map Namespace.table := by
  rcases rel_cases (h.spaceOf? handle) with ⟨hs, hs'⟩ | ⟨space, space', hs, hs', hspace⟩
  · rw [hs, hs']
  · rw [hs, hs', Option.map_some, Option.map_some, hspace.table]

/-- What went the same way comes to the same, once the events are taken out. -/
theorem attempt_parallel {α : Type} {act act' : Action α} {host host' : Host}
    (h : Parallel Alike Eq (act host) (act' host')) :
    (attempt act host).result = (attempt act' host').result ∧
      Event.plain (attempt act host).events = Event.plain (attempt act' host').events ∧
      Level (attempt act host).host (attempt act' host').host := by
  have htaken {after after' : Host} (hafter : after.Alike after') :
      Level { after with world := { after.world with trace := #[] } }
        { after' with world := { after'.world with trace := #[] } } :=
    ⟨hafter.setWorld ⟨hafter.heap, rfl⟩, rfl, rfl⟩
  unfold attempt
  rcases h.cases with ⟨answer, _, after, after', hact, hact', rfl, hafter⟩ |
    ⟨e, after, after', hact, hact', hafter⟩
  · rw [hact, hact']
    exact ⟨rfl, hafter.world.told, htaken hafter⟩
  · rw [hact, hact']
    exact ⟨rfl, hafter.world.told, htaken hafter⟩

/-- Hosts that are begun with a first realm are alike, whatever the settings of the realm. -/
theorem parallel_start (settings settings' : Settings) (ident : String) :
    Parallel Alike Eq (Host.start settings ident {}) (Host.start settings' ident {}) := by
  have hstart : Abreast Alike Eq (Host.start settings ident) (Host.start settings' ident) :=
    (abreast_newRealm "r" settings settings').bind_eq fun _ =>
      (abreast_openSpace "main" "r" ident).map fun _ _ _ => rfl
  exact hstart {} {} (.refl {})

/-! ### Turns -/

namespace Turn

/-- What is asked in a turn is not about debugging. -/
def isPlain (turn : Turn) : Bool :=
  !turn.command.isDebugging

/-- In two turns the same is asked, and the debuggers that are stated are there. -/
structure Twin (turn turn' : Turn) : Prop where
  command : turn.command.Twin turn'.command
  register? : turn.register? = turn'.register?
  knows : turn.before.Knows turn.command
  knows' : turn'.before.Knows turn'.command

/-- Two turns come to the same, but for debugging. -/
structure Agree (turn turn' : Turn) : Prop where
  before : turn.before.Alike turn'.before
  result : turn.outcome.result = turn'.outcome.result
  events : Event.plain turn.outcome.events = Event.plain turn'.outcome.events
  after : turn.outcome.host.Alike turn'.outcome.host
  table : ∀ handle, (turn.outcome.host.spaceOf? handle).map Namespace.table
    = (turn'.outcome.host.spaceOf? handle).map Namespace.table

/-- A turn changes and tells of nothing but debugging. -/
structure Silent (turn : Turn) : Prop where
  beside : turn.before.Beside turn.outcome.host
  events : Event.plain turn.outcome.events = []

theorem quiet (turn : Turn) : turn.outcome.host.world.trace = #[] := by
  rw [outcome, attempt_host]

/-- **Turns in which the same is asked come to the same.** -/
theorem Twin.agree {turn turn' : Turn} (htwin : turn.Twin turn')
    (h : turn.before.Alike turn'.before) : turn.Agree turn' := by
  have hstep := parallel_step htwin.command turn.register? h htwin.knows htwin.knows'
  obtain ⟨hresult, hevents, hlevel⟩ := attempt_parallel hstep
  have houtcome' : turn'.outcome = attempt (step turn'.command turn.register?) turn'.before := by
    rw [outcome, htwin.register?]
  rw [← houtcome'] at hresult hevents hlevel
  exact ⟨h, hresult, hevents, hlevel.alike, hlevel.alike.table⟩

/-- **A turn about debugging is told and known by nothing else.** -/
theorem silent {turn : Turn} (hquiet : turn.before.world.trace = #[])
    (hdebugging : turn.isPlain = false) : turn.Silent := by
  obtain ⟨before, command, register?⟩ := turn
  cases command with
  | debugging command =>
      have hbeside := step_debugging command register? before
      refine ⟨?_, ?_⟩
      · rw [outcome, attempt_host]
        exact ⟨⟨hbeside.world.heap, by rw [hquiet]⟩, hbeside.realms, hbeside.seats,
          hbeside.registers, hbeside.tables⟩
      · rw [outcome, attempt_events, ← hbeside.world.told, hquiet]
        rfl
  | _ => cases hdebugging

end Turn

/-! ### Courses -/

namespace Course

variable {host last : Host} {turns : List Turn}

/-- Every turn of a course from a host between turns is asked of a host between turns. -/
theorem before_quiet (course : Course host turns last) (hquiet : host.world.trace = #[]) :
    ∀ turn ∈ turns, turn.before.world.trace = #[] := by
  induction course with
  | done host => simp
  | turn turn _ ih =>
      rintro other (_ | ⟨_, hother⟩)
      · exact hquiet
      · exact ih turn.quiet other hother

/--
A course is about debugging to its end, or up to a first turn that is not; so far nothing
else is changed.
-/
theorem lead (course : Course host turns last) (hquiet : host.world.trace = #[]) :
    (turns.filter Turn.isPlain = [] ∧ host.Beside last ∧ last.world.trace = #[]) ∨
      ∃ turn rest, turns.filter Turn.isPlain = turn :: rest.filter Turn.isPlain ∧
        host.Beside turn.before ∧ Course turn.outcome.host rest last := by
  induction course with
  | done host => exact Or.inl ⟨rfl, .refl host, hquiet⟩
  | @turn turn turns last rest ih =>
      cases hplain : turn.isPlain with
      | true => exact Or.inr ⟨turn, turns, by rw [List.filter_cons_of_pos hplain], .refl _, rest⟩
      | false =>
          have hsilent := Turn.silent hquiet hplain
          rw [List.filter_cons_of_neg (by simp [hplain])]
          rcases ih turn.quiet with ⟨hnone, hlast, hend⟩ | ⟨next, later, hnext, hbefore, hcourse⟩
          · exact Or.inl ⟨hnone, hsilent.beside.trans hlast, hend⟩
          · exact Or.inr ⟨next, later, hnext, hsilent.beside.trans hbefore, hcourse⟩

/-- Courses in which the same is asked, apart from debugging, agree in all of it. -/
theorem agree {host' last' : Host} {turns' : List Turn} (course : Course host turns last)
    (course' : Course host' turns' last') (hlevel : host.Level host')
    (htwin : List.Forall₂ Turn.Twin (turns.filter Turn.isPlain) (turns'.filter Turn.isPlain)) :
    List.Forall₂ Turn.Agree (turns.filter Turn.isPlain) (turns'.filter Turn.isPlain) ∧
      last.Level last' := by
  -- The two lists of turns differ in length; what both have is the list of the plain ones.
  generalize hplain : turns.filter Turn.isPlain = plain at htwin ⊢
  generalize hplain' : turns'.filter Turn.isPlain = plain' at htwin ⊢
  induction htwin generalizing host host' turns turns' with
  | nil =>
      rcases course.lead hlevel.quiet with ⟨-, hlast, hend⟩ | ⟨turn, rest, hfirst, -, -⟩
      · rcases course'.lead hlevel.quiet' with ⟨-, hlast', hend'⟩ | ⟨turn', rest', hfirst', -, -⟩
        · exact ⟨.nil, hlevel.alike.beside hlast hlast', hend, hend'⟩
        · rw [hfirst'] at hplain'
          cases hplain'
      · rw [hfirst] at hplain
        cases hplain
  | @cons turn turn' plain plain' hturn _ ih =>
      rcases course.lead hlevel.quiet with ⟨hnone, -, -⟩ | ⟨_, rest, hfirst, hbefore, hcourse⟩
      · rw [hnone] at hplain
        cases hplain
      · rcases course'.lead hlevel.quiet' with
          ⟨hnone', -, -⟩ | ⟨_, rest', hfirst', hbefore', hcourse'⟩
        · rw [hnone'] at hplain'
          cases hplain'
        · rw [hfirst] at hplain
          rw [hfirst'] at hplain'
          cases hplain
          cases hplain'
          have hagree := hturn.agree (hlevel.alike.beside hbefore hbefore')
          have hnext : turn.outcome.host.Level turn'.outcome.host :=
            ⟨hagree.after, turn.quiet, turn'.quiet⟩
          obtain ⟨hrest, hlast⟩ := ih hcourse hcourse' hnext rfl rfl
          exact ⟨.cons hagree hrest, hlast⟩

end Course

/--
**Debugging never feeds back.**  Hosts that are begun with different settings are alike, and
so are two hosts that are both begun empty.  From hosts that are alike let two courses be
asked the same, apart from what is about debugging, which each of them may be asked at any
time; realms may be given different settings, namespaces different debuggers, and callables
different places.  Then every answer and every error is the same, every event is the same
apart from those of debugging, and whatever is known, with every table, is alike before and
after each turn.  What is about debugging changes nothing but debugging, and tells of
nothing else.
-/
theorem debugging_never_feeds_back :
    (∀ (settings settings' : Settings) (ident : String),
      (attempt (Host.start settings ident) {}).result
        = (attempt (Host.start settings' ident) {}).result ∧
      Event.plain (attempt (Host.start settings ident) {}).events
        = Event.plain (attempt (Host.start settings' ident) {}).events ∧
      Level (attempt (Host.start settings ident) {}).host
        (attempt (Host.start settings' ident) {}).host) ∧
    Level {} {} ∧
    ∀ {host host' last last' : Host} {turns turns' : List Turn},
      Course host turns last → Course host' turns' last' → host.Level host' →
      List.Forall₂ Turn.Twin (turns.filter Turn.isPlain) (turns'.filter Turn.isPlain) →
        List.Forall₂ Turn.Agree (turns.filter Turn.isPlain) (turns'.filter Turn.isPlain) ∧
        (∀ turn ∈ turns ++ turns', turn.isPlain = false → turn.Silent) ∧
        last.Level last' := by
  refine ⟨?_, ⟨.refl {}, rfl, rfl⟩, ?_⟩
  · intro settings settings' ident
    exact attempt_parallel (parallel_start settings settings' ident)
  · intro host host' last last' turns turns' course course' hlevel htwin
    obtain ⟨hagree, hlast⟩ := course.agree course' hlevel htwin
    refine ⟨hagree, ?_, hlast⟩
    intro turn hturn hdebugging
    rcases List.mem_append.mp hturn with hturn | hturn
    · exact Turn.silent (course.before_quiet hlevel.quiet turn hturn) hdebugging
    · exact Turn.silent (course'.before_quiet hlevel.quiet' turn hturn) hdebugging

/--
Of two realms one has debugging on and its debugger is given a sink; in the other no place is
stated.  Only the first tells where the callable is from.
-/
theorem sink_not_answered :
    ∃ host host' turns turns' last last',
      host = (attempt (Host.start { debug := true } "main") {}).host ∧
      host' = (attempt (Host.start {} "main") {}).host ∧
      Course host turns last ∧ Course host' turns' last' ∧
      turns.map Turn.command =
        [.debugging (.setSink { realm := "r" } .announce),
          .operation "main" (.add "&f" (some (.builtin .firstArgument)) { first? := some 7 }),
          .debugging (.setEnabled { realm := "r" } false),
          .operation "main" (.remove "&f")] ∧
      turns'.map Turn.command =
        [.operation "main" (.add "&f" (some (.builtin .firstArgument)) {}),
          .operation "main" (.remove "&f")] ∧
      (turns.flatMap (·.outcome.events)).any Event.isAside = true ∧
      (turns'.flatMap (·.outcome.events)).any Event.isAside = false ∧
      List.Forall₂ Turn.Agree (turns.filter Turn.isPlain) (turns'.filter Turn.isPlain) := by
  have hstart := (debugging_never_feeds_back.1 { debug := true } {} "main").2.2
  have course := Course.turn
      ⟨(attempt (Host.start { debug := true } "main") {}).host,
        .debugging (.setSink { realm := "r" } .announce), none⟩ <|
    .turn ⟨_, .operation "main" (.add "&f" (some (.builtin .firstArgument)) { first? := some 7 }),
      none⟩ <|
    .turn ⟨_, .debugging (.setEnabled { realm := "r" } false), none⟩ <|
    .turn ⟨_, .operation "main" (.remove "&f"), none⟩ <| .done _
  have course' := Course.turn
      ⟨(attempt (Host.start {} "main") {}).host,
        .operation "main" (.add "&f" (some (.builtin .firstArgument)) {}), none⟩ <|
    .turn ⟨_, .operation "main" (.remove "&f"), none⟩ <| .done _
  have hagree := debugging_never_feeds_back.2.2 course course' hstart
    (.cons ⟨.operation _ (.placed _ _ _ _), rfl, trivial, trivial⟩
      (.cons ⟨.same rfl, rfl, trivial, trivial⟩ .nil))
  refine ⟨_, _, _, _, _, _, rfl, rfl, course, course', rfl, rfl, ?_, ?_, hagree.1⟩
  · rfl
  · rfl

end Bindery.Host
