/-
Whose definition a registry holds.

A registry keeps the place of a callable under its qualified name alone.  In a session in
which nothing but bound callables is emitted, and callables are given under unqualified
names only, that is enough to know it by: what the registry holds under the qualified name
of a callable is the place that was last reported to it of that callable in that namespace,
whatever else is defined in other namespaces, realms and under other debuggers.

In such a session what a turn sends is what it reports, at most one place.  So the
registry, which is the log of what was sent, is the log of the reports, and of two reports
under one qualified name both are of one callable.
-/
import Bindery.Proofs.Host.Session
import Bindery.Proofs.Qualified

namespace Bindery

/-! ### What debuggers send -/

/-- The sink that a debugger sends places to as it is: the one it has, if it is on. -/
def Debugger.listener? (debugger : Debugger) : Option Sink :=
  if debugger.enabled then debugger.sink? else none

/-- A place that is not handed over is sent once, to the sink that listens. -/
theorem Debugging.sendings_of_not_handOver (g : Debugging) (d : DebuggerId) (name : String)
    (range : SourceRange) (h : ∀ r, (g.debugger d).listener? ≠ some (.handOver r)) :
    g.sendings d name range
      = ((g.debugger d).listener?.map fun sink => ⟨sink, name, range⟩).toList := by
  unfold sendings
  generalize g.debugger d = debugger at h ⊢
  obtain ⟨enabled, sink?⟩ := debugger
  cases enabled with
  | false => rfl
  | true =>
      cases sink? with
      | none => rfl
      | some sink =>
          cases sink with
          | handOver r => exact absurd rfl (h r)
          | _ => rfl

/-! ### Reports -/

/-- A callable of a namespace, as its debugger tells a sink where it is bound. -/
structure Report where
  ident : String
  name : String
  range : SourceRange
  sink : Sink

namespace Report

/-- What is sent to the sink. -/
def sending (report : Report) : Sending :=
  ⟨report.sink, qualify report.ident report.name, report.range⟩

/-- A report is of a callable of a namespace, and kept in a registry. -/
def Of (r : RegistryId) (ident name : String) (report : Report) : Prop :=
  report.sink.keeper? = some r ∧ report.ident = ident ∧ report.name = name

instance (r : RegistryId) (ident name : String) : DecidablePred (Of r ident name) :=
  fun _ => inferInstanceAs (Decidable (_ ∧ _))

/-- Of unqualified names, a registry knows the reports of a callable by its qualified name. -/
theorem of_iff {report : Report} (hreport : Unqualified report.name) {name : String}
    (hname : Unqualified name) (r : RegistryId) (ident : String) :
    report.Of r ident name ↔
      report.sending.sink.keeper? = some r ∧ report.sending.name = qualify ident name := by
  constructor
  · rintro ⟨hkeeper, rfl, rfl⟩
    exact ⟨hkeeper, rfl⟩
  · rintro ⟨hkeeper, hqualified⟩
    exact ⟨hkeeper, hreport.qualify_inj hname hqualified⟩

end Report

namespace Host

/-- What is reported if a callable is given to the namespace of a handle and bound. -/
def report? (host : Host) (handle text : String) (hint : RangeHint) : Option Report :=
  match Spec.parse text, host.spaceOf? handle with
  | .ok ⟨name, .callable⟩, some space =>
    (host.world.debugging.debugger space.debugger).listener?.map fun sink =>
      ⟨space.ident, name, hint.resolve, sink⟩
  | _, _ => none

namespace Turn

/-- What is reported in a turn: a callable that is given and bound. -/
def report? (turn : Turn) : Option Report :=
  match turn.outcome.result, turn.command with
  | .ok _, .operation handle (.add text (some _) hint) => turn.before.report? handle text hint
  | _, _ => none

/-- A place is emitted directly: a host asks for it, or a sink that hands over does it. -/
def EmitsDirectly (turn : Turn) : Prop :=
  (∃ which name hint, turn.command = .debugging (.emit which name hint)) ∨
    ∃ report r, turn.report? = some report ∧ report.sink = .handOver r

/-- A callable that is given in a turn is given under an unqualified name. -/
def GivesUnqualified (turn : Turn) : Prop :=
  ∀ handle text value hint name,
    turn.command = .operation handle (.add text (some value) hint) →
      Spec.parse text = .ok ⟨name, .callable⟩ → Unqualified name

end Turn

/-- What is sent when a callable is given and bound is what is reported, unless it is handed over. -/
theorem sendings_eq_report (host : Host) (handle text : String) (value : Expr) (hint : RangeHint)
    (h : ∀ report r, host.report? handle text hint = some report → report.sink ≠ .handOver r) :
    host.sendings (.operation handle (.add text (some value) hint))
      = ((host.report? handle text hint).map Report.sending).toList := by
  unfold report? at h ⊢
  simp only [sendings, definitionSendings]
  cases hparse : Spec.parse text with
  | error e => rfl
  | ok spec =>
      obtain ⟨name, kind⟩ := spec
      cases kind with
      | callable =>
          cases hspace : host.spaceOf? handle with
          | none => rfl
          | some space =>
              simp only [hparse, hspace] at h ⊢
              have hover : ∀ r, (host.world.debugging.debugger space.debugger).listener?
                  ≠ some (.handOver r) := by
                intro r hlistener
                exact h _ r (by rw [hlistener]; rfl) rfl
              rw [Debugging.sendings_of_not_handOver _ _ _ _ hover, Option.map_map]
              rfl
      | _ => rfl

namespace Turn

/-- **A turn that emits nothing directly sends what it reports.** -/
theorem sendings_eq_reports {turn : Turn} (h : ¬ turn.EmitsDirectly) :
    turn.sendings = (turn.report?.map Report.sending).toList := by
  have hemit : ∀ which name hint, turn.command ≠ .debugging (.emit which name hint) :=
    fun which name hint hcommand => h (.inl ⟨which, name, hint, hcommand⟩)
  have hover : ∀ report r, turn.report? = some report → report.sink ≠ .handOver r :=
    fun report r hreport hsink => h (.inr ⟨report, r, hreport, hsink⟩)
  obtain ⟨before, command, register?⟩ := turn
  unfold sendings report? at *
  cases hresult : (Turn.outcome ⟨before, command, register?⟩).result with
  | error e => rfl
  | ok answer =>
      rw [hresult] at hover
      cases command with
      | operation handle operation =>
          cases operation with
          | add text value? hint =>
              cases value? with
              | some value => exact sendings_eq_report before handle text value hint hover
              | none => rfl
          | _ => rfl
      | debugging command =>
          cases command with
          | emit which name hint => exact absurd rfl (hemit which name hint)
          | _ => rfl
      | _ => rfl

end Turn

namespace Session

variable {turns : List Turn} {host : Host}

/-- **In a session without direct emissions a registry is the log of the reports.** -/
theorem lookup_reports (session : Session turns host)
    (hindirect : ∀ turn ∈ turns, ¬ turn.EmitsDirectly) (r : RegistryId) (qualified : String) :
    (host.world.debugging.registry r)[qualified]?
      = ((turns.filterMap Turn.report?).filter fun report =>
          report.sending.sink.keeper? = some r ∧ report.sending.name = qualified).getLast?.map
            Report.range := by
  have hsent : turns.flatMap Turn.sendings
      = (turns.filterMap Turn.report?).map Report.sending := by
    rw [List.map_filterMap, List.filterMap_eq_flatMap_toList]
    exact List.flatMap_congr fun turn hturn => Turn.sendings_eq_reports (hindirect turn hturn)
  rw [session.invariant.2, Registry.lookup_foldl_receive, hsent, Sending.keptIn,
    List.filter_filter, List.filter_map, List.getLast?_map, Option.map_map]
  refine congrArg (fun kept : List Report => kept.getLast?.map Report.range) ?_
  exact List.filter_congr fun report _ => by simp [and_comm]

end Session

namespace Turn

/-- A report is of the callable that is given. -/
theorem unqualified_of_report {turn : Turn} (h : turn.GivesUnqualified) {report : Report}
    (hreport : turn.report? = some report) : Unqualified report.name := by
  unfold report? at hreport
  split at hreport
  · rename_i handle text value hint _ hcommand
    unfold Host.report? at hreport
    split at hreport
    · rename_i name space hparse _
      obtain ⟨sink, -, rfl⟩ := Option.map_eq_some_iff.mp hreport
      exact h handle text value hint name hcommand hparse
    · cases hreport
  · cases hreport

end Turn

/--
**Qualified names identify definitions, except for colons in bare names.**  Qualified names
of unqualified names are the same only if the namespaces and the names are; any other bare
name is taken for one in another namespace.  In every session in which no place is emitted
directly and callables are given under unqualified names only, all that is reported under
the qualified name of such a name is of that callable in that namespace, and a registry
holds, under that qualified name, the place that was reported to it last.
-/
theorem definitions_identified :
    (∀ ident ident' name name', Unqualified name → Unqualified name' →
      qualify ident name = qualify ident' name' → ident = ident' ∧ name = name') ∧
    (∀ ident name, ¬ Unqualified name → ∃ ident' name',
      ident' ≠ ident ∧ qualify ident' name' = qualify ident name) ∧
    ∀ {turns : List Turn} {host : Host}, Session turns host →
      (∀ turn ∈ turns, ¬ turn.EmitsDirectly) → (∀ turn ∈ turns, turn.GivesUnqualified) →
      ∀ ident name, Unqualified name →
        (∀ turn ∈ turns, ∀ report, turn.report? = some report →
          qualify report.ident report.name = qualify ident name →
            report.ident = ident ∧ report.name = name) ∧
        ∀ r, (host.world.debugging.registry r)[qualify ident name]?
          = ((turns.filterMap Turn.report?).filter (·.Of r ident name)).getLast?.map
              Report.range := by
  refine ⟨fun _ _ _ _ h h' => h.qualify_inj h', ?confused, ?recorded⟩
  case confused =>
    intro ident name h
    obtain ⟨ident', name', hlonger, heq⟩ := qualify_of_not_unqualified h ident
    refine ⟨ident', name', ?_, heq⟩
    rintro rfl
    exact Nat.lt_irrefl _ hlonger
  case recorded =>
    intro turns host session hindirect hgives ident name hname
    have hunqualified : ∀ report ∈ turns.filterMap Turn.report?, Unqualified report.name := by
      intro report hreport
      obtain ⟨turn, hturn, hsome⟩ := List.mem_filterMap.mp hreport
      exact Turn.unqualified_of_report (hgives turn hturn) hsome
    refine ⟨?_, ?_⟩
    · intro turn hturn report hreport
      exact (hunqualified report (List.mem_filterMap.mpr ⟨turn, hturn, hreport⟩)).qualify_inj hname
    · intro r
      rw [session.lookup_reports hindirect]
      congr 2
      refine List.filter_congr fun report hreport => ?_
      exact decide_eq_decide.mpr (Report.of_iff (hunqualified report hreport) hname r ident).symm

/--
The callable `f` of `A`, given anew, leaves that of `A::B` where it was reported.  A callable
`B::f` of `A` would not.
-/
theorem nested_definitions_identified :
    qualify "A" "f" ≠ qualify "A::B" "f" ∧
    (¬ Unqualified "B::f" ∧
      ∃ ident' name', ident' ≠ "A" ∧ qualify ident' name' = qualify "A" "B::f") ∧
    ∃ turns host, Session turns host ∧
      turns.map Turn.command =
        [.operation "main" (.add "&f" (some (.builtin .firstArgument)) { first? := some 7 }),
          .realm (.openSpace "inner" "r" "A::B"),
          .operation "inner" (.add "&f" (some (.builtin .firstArgument)) { first? := some 9 }),
          .operation "main" (.add "&f" (some (.builtin .firstArgument)) { first? := some 8 })] ∧
      (∀ turn ∈ turns, ¬ turn.EmitsDirectly) ∧ (∀ turn ∈ turns, turn.GivesUnqualified) ∧
      Unqualified "f" ∧
      (host.world.debugging.registry ⟨0⟩)[qualify "A::B" "f"]? = some ⟨"<caller>", 9, 9⟩ ∧
      (host.world.debugging.registry ⟨0⟩)[qualify "A" "f"]? = some ⟨"<caller>", 8, 8⟩ := by
  obtain ⟨htold, hconfused, hrecorded⟩ := definitions_identified
  have hf : Unqualified "f" := ⟨by decide, by decide⟩
  have hBf : ¬ Unqualified "B::f" := fun h => h.noQualifier (by decide)
  refine ⟨fun heq => absurd (htold _ _ _ _ hf hf heq).1 (by decide), ⟨hBf, hconfused "A" _ hBf⟩, ?_⟩
  have session := (Session.start { debug := true } "A")
    |>.turn (.operation "main"
      (.add "&f" (some (.builtin .firstArgument)) { first? := some 7 })) none
    |>.turn (.realm (.openSpace "inner" "r" "A::B")) none
    |>.turn (.operation "inner"
      (.add "&f" (some (.builtin .firstArgument)) { first? := some 9 })) none
    |>.turn (.operation "main"
      (.add "&f" (some (.builtin .firstArgument)) { first? := some 8 })) none
  refine ⟨_, _, session, rfl, ?indirect, ?gives, hf,
    ((hrecorded session ?indirect ?gives "A::B" "f" hf).2 ⟨0⟩).trans ?_,
    ((hrecorded session ?indirect ?gives "A" "f" hf).2 ⟨0⟩).trans ?_⟩
  case indirect =>
    simp only [List.nil_append, List.cons_append, List.forall_mem_cons]
    refine ⟨?_, ?_, ?_, ?_, List.forall_mem_nil _⟩ <;> rintro (⟨_, _, _, ⟨⟩⟩ | ⟨_, _, ⟨⟩, ⟨⟩⟩)
  case gives =>
    simp only [List.nil_append, List.cons_append, List.forall_mem_cons]
    refine ⟨?_, ?_, ?_, ?_, List.forall_mem_nil _⟩ <;> rintro _ _ _ _ _ ⟨⟩ ⟨⟩ <;> exact hf
  all_goals decide +kernel

end Host

end Bindery
