/-
Runs of a namespace.

A step is an operation and the scope it is asked of; what is answered and what is
left behind follow from the two.  A run is any number of steps one after the other,
whether they succeed or fail.  Between two steps the world that the namespace shares
may become any other at all, since whoever holds the namespace does other things too,
and its table may be edited, if the run admits edits.

Each operation is given here by its outcome on a scope: what it answers or refuses,
and which scope it leaves.
-/
import Bindery.Namespace.Edit
import Bindery.Namespace.Operation
import Bindery.Proofs.Namespace.Read

namespace Bindery

namespace Scope

variable (s : Scope)

/-! ### Outcomes of the operations -/

theorem bind_run {spec : Spec} {value? : Option Value} (origin : Origin)
    (h : ∀ v, value? = some v → v.fits spec.kind = true) :
    (Scope.bind spec value? origin).run s = .ok () (s.place spec value? origin) := by
  unfold Scope.bind
  cases value? with
  | none => rfl
  | some value =>
      have hfit := h value rfl
      simp [hfit]

theorem bind_run_misfit {spec : Spec} {value : Value} (origin : Origin)
    (h : value.fits spec.kind = false) :
    (Scope.bind spec (some value) origin).run s
      = .error (.typeMismatch (s.qualify spec.name) spec.kind value.typeName) s := by
  unfold Scope.bind
  simp [h]

/-- A binding is made exactly when the value that is given fits. -/
theorem bind_refused {spec : Spec} {value? : Option Value} (origin : Origin)
    (h : ¬ ∀ v, value? = some v → v.fits spec.kind = true) :
    ∃ e, (Scope.bind spec value? origin).run s = .error e s := by
  cases value? with
  | none => exact absurd (by simp) h
  | some value =>
      have hmisfit : value.fits spec.kind = false := by
        rw [← Bool.not_eq_true]
        exact fun hfit => h (by simpa using hfit)
      exact ⟨_, s.bind_run_misfit origin hmisfit⟩

theorem parse_run (text : String) :
    (Scope.parse text).run s = match Spec.parse text with
      | .ok spec => .ok spec s
      | .error e => .error e s := by
  unfold Scope.parse
  cases Spec.parse text <;> rfl

theorem add_run (text : String) (value? : Option Value) (hint : RangeHint) :
    (Scope.add text value? hint).run s = match Spec.parse text with
      | .ok spec => (Scope.bind spec value? (.caller hint)).run s
      | .error e => .error e s := by
  unfold Scope.add
  rw [EStateM.run_bind, parse_run]
  cases Spec.parse text <;> rfl

theorem has_run (text : String) :
    (Scope.has text).run s = match Spec.parse text with
      | .ok spec => .ok (s.table.has spec) s
      | .error e => .error e s := by
  unfold Scope.has
  rw [EStateM.run_bind, parse_run]
  cases Spec.parse text <;> rfl

theorem find_run (text : String) :
    (Scope.find text).run s = match Spec.parse text with
      | .ok spec => .ok (s.lookup spec).1 (s.lookup spec).2
      | .error e => .error e s := by
  unfold Scope.find
  rw [EStateM.run_bind, parse_run]
  cases Spec.parse text <;> rfl

/-- The scope in which an absent binding is about to be made. -/
def vivifying (spec : Spec) : Scope :=
  (s.newEmpty spec.kind).2.log (.vivifying s.space.ident spec)

theorem vivify_run (text : String) :
    (Scope.vivify text).run s = match Spec.parse text with
      | .ok spec =>
        match s.table.reading? spec with
        | some reading => .ok (s.read spec reading).1 (s.read spec reading).2
        | none =>
          match (s.newEmpty spec.kind).1 with
          | some value => .ok value ((s.vivifying spec).place spec (some value) (.caller {}))
          | none => .error (.vivifyUnsupported (s.qualify spec.name)) s
      | .error e => .error e s := by
  unfold Scope.vivify
  rw [EStateM.run_bind, parse_run]
  cases Spec.parse text with
  | error e => rfl
  | ok spec =>
      simp only [EStateM.run_bind, EStateM.run_modifyGet, lookup_eq]
      cases s.table.reading? spec with
      | some reading => rfl
      | none =>
          simp only [EStateM.run_bind, EStateM.run_modifyGet]
          cases hv : (s.newEmpty spec.kind).1 with
          | none =>
              have hkind : spec.kind = .callable := s.newEmpty_eq_none_iff.mp hv
              have hs : (s.newEmpty spec.kind).2 = s := by
                rw [hkind]
                rfl
              simp only [hs]
              rfl
          | some value =>
              have hfit := s.fits_newEmpty hv
              simp only [EStateM.run_bind, EStateM.run_modify]
              rw [bind_run]
              · rfl
              · intro v hv'
                cases hv'
                exact hfit

/-- Where nothing is found the empty value is bound and given. -/
theorem vivify_run_absent {text : String} {spec : Spec} {value : Value}
    (hp : Spec.parse text = .ok spec) (habsent : s.table.reading? spec = none)
    (hmade : (s.newEmpty spec.kind).1 = some value) :
    (Scope.vivify text).run s
      = .ok value ((s.vivifying spec).place spec (some value) (.caller {})) := by
  rw [vivify_run, hp]
  simp only [habsent, hmade]

/-- Bindings made again one after the other, up to the first that does not fit. -/
def renew (s : Scope) : List (Spec × Value) → EStateM.Result BindError Scope Unit
  | [] => .ok () s
  | (spec, value) :: rest =>
    if value.fits spec.kind then renew (s.place spec (some value) .renewal) rest
    else .error (.typeMismatch (s.qualify spec.name) spec.kind value.typeName) s

theorem forM_run (kept : List (Spec × Value)) :
    (kept.forM fun pair => Scope.bind pair.1 (some pair.2) .renewal).run s = s.renew kept := by
  induction kept generalizing s with
  | nil => rfl
  | cons pair rest ih =>
      show (Scope.bind pair.1 (some pair.2) .renewal >>= fun _ => rest.forM _).run s = _
      rw [EStateM.run_bind, renew]
      cases hfit : pair.2.fits pair.1.kind with
      | true =>
          rw [bind_run _ _ (by simpa using hfit), if_pos rfl]
          exact ih _
      | false =>
          rw [bind_run_misfit _ _ hfit, if_neg Bool.false_ne_true]

/-- Bindings that fit are all made again. -/
theorem renew_ok {pairs : List (Spec × Value)}
    (h : ∀ pair ∈ pairs, pair.2.fits pair.1.kind = true) :
    ∃ t, s.renew pairs = .ok () t ∧ t.table = s.table.boundAll pairs := by
  induction pairs generalizing s with
  | nil => exact ⟨s, rfl, rfl⟩
  | cons pair rest ih =>
      obtain ⟨t, ht, htable⟩ := ih (s.place pair.1 (some pair.2) .renewal)
        (fun q hq => h q (by simp [hq]))
      refine ⟨t, ?_, ?_⟩
      · rw [renew, if_pos (h pair (by simp)), ht]
      · rw [htable, table_place]
        rfl

/-- What stops bindings from being made again is a value that does not fit. -/
theorem renew_not_invalidSpec {pairs : List (Spec × Value)} {e : BindError} {t : Scope}
    (h : s.renew pairs = .error e t) (bad : String) : e ≠ .invalidSpec bad := by
  induction pairs generalizing s with
  | nil => cases h
  | cons pair rest ih =>
      unfold renew at h
      split at h
      · exact ih _ h
      · cases h
        rintro ⟨⟩

/-- The siblings that a removal keeps, with their values, and the scope after they are read. -/
def keep (spec : Spec) : List (Spec × Value) × Scope :=
  s.readAll (s.table.readings (s.table.siblingsOf spec))

/-- The scope in which a removal has taken the entry away. -/
def emptied (spec : Spec) : Scope :=
  let (kept, t) := s.keep spec
  ((t.log (.removingKind t.space.ident spec kept.length)).drop spec.name).2

theorem remove_run (text : String) :
    (Scope.remove text).run s = match Spec.parse text with
      | .ok spec => (s.emptied spec).renew (s.keep spec).1
      | .error e => .error e s := by
  unfold Scope.remove
  rw [EStateM.run_bind, parse_run]
  cases Spec.parse text with
  | error e => rfl
  | ok spec =>
      simp only [← forM_run]
      rfl

end Scope

/-! ### Steps -/

/-- The scope that an outcome leaves behind. -/
def Scope.left {α : Type} : EStateM.Result BindError Scope α → Scope
  | .ok _ s => s
  | .error _ s => s

/-- What an outcome answers, or why it refuses. -/
def Scope.answer {α : Type} : EStateM.Result BindError Scope α → Except BindError α
  | .ok a _ => .ok a
  | .error e _ => .error e

/-- An operation and the scope it is asked of. -/
structure Step where
  before : Scope
  operation : Operation Value

namespace Step

/-- What is answered, or why the operation is refused. -/
def result (step : Step) : Except BindError Reply :=
  Scope.answer (step.operation.perform.run step.before)

/-- The scope that is left behind. -/
def after (step : Step) : Scope :=
  Scope.left (step.operation.perform.run step.before)

variable (s : Scope)

theorem left_reply {α β : Type} (act : Scope.Action α) (reply : α → β) :
    Scope.left ((act >>= fun a => pure (reply a)).run s) = Scope.left (act.run s) := by
  rw [EStateM.run_bind]
  cases act.run s <;> rfl

theorem answer_reply {α β : Type} (act : Scope.Action α) (reply : α → β) :
    Scope.answer ((act >>= fun a => pure (reply a)).run s)
      = (Scope.answer (act.run s)).map reply := by
  rw [EStateM.run_bind]
  cases act.run s <;> rfl

theorem after_add (text : String) (value? : Option Value) (hint : RangeHint) :
    after ⟨s, .add text value? hint⟩ = Scope.left ((Scope.add text value? hint).run s) :=
  left_reply s _ fun _ => Reply.done

theorem after_has (text : String) :
    after ⟨s, .has text⟩ = Scope.left ((Scope.has text).run s) :=
  left_reply s _ Reply.answer

theorem after_find (text : String) :
    after ⟨s, .find text⟩ = Scope.left ((Scope.find text).run s) :=
  left_reply s _ Reply.value

theorem after_vivify (text : String) :
    after ⟨s, .vivify text⟩ = Scope.left ((Scope.vivify text).run s) :=
  left_reply s _ fun value => Reply.value (some value)

theorem after_remove (text : String) :
    after ⟨s, .remove text⟩ = Scope.left ((Scope.remove text).run s) :=
  left_reply s _ fun _ => Reply.done

theorem result_add (text : String) (value? : Option Value) (hint : RangeHint) :
    result ⟨s, .add text value? hint⟩
      = (Scope.answer ((Scope.add text value? hint).run s)).map fun _ => .done :=
  answer_reply s _ _

theorem result_has (text : String) :
    result ⟨s, .has text⟩ = (Scope.answer ((Scope.has text).run s)).map .answer :=
  answer_reply s _ _

theorem result_find (text : String) :
    result ⟨s, .find text⟩ = (Scope.answer ((Scope.find text).run s)).map .value :=
  answer_reply s _ _

theorem result_vivify (text : String) :
    result ⟨s, .vivify text⟩
      = (Scope.answer ((Scope.vivify text).run s)).map fun value => .value (some value) :=
  answer_reply s _ _

theorem result_remove (text : String) :
    result ⟨s, .remove text⟩ = (Scope.answer ((Scope.remove text).run s)).map fun _ => .done :=
  answer_reply s _ _

section Add

variable {s : Scope} {text : String} {spec : Spec} (hp : Spec.parse text = .ok spec)
include hp

/-- A value that fits, or none, is bound. -/
theorem add_of_fits (value? : Option Value) (hint : RangeHint)
    (hfit : ∀ v, value? = some v → v.fits spec.kind = true) :
    result ⟨s, .add text value? hint⟩ = .ok .done ∧
      after ⟨s, .add text value? hint⟩ = s.place spec value? (.caller hint) := by
  rw [result_add, after_add, Scope.add_run, hp]
  simp only [Scope.bind_run _ _ hfit]
  exact ⟨rfl, rfl⟩

/-- A value that does not fit is refused, and nothing happens. -/
theorem add_of_misfit {value : Value} (hint : RangeHint) (hmisfit : value.fits spec.kind = false) :
    result ⟨s, .add text (some value) hint⟩
        = .error (.typeMismatch (s.qualify spec.name) spec.kind value.typeName) ∧
      after ⟨s, .add text (some value) hint⟩ = s := by
  rw [result_add, after_add, Scope.add_run, hp]
  simp only [Scope.bind_run_misfit _ _ hmisfit]
  exact ⟨rfl, rfl⟩

/-- Whatever does not fit is refused, and nothing happens. -/
theorem add_refused {value? : Option Value} (hint : RangeHint)
    (hnot : ¬ ∀ v, value? = some v → v.fits spec.kind = true) :
    ∃ e, result ⟨s, .add text value? hint⟩ = .error e ∧ after ⟨s, .add text value? hint⟩ = s := by
  obtain ⟨e, he⟩ := s.bind_refused (.caller hint) hnot
  refine ⟨e, ?_⟩
  rw [result_add, after_add, Scope.add_run, hp]
  simp only [he]
  exact ⟨rfl, rfl⟩

/-- A value is bound exactly when it fits; to bind without one always succeeds. -/
theorem result_add_iff {value? : Option Value} {hint : RangeHint} :
    result ⟨s, .add text value? hint⟩ = .ok .done ↔
      ∀ v, value? = some v → v.fits spec.kind = true := by
  by_cases hfit : ∀ v, value? = some v → v.fits spec.kind = true
  · exact iff_of_true (add_of_fits hp value? hint hfit).1 hfit
  · obtain ⟨e, he, -⟩ := add_refused hp hint hfit
    rw [he]
    exact iff_of_false (by rintro ⟨⟩) hfit

end Add

/-- A binding that fails leaves everything as it was. -/
theorem after_add_of_error {s : Scope} {text : String} {value? : Option Value} {hint : RangeHint}
    {e : BindError} (hfails : result ⟨s, .add text value? hint⟩ = .error e) :
    after ⟨s, .add text value? hint⟩ = s := by
  cases hp : Spec.parse text with
  | error e =>
      rw [after_add, Scope.add_run, hp]
      rfl
  | ok spec =>
      by_cases hfit : ∀ v, value? = some v → v.fits spec.kind = true
      · rw [(add_of_fits hp value? hint hfit).1] at hfails
        cases hfails
      · obtain ⟨-, -, hafter⟩ := add_refused (s := s) hp hint hfit
        exact hafter

/-- A vivifying read that fails leaves everything as it was. -/
theorem after_vivify_of_error {s : Scope} {text : String} {e : BindError}
    (hfails : result ⟨s, .vivify text⟩ = .error e) : after ⟨s, .vivify text⟩ = s := by
  rw [result_vivify, Scope.vivify_run] at hfails
  rw [after_vivify, Scope.vivify_run]
  cases hp : Spec.parse text with
  | error e => rfl
  | ok spec =>
      simp only [hp] at hfails ⊢
      cases hreading : s.table.reading? spec with
      | some reading =>
          simp only [hreading] at hfails
          cases hfails
      | none =>
          simp only [hreading] at hfails ⊢
          cases hmade : (s.newEmpty spec.kind).1 with
          | some value =>
              simp only [hmade] at hfails
              cases hfails
          | none => rfl

end Step

/-! ### What a step is made of -/

/-- The events that only say what an operation is about to do. -/
def Event.isNotice : Event → Bool
  | .vivifying .. | .removingKind .. => true
  | _ => false

/-- An operation gives a callable and is to bind it. -/
def Operation.Defines {V : Type} (operation : Operation V) : Prop :=
  ∃ text value hint spec, operation = .add text (some value) hint ∧
    Spec.parse text = .ok spec ∧ spec.kind = .callable

/--
What the moves of a scope keep.  A step allocates, gives notice of what it is about to
do, binds names to values that fit, and drops names, so it keeps what these four keep.
Bindings that are reported are among the moves if `heard`; all but the operations that
give a callable do without them.
-/
structure Kept (heard : Prop) (P : Scope → Prop) : Prop where
  allocate : ∀ s heap, P s → P (Scope.setHeap s heap)
  notice : ∀ s event, event.isNotice = true → P s → P (Scope.log s event)
  place : ∀ s spec value? origin, (∀ v, value? = some v → v.fits spec.kind = true) →
    (Scope.Reported spec value? origin → heard) → P s → P (Scope.place s spec value? origin)
  drop : ∀ s name, P s → P (Scope.drop s name).2

namespace Kept

variable {heard : Prop} {P : Scope → Prop} (kept : Kept heard P) {s : Scope}
include kept

theorem bind (spec : Spec) (value? : Option Value) (origin : Origin)
    (hheard : Scope.Reported spec value? origin → heard) (h : P s) :
    P (Scope.left ((Scope.bind spec value? origin).run s)) := by
  cases value? with
  | none =>
      rw [Scope.bind_run _ _ (by simp)]
      exact kept.place s spec none origin (by simp) hheard h
  | some value =>
      cases hfit : value.fits spec.kind with
      | true =>
          have hfits : ∀ v, some value = some v → v.fits spec.kind = true := by simpa using hfit
          rw [Scope.bind_run _ _ hfits]
          exact kept.place s spec (some value) origin hfits hheard h
      | false =>
          rw [Scope.bind_run_misfit _ _ hfit]
          exact h

theorem renew (pairs : List (Spec × Value)) (h : P s) : P (Scope.left (s.renew pairs)) := by
  induction pairs generalizing s with
  | nil => exact h
  | cons pair rest ih =>
      unfold Scope.renew
      split
      · rename_i hfit
        refine ih (kept.place s pair.1 (some pair.2) .renewal (by simpa using hfit) ?_ h)
        exact fun hreported => absurd rfl hreported.1
      · exact h

theorem readAll (found : List (Spec × Reading)) (h : P s) : P (s.readAll found).2 := by
  obtain ⟨heap, hheap⟩ := s.readAll_scope found
  rw [hheap]
  exact kept.allocate s heap h

theorem emptied (spec : Spec) (h : P s) : P (s.emptied spec) := by
  refine kept.drop _ spec.name (kept.notice _ _ rfl ?_)
  exact kept.readAll _ h

theorem vivify (text : String) (h : P s) : P (Scope.left ((Scope.vivify text).run s)) := by
  rw [Scope.vivify_run]
  cases Spec.parse text with
  | error e => exact h
  | ok spec =>
      simp only
      cases s.table.reading? spec with
      | some reading => exact kept.allocate s _ h
      | none =>
          simp only
          cases hv : (s.newEmpty spec.kind).1 with
          | none => exact h
          | some value =>
              have hfit := s.fits_newEmpty hv
              have hplace := kept.place (s.vivifying spec) spec (some value) (.caller {})
                (by simpa using hfit) fun hreported => by
                  rw [s.newEmpty_eq_none_iff.mpr hreported.2.2] at hv
                  cases hv
              exact hplace (kept.notice _ _ rfl (kept.allocate s _ h))

/-- A step keeps what its moves keep. -/
theorem after (operation : Operation Value) (hheard : operation.Defines → heard) (h : P s) :
    P (Step.after ⟨s, operation⟩) := by
  cases operation with
  | add text value? hint =>
      rw [Step.after_add, Scope.add_run]
      cases hp : Spec.parse text with
      | error e => exact h
      | ok spec =>
          refine kept.bind spec value? _ ?_ h
          intro hreported
          obtain ⟨-, hgiven, hkind⟩ := hreported
          obtain ⟨value, rfl⟩ := Option.isSome_iff_exists.mp hgiven
          exact hheard ⟨text, value, hint, spec, rfl, hp, hkind⟩
  | has text =>
      rw [Step.after_has, Scope.has_run]
      cases Spec.parse text <;> exact h
  | find text =>
      rw [Step.after_find, Scope.find_run]
      cases Spec.parse text with
      | error e => exact h
      | ok spec =>
          obtain ⟨heap, hheap⟩ := s.lookup_scope spec
          show P (s.lookup spec).2
          rw [hheap]
          exact kept.allocate s heap h
  | vivify text =>
      rw [Step.after_vivify]
      exact kept.vivify text h
  | remove text =>
      rw [Step.after_remove, Scope.remove_run]
      cases Spec.parse text with
      | error e => exact h
      | ok spec => exact kept.renew _ (kept.emptied spec h)
  | removeAll name => exact kept.drop s name h
  | names kind? => exact h
  | bindings kind => exact kept.readAll _ h

end Kept

/-! ### Histories -/

section

variable {α : Type} {history earlier later : List α} {last a : α}

/-- A history parts at one of its entries before its last one, or at the last. -/
theorem parts_concat_iff : history ++ [last] = earlier ++ a :: later ↔
    (history = earlier ∧ last = a ∧ later = []) ∨
      ∃ between, later = between ++ [last] ∧ history = earlier ++ a :: between := by
  constructor
  · intro h
    rcases List.eq_nil_or_concat later with rfl | ⟨between, last', rfl⟩
    · obtain ⟨hbefore, hlast⟩ := List.append_inj' h rfl
      exact Or.inl ⟨hbefore, by simpa using hlast, rfl⟩
    · rw [List.concat_eq_append, ← List.cons_append, ← List.append_assoc] at h
      obtain ⟨hbefore, hlast⟩ := List.append_inj' h rfl
      cases hlast
      exact Or.inr ⟨between, List.concat_eq_append, hbefore⟩
  · rintro (⟨rfl, rfl, rfl⟩ | ⟨between, rfl, rfl⟩)
    · rfl
    · simp

/--
Some entry did what all that came after it left standing: of a history with one more entry,
the last one did it, or it stood before and the last one leaves it standing.
-/
theorem since_concat_iff {did leaves : α → Prop} :
    (∃ earlier a later, history ++ [last] = earlier ++ a :: later ∧ did a ∧
        ∀ b ∈ later, leaves b) ↔
      did last ∨
        (∃ earlier a later, history = earlier ++ a :: later ∧ did a ∧ ∀ b ∈ later, leaves b) ∧
          leaves last := by
  constructor
  · rintro ⟨earlier, a, later, hparts, hdid, hleaves⟩
    obtain ⟨-, rfl, -⟩ | ⟨between, rfl, hhistory⟩ := parts_concat_iff.mp hparts
    · exact Or.inl hdid
    · obtain ⟨hbetween, hlast⟩ := List.forall_mem_append.mp hleaves
      exact Or.inr ⟨⟨earlier, a, between, hhistory, hdid, hbetween⟩, hlast last (by simp)⟩
  · rintro (hdid | ⟨⟨earlier, a, later, rfl, hdid, hleaves⟩, hlast⟩)
    · exact ⟨history, last, [], rfl, hdid, by simp⟩
    · refine ⟨earlier, a, later ++ [last], by simp, hdid, ?_⟩
      exact List.forall_mem_append.mpr ⟨hleaves, by simpa using hlast⟩

end

/-! ### Runs -/

/-- A new namespace has no names. -/
theorem Namespace.table_make {ident : String} {debugger : DebuggerId} {space : Namespace}
    (h : Namespace.make ident debugger = .ok space) : space.table = ∅ := by
  unfold Namespace.make at h
  split at h
  · cases h
  · cases h
    rfl

/--
A run leads from a scope through steps to a scope.  Edits of the table that are
admitted, and changes of the shared world, may come between the steps.
-/
inductive Run (admitted : Edit Value → Prop) (s : Scope) : List Step → Scope → Prop where
  | start : Run admitted s [] s
  | step {t : Scope} {steps : List Step} (run : Run admitted s steps t)
      (operation : Operation Value) :
      Run admitted s (steps ++ [⟨t, operation⟩]) (Step.after ⟨t, operation⟩)
  | edit {t : Scope} {steps : List Step} (run : Run admitted s steps t)
      (edit : Edit Value) (h : admitted edit) : Run admitted s steps (edit.apply t).2
  | elsewhere {t : Scope} {steps : List Step} (run : Run admitted s steps t) (world : World) :
      Run admitted s steps { t with world }

/-- A run up to one of its steps is a run too. -/
theorem Run.before {admitted : Edit Value → Prop} {s t : Scope} {step : Step}
    {earlier later : List Step} (run : Run admitted s (earlier ++ step :: later) t) :
    Run admitted s earlier step.before := by
  generalize hsteps : earlier ++ step :: later = steps at run
  induction run generalizing later with
  | start => simp at hsteps
  | @step u steps run operation ih =>
      obtain ⟨rfl, rfl, -⟩ | ⟨between, -, hbefore⟩ := parts_concat_iff.mp hsteps.symm
      · exact run
      · exact ih hbefore.symm
  | edit _ _ _ ih => exact ih hsteps
  | elsewhere _ _ ih => exact ih hsteps

end Bindery
