/-
What is read is what was last installed.

A history is kept by no one: a namespace has only its table.  Yet in a namespace that
began empty and was never edited the table tells exactly this much of the history:
a slot holds the value of the last step that installed one there, unless a later step
withdrew it.

A step installs a value when it binds one, given or empty, or when a vivifying read
finds nothing and makes one.  A step withdraws a value when it removes its slot or its
whole name.  An undefined scalar does not count as a binding, and a removal of any
other binding of the name loses it too.

What carries the induction over a run is that such a namespace has no stubs and that
all its slots fit.  Without stubs a reading gives what the slot holds, and with slots
that fit a removal never stops halfway.
-/
import Bindery.Proofs.Namespace.Fits
import Bindery.Proofs.Namespace.Renewal

namespace Bindery

namespace Step

/-- A step puts a value into the slot that a spec addresses. -/
inductive Installs (step : Step) (spec : Spec) : Value → Prop where
  /-- A value is given, and it is bound. -/
  | given {text : String} {value : Value} {hint : RangeHint}
      (asked : step.operation = .add text (some value) hint)
      (addressed : Spec.parse text = .ok spec) (succeeds : step.result = .ok .done) :
      Installs step spec value
  /-- No value is given, and the empty one is bound. -/
  | default {text : String} {value : Value} {hint : RangeHint}
      (asked : step.operation = .add text none hint)
      (addressed : Spec.parse text = .ok spec) (succeeds : step.result = .ok .done)
      (kind : spec.kind ≠ .callable)
      (empty : (step.before.newEmpty spec.kind).1 = some value) : Installs step spec value
  /-- Nothing is there to be read, and what is answered is bound. -/
  | vivified {text : String} {value : Value}
      (asked : step.operation = .vivify text)
      (addressed : Spec.parse text = .ok spec) (kind : spec.kind ≠ .callable)
      (absent : step.before.table.held spec = none)
      (answered : step.result = .ok (.value (some value))) : Installs step spec value

/-- A step takes a value out of the slot that a spec addresses. -/
inductive Withdraws (step : Step) (spec : Spec) (value : Value) : Prop where
  /-- The slot is removed. -/
  | removed {text : String} (asked : step.operation = .remove text)
      (addressed : Spec.parse text = .ok spec)
  /-- The name is removed. -/
  | dropped (asked : step.operation = .removeAll spec.name)
  /-- The value does not count as a binding, and some slot of the name is removed. -/
  | lost {text : String} {other : Spec} (asked : step.operation = .remove text)
      (addressed : Spec.parse text = .ok other) (name : other.name = spec.name)
      (undefined : value = .undefined)

variable {step : Step} {spec : Spec} {value : Value}

/-- Only bindings and vivifying reads install values. -/
theorem not_installs (hadd : ∀ text value? hint, step.operation ≠ .add text value? hint)
    (hvivify : ∀ text, step.operation ≠ .vivify text) : ¬ step.Installs spec value := by
  intro hinstalls
  cases hinstalls with
  | given asked => exact hadd _ _ _ asked
  | default asked => exact hadd _ _ _ asked
  | vivified asked => exact hvivify _ asked

/-- Only removals withdraw values. -/
theorem not_withdraws (hremove : ∀ text, step.operation ≠ .remove text)
    (hremoveAll : ∀ name, step.operation ≠ .removeAll name) : ¬ step.Withdraws spec value := by
  intro hwithdraws
  cases hwithdraws with
  | removed asked => exact hremove _ asked
  | dropped asked => exact hremoveAll _ asked
  | lost asked => exact hremove _ asked

/-- A step neither puts a value into a slot nor takes the value there out of it. -/
def Spares (step : Step) (spec : Spec) (value : Value) : Prop :=
  (∀ v, ¬ step.Installs spec v) ∧ ¬ step.Withdraws spec value

end Step

/-- A value was installed in a slot, and every later step spared it. -/
def Stands (steps : List Step) (spec : Spec) (value : Value) : Prop :=
  ∃ earlier step later, steps = earlier ++ step :: later ∧ step.Installs spec value ∧
    ∀ step' ∈ later, step'.Spares spec value

theorem not_stands_nil (spec : Spec) (value : Value) : ¬ Stands [] spec value := by
  intro hstands
  obtain ⟨earlier, step, later, heq, -⟩ := hstands
  simp at heq

/-- A value stands after one more step if that step installs it, or finds it and spares it. -/
theorem stands_concat {steps : List Step} {step : Step} {spec : Spec} {value : Value} :
    Stands (steps ++ [step]) spec value ↔
      step.Installs spec value ∨ (Stands steps spec value ∧ step.Spares spec value) :=
  since_concat_iff

/-! ### Namespaces without stubs -/

/-- No name has a stub, and every slot fits. -/
structure Scope.Plain (s : Scope) : Prop where
  noStub : ∀ name, s.table.isStub name = false
  fits : s.table.Fits

namespace Scope

theorem kept_noStub : Kept True fun s => ∀ name, s.table.isStub name = false where
  allocate _ _ h := h
  notice _ _ _ h := h
  place s spec value? origin hfit _ h := by
    intro name
    rw [table_place]
    cases (s.valueFor spec.kind value?).1 with
    | none => rw [SymbolTable.isStub_bound_none, h]
    | some value => rw [SymbolTable.isStub_bound_some, h, ite_self]
  drop s name h := by
    intro other
    show SymbolTable.isStub (s.table.erase name) other = false
    rw [SymbolTable.isStub_erase, h, ite_self]

theorem Plain.after {s : Scope} (h : s.Plain) (operation : Operation Value) :
    (Step.after ⟨s, operation⟩).Plain :=
  ⟨kept_noStub.after operation (fun _ => trivial) h.noStub,
    kept_fits.after operation (fun _ => trivial) h.fits⟩

/-- In a run that is not edited no stub comes up. -/
theorem Plain.run {s t : Scope} (h : s.Plain) {steps : List Step}
    (run : Run (fun _ => False) s steps t) : t.Plain := by
  induction run with
  | start => exact h
  | step _ operation ih => exact ih.after operation
  | edit _ edit he => exact he.elim
  | elsewhere _ world ih => exact ⟨ih.noStub, ih.fits⟩

namespace Plain

variable {s : Scope} (h : s.Plain)
include h

theorem reading? (spec : Spec) : s.table.reading? spec = (s.table.held spec).map .held :=
  SymbolTable.reading?_eq_held _ (h.noStub spec.name)

/-- What is found is what the slot holds. -/
theorem lookup (spec : Spec) : s.lookup spec = (s.table.held spec, s) := by
  rw [lookup_eq, h.reading?]
  cases s.table.held spec <;> rfl

/-- **What the slots hold after a removal.** -/
theorem held_remove {text : String} {spec : Spec} (hp : Spec.parse text = .ok spec) (p : Spec) :
    (Step.after ⟨s, .remove text⟩).table.held p =
      if p.name = spec.name then
        if p.kind ≠ spec.kind ∧ s.table.has p = true then s.table.held p else none
      else s.table.held p := by
  obtain ⟨-, htable⟩ := remove_of_fits hp (h.noStub spec.name) fun kind value _ hheld =>
    SymbolTable.fits_iff_held.mp h.fits ⟨spec.name, kind⟩ value hheld
  rw [htable, SymbolTable.held_without]

/-- What is held counts, unless it is undefined. -/
theorem has_eq {spec : Spec} {value : Value} (hv : s.table.held spec = some value) :
    s.table.has spec = value.isDefined := by
  apply Bool.eq_iff_iff.mpr
  rw [SymbolTable.has_iff_held _ (h.noStub spec.name), hv]
  constructor
  · intro hcounts
    obtain ⟨v, heq, hdef⟩ := hcounts
    cases heq
    cases hkind : spec.kind with
    | scalar => exact hdef hkind
    | _ =>
        have hfit := SymbolTable.fits_iff_held.mp h.fits spec value hv
        rw [hkind] at hfit
        cases value <;> first | rfl | cases hfit
  · intro hdef
    exact ⟨value, rfl, fun _ => hdef⟩

/-! ### What one step does to a slot -/

omit h in
/-- A binding installs the value given, or the empty one, if a value that is given fits. -/
theorem installs_add_iff {text : String} {value? : Option Value} {hint : RangeHint}
    {spec : Spec} {value : Value} :
    Step.Installs ⟨s, .add text value? hint⟩ spec value ↔
      Spec.parse text = .ok spec ∧ (∀ v, value? = some v → v.fits spec.kind = true) ∧
        (s.valueFor spec.kind value?).1 = some value := by
  constructor
  · intro hinstalls
    cases hinstalls with
    | given asked addressed succeeds =>
        cases asked
        exact ⟨addressed, (Step.result_add_iff addressed).mp succeeds, rfl⟩
    | default asked addressed succeeds kind empty =>
        cases asked
        exact ⟨addressed, by simp, empty⟩
    | vivified asked => cases asked
  · intro hbinds
    obtain ⟨hp, hfit, hv⟩ := hbinds
    have hok : Step.result ⟨s, .add text value? hint⟩ = .ok .done :=
      (Step.result_add_iff hp).mpr hfit
    cases value? with
    | none =>
        refine .default rfl hp hok ?_ hv
        intro hkind
        have hnone := s.newEmpty_eq_none_iff.mpr hkind
        exact absurd (hnone.symm.trans hv) (by simp)
    | some v =>
        cases hv
        exact .given rfl hp hok

/-- A vivifying read installs the empty value of its kind where nothing is held. -/
theorem installs_vivify_iff {text : String} {spec : Spec} {value : Value} :
    Step.Installs ⟨s, .vivify text⟩ spec value ↔
      Spec.parse text = .ok spec ∧ s.table.held spec = none ∧
        (s.newEmpty spec.kind).1 = some value := by
  have hresult : Spec.parse text = .ok spec → s.table.held spec = none →
      ∀ made, (s.newEmpty spec.kind).1 = some made →
        Step.result ⟨s, .vivify text⟩ = .ok (.value (some made)) := by
    intro hp habsent made hmade
    rw [Step.result_vivify, vivify_run, hp]
    simp only [h.reading?, habsent, hmade]
    rfl
  constructor
  · intro hinstalls
    cases hinstalls with
    | given asked => cases asked
    | default asked => cases asked
    | vivified asked addressed kind absent answered =>
        cases asked
        refine ⟨addressed, absent, ?_⟩
        cases hmade : (s.newEmpty spec.kind).1 with
        | none => exact absurd (s.newEmpty_eq_none_iff.mp hmade) kind
        | some made =>
            rw [hresult addressed absent made hmade] at answered
            cases answered
            rfl
  · intro hmakes
    obtain ⟨hp, habsent, hmade⟩ := hmakes
    refine .vivified rfl hp ?_ habsent (hresult hp habsent value hmade)
    intro hkind
    have hnone := s.newEmpty_eq_none_iff.mpr hkind
    exact absurd (hnone.symm.trans hmade) (by simp)

omit h in
theorem held_after_add (text : String) (value? : Option Value) (hint : RangeHint)
    (spec : Spec) (value : Value) :
    (Step.after ⟨s, .add text value? hint⟩).table.held spec = some value ↔
      Step.Installs ⟨s, .add text value? hint⟩ spec value ∨
        (s.table.held spec = some value ∧
          ∀ v, ¬ Step.Installs ⟨s, .add text value? hint⟩ spec v) := by
  simp only [installs_add_iff]
  rw [Step.after_add, add_run]
  cases hp : Spec.parse text with
  | error e => simp [left]
  | ok p =>
      by_cases hfit : ∀ v, value? = some v → v.fits p.kind = true
      · simp only [bind_run _ _ hfit, left, table_place]
        by_cases hspec : p = spec
        · subst hspec
          simp only [eq_true hfit, true_and]
          cases (s.valueFor p.kind value?).1 with
          | none => simp [SymbolTable.held_bound_none]
          | some made => simp [SymbolTable.held_bound_some]
        · have hspec' : spec ≠ p := fun e => hspec e.symm
          cases (s.valueFor p.kind value?).1 with
          | none => simp [SymbolTable.held_bound_none, hspec]
          | some made => simp [SymbolTable.held_bound_some, hspec, hspec']
      · obtain ⟨e, he⟩ := s.bind_refused (.caller hint) hfit
        simp only [he, left]
        by_cases hspec : p = spec
        · subst hspec
          simp only [eq_false hfit, false_and, and_false, not_false_iff, false_or, implies_true,
            and_true]
        · simp [hspec]

theorem held_after_vivify (text : String) (spec : Spec) (value : Value) :
    (Step.after ⟨s, .vivify text⟩).table.held spec = some value ↔
      Step.Installs ⟨s, .vivify text⟩ spec value ∨
        (s.table.held spec = some value ∧ ∀ v, ¬ Step.Installs ⟨s, .vivify text⟩ spec v) := by
  simp only [h.installs_vivify_iff]
  rw [Step.after_vivify, vivify_run]
  cases hp : Spec.parse text with
  | error e => simp [left]
  | ok p =>
      have hspec' : spec = p ∨ (spec ≠ p ∧ p ≠ spec) := by
        by_cases heq : spec = p
        · exact Or.inl heq
        · exact Or.inr ⟨heq, fun e => heq e.symm⟩
      cases hheld : s.table.held p with
      | some found =>
          have hleft : s.read p (.held found) = (found, s) := rfl
          simp only [h.reading?, hheld, Option.map_some, hleft, left]
          rcases hspec' with rfl | ⟨-, hne⟩
          · simp [hheld]
          · simp [hne]
      | none =>
          simp only [h.reading?, hheld, Option.map_none]
          cases hmade : (s.newEmpty p.kind).1 with
          | none =>
              simp only [left]
              rcases hspec' with rfl | ⟨-, hne⟩
              · simp [hheld, hmade]
              · simp [hne]
          | some made =>
              simp only [left, table_place, valueFor_some, SymbolTable.held_bound_some]
              have htable : (s.vivifying p).table = s.table := rfl
              rcases hspec' with rfl | ⟨hne', hne⟩
              · simp [hheld, hmade]
              · simp [hne, hne', htable]

omit h in
theorem withdraws_remove_iff {text : String} {p spec : Spec} {value : Value}
    (hp : Spec.parse text = .ok p) :
    Step.Withdraws ⟨s, .remove text⟩ spec value ↔
      p = spec ∨ (p.name = spec.name ∧ value = .undefined) := by
  constructor
  · intro hwithdraws
    cases hwithdraws with
    | removed asked addressed =>
        cases asked
        exact Or.inl (Except.ok.inj (hp.symm.trans addressed))
    | dropped asked => cases asked
    | lost asked addressed name undefined =>
        cases asked
        obtain rfl := Except.ok.inj (hp.symm.trans addressed)
        exact Or.inr ⟨name, undefined⟩
  · intro htakes
    rcases htakes with rfl | ⟨hname, hundefined⟩
    · exact .removed rfl hp
    · exact .lost rfl hp hname hundefined

theorem held_after_remove (text : String) (spec : Spec) (value : Value) :
    (Step.after ⟨s, .remove text⟩).table.held spec = some value ↔
      s.table.held spec = some value ∧ ¬ Step.Withdraws ⟨s, .remove text⟩ spec value := by
  cases hp : Spec.parse text with
  | error e =>
      have hafter : Step.after ⟨s, .remove text⟩ = s := by
        rw [Step.after_remove, remove_run, hp]
        rfl
      have hnot : ¬ Step.Withdraws ⟨s, .remove text⟩ spec value := by
        intro hwithdraws
        cases hwithdraws with
        | removed asked addressed =>
            cases asked
            cases hp.symm.trans addressed
        | dropped asked => cases asked
        | lost asked addressed =>
            cases asked
            cases hp.symm.trans addressed
      simp [hafter, hnot]
  | ok p =>
      rw [h.held_remove hp, withdraws_remove_iff hp]
      by_cases hname : spec.name = p.name
      · rw [if_pos hname]
        by_cases hheld : s.table.held spec = some value
        · have hspec : p = spec ↔ spec.kind = p.kind := by
            constructor
            · intro hspec
              rw [hspec]
            · intro hkind
              cases p
              cases spec
              simp_all
          have hundefined : value = .undefined ↔ value.isDefined = false := by
            cases value <;> simp [Value.isDefined]
          rw [h.has_eq hheld, hheld, hspec, hundefined]
          simp [hname]
        · simp [hheld]
      · rw [if_neg hname]
        have hne : p.name ≠ spec.name := fun e => hname e.symm
        have hspec : p ≠ spec := fun e => hne (congrArg Spec.name e)
        simp [hne, hspec]

omit h in
/-- A step that only reads neither installs nor withdraws, and spares every slot. -/
theorem held_after_read {operation : Operation Value} (hread : operation.isRead = true)
    {spec : Spec} {value : Value} :
    (Step.after ⟨s, operation⟩).table.held spec = some value ↔
      Step.Installs ⟨s, operation⟩ spec value ∨
        (s.table.held spec = some value ∧ Step.Spares ⟨s, operation⟩ spec value) := by
  have hinstalls : ∀ v, ¬ Step.Installs ⟨s, operation⟩ spec v := by
    intro v
    exact Step.not_installs (by rintro _ _ _ rfl; cases hread) (by rintro _ rfl; cases hread)
  have hwithdraws : ¬ Step.Withdraws ⟨s, operation⟩ spec value :=
    Step.not_withdraws (by rintro _ rfl; cases hread) (by rintro _ rfl; cases hread)
  simp [table_after_read hread, Step.Spares, hinstalls, hwithdraws]

/-- **What one step does to a slot.**  It installs a value there, or spares the one it finds. -/
theorem held_after_iff (operation : Operation Value) (spec : Spec) (value : Value) :
    (Step.after ⟨s, operation⟩).table.held spec = some value ↔
      Step.Installs ⟨s, operation⟩ spec value ∨
        (s.table.held spec = some value ∧ Step.Spares ⟨s, operation⟩ spec value) := by
  cases operation with
  | add text value? hint =>
      have hnot : ¬ Step.Withdraws ⟨s, .add text value? hint⟩ spec value :=
        Step.not_withdraws (by simp) (by simp)
      simpa [Step.Spares, hnot] using held_after_add text value? hint spec value
  | vivify text =>
      have hnot : ¬ Step.Withdraws ⟨s, .vivify text⟩ spec value :=
        Step.not_withdraws (by simp) (by simp)
      simpa [Step.Spares, hnot] using h.held_after_vivify text spec value
  | remove text =>
      have hnot : ∀ v, ¬ Step.Installs ⟨s, .remove text⟩ spec v :=
        fun _ => Step.not_installs (by simp) (by simp)
      simpa [Step.Spares, hnot] using h.held_after_remove text spec value
  | removeAll name =>
      have hnot : ∀ v, ¬ Step.Installs ⟨s, .removeAll name⟩ spec v :=
        fun _ => Step.not_installs (by simp) (by simp)
      have hwithdraws : Step.Withdraws ⟨s, .removeAll name⟩ spec value ↔ spec.name = name := by
        constructor
        · intro hwithdraws
          cases hwithdraws with
          | removed asked => cases asked
          | dropped asked =>
              cases asked
              rfl
          | lost asked => cases asked
        · intro hname
          subst hname
          exact .dropped rfl
      have htable : (Step.after ⟨s, .removeAll name⟩).table = s.table.erase name := rfl
      rw [htable, SymbolTable.held_erase]
      by_cases hname : spec.name = name
      · simp [Step.Spares, hnot, hwithdraws, hname]
      · simp [Step.Spares, hnot, hwithdraws, hname]
  | has text => exact held_after_read rfl
  | find text => exact held_after_read rfl
  | names kind? => exact held_after_read rfl
  | bindings kind => exact held_after_read rfl

/-- What a read answers is what the slot holds. -/
theorem result_find {text : String} {spec : Spec} (hp : Spec.parse text = .ok spec) :
    Step.result ⟨s, .find text⟩ = .ok (.value (s.table.held spec)) := by
  rw [Step.result_find, find_run, hp]
  simp only [h.lookup]
  rfl

end Plain

end Scope

/-! ### Whole runs -/

theorem Namespace.plain_make {ident : String} {debugger : DebuggerId} {space : Namespace}
    (h : Namespace.make ident debugger = .ok space) (world : World) :
    Scope.Plain ⟨space, world⟩ ∧ ∀ spec, space.table.held spec = none := by
  have hnew := Namespace.table_make h
  refine ⟨⟨?_, ?_⟩, ?_⟩
  · intro name
    show space.table.isStub name = false
    rw [hnew]
    simp [SymbolTable.isStub]
  · show space.table.Fits
    rw [hnew]
    exact SymbolTable.fits_empty
  · intro spec
    rw [hnew]
    simp [SymbolTable.held, SymbolTable.slots]

/-- What a slot holds at the end of a run is what stands in it. -/
theorem Run.held_iff_stands {s t : Scope} {steps : List Step} (hs : s.Plain)
    (hempty : ∀ spec, s.table.held spec = none) (run : Run (fun _ => False) s steps t)
    (spec : Spec) (value : Value) :
    t.table.held spec = some value ↔ Stands steps spec value := by
  induction run with
  | start => simp [hempty, not_stands_nil]
  | step run operation ih =>
      rw [(hs.run run).held_after_iff, stands_concat, ih]
  | edit _ edit he => exact he.elim
  | elsewhere _ world ih => exact ih

/-- Every step of a run that is not edited is asked of a namespace without stubs. -/
theorem Run.before_plain {s t : Scope} {steps : List Step} (hs : s.Plain)
    (run : Run (fun _ => False) s steps t) : ∀ step ∈ steps, step.before.Plain := by
  induction run with
  | start => simp
  | step run operation ih =>
      intro step hstep
      rcases List.mem_append.mp hstep with hstep | hstep
      · exact ih step hstep
      · rw [List.mem_singleton.mp hstep]
        exact hs.run run
  | edit _ edit he => exact he.elim
  | elsewhere _ world ih => exact ih

/--
**What is read is what was last installed.**  In a namespace that began empty, after any
steps in any order, a read gives the value that was installed last in the slot if no
later step withdrew it, and nothing otherwise.  And no step of the run but one that
installs a value in the slot, or withdraws the one there, changes what a read gives.
-/
theorem find_iff_last_installed {ident : String} {debugger : DebuggerId} {space : Namespace}
    (hmake : Namespace.make ident debugger = .ok space) {world : World} {steps : List Step}
    {t : Scope} (run : Run (fun _ => False) ⟨space, world⟩ steps t) {text : String} {spec : Spec}
    (hp : Spec.parse text = .ok spec) :
    (∀ value, Step.result ⟨t, .find text⟩ = .ok (.value (some value)) ↔
      Stands steps spec value) ∧
    ((∀ value, ¬ Stands steps spec value) →
      Step.result ⟨t, .find text⟩ = .ok (.value none)) ∧
    ∀ step ∈ steps, (∀ v, ¬ step.Installs spec v) →
      (∀ v, Step.result ⟨step.before, .find text⟩ = .ok (.value (some v)) →
        ¬ step.Withdraws spec v) →
      Step.result ⟨step.after, .find text⟩ = Step.result ⟨step.before, .find text⟩ := by
  obtain ⟨hplain, hempty⟩ := Namespace.plain_make hmake world
  have hheld := run.held_iff_stands hplain hempty spec
  have hresult := (hplain.run run).result_find hp
  refine ⟨?_, ?_, ?_⟩
  · intro value
    rw [hresult, ← hheld]
    simp
  · intro hnone
    rw [hresult]
    cases hv : t.table.held spec with
    | none => rfl
    | some value => exact absurd ((hheld value).mp hv) (hnone value)
  · intro step hstep hinstalls hwithdraws
    have hbefore := run.before_plain hplain step hstep
    have hafter : step.after.Plain := hbefore.after step.operation
    rw [hbefore.result_find hp] at hwithdraws ⊢
    rw [hafter.result_find hp]
    congr 2
    apply Option.ext
    intro value
    have hiff := hbefore.held_after_iff step.operation spec value
    refine hiff.trans ⟨?_, ?_⟩
    · intro hheld
      rcases hheld with hinst | ⟨hv, -⟩
      · exact absurd hinst (hinstalls value)
      · exact hv
    · intro hv
      exact Or.inr ⟨hv, hinstalls, hwithdraws value (by rw [hv])⟩

/-- A sibling outlives the removal of a kind; an undefined scalar does not. -/
theorem find_after_sibling_removed :
    ∃ steps t, Run (fun _ => False) ⟨⟨"main", ∅, ⟨0⟩⟩, {}⟩ steps t ∧
      steps.map Step.operation
        = [.add "@x" none {}, .add "$x" (some .undefined) {}, .remove "%x"] ∧
      Stands steps ⟨"x", .sequence⟩ (.sequence ⟨0⟩) ∧
      ¬ Stands steps ⟨"x", .scalar⟩ .undefined := by
  have run := (Run.start : Run (fun _ => False) ⟨⟨"main", ∅, ⟨0⟩⟩, {}⟩ [] _)
    |>.step (.add "@x" none {}) |>.step (.add "$x" (some .undefined) {}) |>.step (.remove "%x")
  have hmake : Namespace.make "main" ⟨0⟩ = .ok ⟨"main", ∅, ⟨0⟩⟩ := rfl
  have hsequence : Spec.parse "@x" = .ok ⟨"x", .sequence⟩ := rfl
  have hscalar : Spec.parse "$x" = .ok ⟨"x", .scalar⟩ := rfl
  refine ⟨_, _, run, rfl, ?_, ?_⟩
  · exact ((find_iff_last_installed hmake run hsequence).1 _).mp rfl
  · intro h
    have hfound := ((find_iff_last_installed hmake run hscalar).1 _).mpr h
    cases hfound

end Bindery
