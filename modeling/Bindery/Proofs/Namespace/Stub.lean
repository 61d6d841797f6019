/-
The life of a stub.

No operation makes a stub: one comes from an edit, and once gone it does not come back.
It lasts through whatever only reads, fails, or is asked of another name.  It also lasts
through two operations that bind in every other case: to declare its callable says
nothing new, and a vivifying read of its callable finds one.

Everything else that is asked of its name ends it.  A value that is installed stands
alone, since a stub holds nothing; a removal of another kind leaves the callable that the
stub was read as, bound like any other; and a removal of the callable, or of the whole
name, leaves nothing.

A run is followed step by step.  A stub after a step was there before it, so a stub at the
end was there all along, and no step on the way was one of those that end it.
-/
import Bindery.Proofs.Namespace.Installed

namespace Bindery

namespace Step

/-- A step that a stub of a name lasts through. -/
inductive Passes (step : Step) (name : String) : Prop where
  /-- It only reads. -/
  | read (reads : step.operation.isRead = true)
  /-- It fails. -/
  | refused {e : BindError} (fails : step.result = .error e)
  /-- It is asked of another name. -/
  | apart {other : String} (addressed : step.operation.name? = some other) (apart : other ≠ name)
  /-- It declares the callable. -/
  | declared {text : String} {hint : RangeHint} (asked : step.operation = .add text none hint)
      (addressed : Spec.parse text = .ok ⟨name, .callable⟩)
  /-- It finds the callable. -/
  | found {text : String} (asked : step.operation = .vivify text)
      (addressed : Spec.parse text = .ok ⟨name, .callable⟩)

/-- A step that ends a stub of a name, with the entry that the name is left with. -/
inductive Ends (step : Step) (name : String) : Option Entry → Prop where
  /-- A value is installed: given, empty, or made by a vivifying read. -/
  | installed {kind : Kind} {value : Value} (installs : step.Installs ⟨name, kind⟩ value) :
      Ends step name (some (.bindings (({} : Slots).set kind value)))
  /-- A kind other than callable is removed. -/
  | removed {text : String} {kind : Kind} {callable : Value} (asked : step.operation = .remove text)
      (addressed : Spec.parse text = .ok ⟨name, kind⟩) (another : kind ≠ .callable)
      (found : (step.before.lookup ⟨name, .callable⟩).1 = some callable) :
      Ends step name (some (.bindings (({} : Slots).set .callable callable)))
  /-- The callable is removed. -/
  | withdrawn {text : String} (asked : step.operation = .remove text)
      (addressed : Spec.parse text = .ok ⟨name, .callable⟩) : Ends step name none
  /-- The name is removed. -/
  | dropped (asked : step.operation = .removeAll name) : Ends step name none

end Step

namespace Scope

variable {s : Scope}

/-! ### Stubs do not arise -/

theorem kept_noStubOf (name : String) (raw : Value) :
    Kept True fun s => s.table[name]? ≠ some (.stub raw) where
  allocate _ _ h := h
  notice _ _ _ h := h
  place s spec value? origin _ _ h := by
    rw [table_place]
    exact mt (SymbolTable.stub_of_bound _) h
  drop s name h := mt (SymbolTable.stub_of_erase s.table) h

/-- A stub after a step was there before it. -/
theorem stub_of_after {operation : Operation Value} {name : String} {raw : Value}
    (hafter : (Step.after ⟨s, operation⟩).table[name]? = some (.stub raw)) :
    s.table[name]? = some (.stub raw) := by
  by_contra hbefore
  exact (kept_noStubOf name raw).after operation (fun _ => trivial) hbefore hafter

/-! ### What is asked of the name of a stub -/

section Stub

variable {name : String} {raw : Value} (hstub : s.table[name]? = some (.stub raw))
include hstub

theorem isStub_of_stub : s.table.isStub name = true := by
  simp [SymbolTable.isStub, hstub, Entry.isStub]

theorem slots_of_stub : s.table.slots name = {} :=
  SymbolTable.slots_eq_of_isStub s.table (isStub_of_stub hstub)

theorem reading_of_stub (kind : Kind) :
    s.table.reading? ⟨name, kind⟩ = if kind = .callable then some (.declared raw) else none :=
  SymbolTable.reading?_of_stub s.table hstub

theorem has_of_stub (kind : Kind) : s.table.has ⟨name, kind⟩ = (kind == .callable) :=
  SymbolTable.has_of_stub s.table hstub

/-- A value that is bound stands alone. -/
theorem bound_of_stub (kind : Kind) (value : Value) :
    (s.table.bound ⟨name, kind⟩ (some value))[name]?
      = some (.bindings (({} : Slots).set kind value)) := by
  rw [SymbolTable.bound, Dict.getElem?_insert, if_pos rfl, slots_of_stub hstub]

theorem lookup_of_stub :
    (s.lookup ⟨name, .callable⟩).1 = some (s.read ⟨name, .callable⟩ (.declared raw)).1 := by
  rw [lookup_eq, reading_of_stub hstub]
  rfl

theorem siblingsOf_of_stub (kind : Kind) :
    s.table.siblingsOf ⟨name, kind⟩ = if kind = .callable then [] else [⟨name, .callable⟩] := by
  cases kind <;> simp [SymbolTable.siblingsOf, Kind.siblings, Kind.all, has_of_stub hstub]

/-- A removal of another kind keeps the callable that the stub is read as, and nothing else. -/
theorem keep_of_stub (kind : Kind) :
    (s.keep ⟨name, kind⟩).1 = if kind = .callable then []
      else [(⟨name, .callable⟩, (s.read ⟨name, .callable⟩ (.declared raw)).1)] := by
  by_cases hkind : kind = .callable
  · simp [keep, siblingsOf_of_stub hstub, hkind, SymbolTable.readings, readAll]
  · simp [keep, siblingsOf_of_stub hstub, hkind, SymbolTable.readings, reading_of_stub hstub,
      readAll]

/-- What is left of a stub once a kind of its name is removed, which always succeeds. -/
theorem remove_of_stub {text : String} {kind : Kind} (hp : Spec.parse text = .ok ⟨name, kind⟩) :
    Step.result ⟨s, .remove text⟩ = .ok .done ∧
      (Step.after ⟨s, .remove text⟩).table[name]? = if kind = .callable then none else
        some (.bindings (({} : Slots).set .callable
          (s.read ⟨name, .callable⟩ (.declared raw)).1)) := by
  have hfits : ∀ pair ∈ (s.keep ⟨name, kind⟩).1, pair.2.fits pair.1.kind = true := by
    intro pair hpair
    rw [keep_of_stub hstub] at hpair
    by_cases hkind : kind = .callable
    · simp [hkind] at hpair
    · obtain rfl : pair = _ := by simpa [hkind] using hpair
      rfl
  obtain ⟨hdone, htable⟩ := remove_of_kept_fits hp hfits
  refine ⟨hdone, ?_⟩
  rw [htable, keep_of_stub hstub]
  by_cases hkind : kind = .callable
  · rw [if_pos hkind, if_pos hkind]
    show (s.table.erase name)[name]? = none
    rw [Dict.getElem?_erase, if_pos rfl]
  · have hslots : SymbolTable.slots (s.table.erase name) name = {} := by
      simp [SymbolTable.slots]
    rw [if_neg hkind, if_neg hkind]
    show (SymbolTable.bound (s.table.erase name) ⟨name, .callable⟩ (some _))[name]? = _
    rw [SymbolTable.bound, Dict.getElem?_insert, if_pos rfl, hslots]

/-- A binding that installs a value leaves nothing else. -/
theorem add_of_stub {text : String} {kind : Kind} {value? : Option Value} {hint : RangeHint}
    {value : Value} (hp : Spec.parse text = .ok ⟨name, kind⟩)
    (hfit : ∀ v, value? = some v → v.fits kind = true)
    (hvalue : (s.valueFor kind value?).1 = some value) :
    (Step.after ⟨s, .add text value? hint⟩).table[name]?
      = some (.bindings (({} : Slots).set kind value)) := by
  rw [(Step.add_of_fits hp value? hint hfit).2, table_place, hvalue, bound_of_stub hstub]

/-- To declare the callable leaves the stub in place. -/
theorem declare_of_stub {text : String} {hint : RangeHint}
    (hp : Spec.parse text = .ok ⟨name, .callable⟩) :
    (Step.after ⟨s, .add text none hint⟩).table = s.table := by
  rw [(Step.add_of_fits hp none hint (by simp)).2, table_place]
  exact SymbolTable.bound_none_of_isStub s.table (isStub_of_stub hstub)

/-- A vivifying read of the callable finds it, and leaves the stub in place. -/
theorem vivify_callable_of_stub {text : String} (hp : Spec.parse text = .ok ⟨name, .callable⟩) :
    (Step.after ⟨s, .vivify text⟩).table = s.table := by
  rw [Step.after_vivify, vivify_run, hp]
  simp only [reading_of_stub hstub]
  rfl

/-- A vivifying read of another kind finds nothing, and what it makes stands alone. -/
theorem vivify_of_stub {text : String} {kind : Kind} (hkind : kind ≠ .callable)
    (hp : Spec.parse text = .ok ⟨name, kind⟩) :
    ∃ value, Step.result ⟨s, .vivify text⟩ = .ok (.value (some value)) ∧
      (Step.after ⟨s, .vivify text⟩).table[name]?
        = some (.bindings (({} : Slots).set kind value)) := by
  have habsent : s.table.reading? ⟨name, kind⟩ = none := by
    rw [reading_of_stub hstub, if_neg hkind]
  cases hmade : (s.newEmpty kind).1 with
  | none => exact absurd (s.newEmpty_eq_none_iff.mp hmade) hkind
  | some value =>
      obtain ⟨hresult, htable⟩ := vivify_binds hp habsent hmade
      exact ⟨value, hresult, by rw [htable, bound_of_stub hstub]⟩

/-- While a name has a stub, its callable alone is bound. -/
theorem reads_of_stub {text : String} {kind : Kind}
    (hp : Spec.parse text = .ok ⟨name, kind⟩) :
    Step.result ⟨s, .has text⟩ = .ok (.answer (kind == .callable)) ∧
      ∃ value?, Step.result ⟨s, .find text⟩ = .ok (.value value?) ∧
        (value?.isSome = true ↔ kind = .callable) := by
  refine ⟨?_, (s.lookup ⟨name, kind⟩).1, ?_, ?_⟩
  · rw [Step.result_has, has_run, hp]
    show Except.ok (Reply.answer (s.table.has ⟨name, kind⟩)) = _
    rw [has_of_stub hstub]
  · rw [Step.result_find, find_run, hp]
    rfl
  · rw [lookup_eq, reading_of_stub hstub]
    by_cases hkind : kind = .callable
    · simp [hkind]
    · simp [hkind]

end Stub

/-! ### Operations that fail -/

/-- What fails leaves a stub in place. -/
theorem stub_of_error {operation : Operation Value} {name : String} {raw : Value} {e : BindError}
    (hstub : s.table[name]? = some (.stub raw))
    (hfails : Step.result ⟨s, operation⟩ = .error e) :
    (Step.after ⟨s, operation⟩).table[name]? = some (.stub raw) := by
  cases operation with
  | add text value? hint => rw [Step.after_add_of_error hfails, hstub]
  | has text => rw [table_after_read rfl, hstub]
  | find text => rw [table_after_read rfl, hstub]
  | vivify text => rw [Step.after_vivify_of_error hfails, hstub]
  | remove text =>
      cases hp : Spec.parse text with
      | error e =>
          rw [Step.after_remove, remove_run, hp]
          exact hstub
      | ok spec =>
          by_cases hname : name = spec.name
          · -- all that is bound again is the callable of the stub, which fits
            subst hname
            rw [(remove_of_stub hstub hp).1] at hfails
            cases hfails
          · rw [Step.after_remove, getElem?_remove_of_ne hp hname, hstub]
  | removeAll removed => cases hfails
  | names kind? => cases hfails
  | bindings kind => cases hfails

end Scope

/-! ### What one step does to a stub -/

namespace Step

variable {step : Step} {name : String} {raw : Value}

/-- A stub lasts through the steps that pass it. -/
theorem Passes.stub (hpasses : step.Passes name)
    (hstub : step.before.table[name]? = some (.stub raw)) :
    step.after.table[name]? = some (.stub raw) := by
  obtain ⟨s, operation⟩ := step
  cases hpasses with
  | read reads => rw [Scope.table_after_read reads, hstub]
  | refused fails => exact Scope.stub_of_error hstub fails
  | apart addressed apart => rw [Scope.getElem?_after_of_ne addressed (Ne.symm apart), hstub]
  | declared asked addressed =>
      obtain rfl := asked
      rw [Scope.declare_of_stub hstub addressed, hstub]
  | found asked addressed =>
      obtain rfl := asked
      rw [Scope.vivify_callable_of_stub hstub addressed, hstub]

/-- A step that ends a stub succeeds, and leaves what it says in its place. -/
theorem Ends.left {left : Option Entry} (hends : step.Ends name left)
    (hstub : step.before.table[name]? = some (.stub raw)) :
    (∃ reply, step.result = .ok reply) ∧ step.after.table[name]? = left := by
  obtain ⟨s, operation⟩ := step
  cases hends with
  | installed installs =>
      cases installs with
      | given asked addressed succeeds =>
          obtain rfl := asked
          refine ⟨⟨.done, succeeds⟩, ?_⟩
          exact Scope.add_of_stub hstub addressed ((result_add_iff addressed).mp succeeds) rfl
      | default asked addressed succeeds kind empty =>
          obtain rfl := asked
          exact ⟨⟨.done, succeeds⟩, Scope.add_of_stub hstub addressed (by simp) empty⟩
      | vivified asked addressed kind absent answered =>
          obtain rfl := asked
          refine ⟨⟨_, answered⟩, ?_⟩
          obtain ⟨value, hresult, hafter⟩ := Scope.vivify_of_stub hstub kind addressed
          rw [answered] at hresult
          cases hresult
          exact hafter
  | removed asked addressed another found =>
      obtain rfl := asked
      obtain ⟨hdone, hentry⟩ := Scope.remove_of_stub hstub addressed
      rw [Scope.lookup_of_stub hstub] at found
      rw [if_neg another, Option.some.inj found] at hentry
      exact ⟨⟨.done, hdone⟩, hentry⟩
  | withdrawn asked addressed =>
      obtain rfl := asked
      obtain ⟨hdone, hentry⟩ := Scope.remove_of_stub hstub addressed
      exact ⟨⟨.done, hdone⟩, hentry⟩
  | dropped asked =>
      obtain rfl := asked
      refine ⟨⟨_, rfl⟩, ?_⟩
      show (s.table.erase name)[name]? = none
      rw [Dict.getElem?_erase, if_pos rfl]

theorem Ends.no_stub {left : Option Entry} (hends : step.Ends name left) :
    left ≠ some (.stub raw) := by
  cases hends <;> simp

/-- What is asked of no name passes the stubs of all. -/
theorem passes_of_unaddressed {s : Scope} {operation : Operation Value}
    (hnone : operation.name? = none) : Passes ⟨s, operation⟩ name := by
  obtain hread | ⟨e, hrefused⟩ := Scope.read_or_refused_of_no_name (s := s) hnone
  · exact .read hread
  · refine .refused (e := e) ?_
    unfold result
    rw [hrefused]
    rfl

/-- What is asked of the name of a stub passes the stub or ends it. -/
theorem passes_or_ends_of_addressed {s : Scope} {operation : Operation Value}
    (haddressed : operation.name? = some name) (hstub : s.table[name]? = some (.stub raw)) :
    Passes ⟨s, operation⟩ name ∨ ∃ left, Ends ⟨s, operation⟩ name left := by
  cases operation with
  | add text value? hint =>
      obtain ⟨spec, hp, rfl⟩ := Scope.parse_of_name haddressed
      by_cases hfit : ∀ v, value? = some v → v.fits spec.kind = true
      · cases hvalue : (s.valueFor spec.kind value?).1 with
        | some value =>
            have hinstalls : Installs ⟨s, .add text value? hint⟩ spec value :=
              Scope.Plain.installs_add_iff.mpr ⟨hp, hfit, hvalue⟩
            exact Or.inr ⟨_, .installed hinstalls⟩
        | none =>
            obtain ⟨rfl, hkind⟩ := s.valueFor_eq_none_iff.mp hvalue
            exact Or.inl (.declared rfl (by rw [hp, ← hkind]))
      · obtain ⟨e, he, -⟩ := add_refused (s := s) hp hint hfit
        exact Or.inl (.refused he)
  | vivify text =>
      obtain ⟨spec, hp, rfl⟩ := Scope.parse_of_name haddressed
      by_cases hkind : spec.kind = .callable
      · exact Or.inl (.found rfl (by rw [hp, ← hkind]))
      · obtain ⟨value, hresult, -⟩ := Scope.vivify_of_stub hstub hkind hp
        have habsent : s.table.held spec = none := by
          simp [SymbolTable.held, Scope.slots_of_stub hstub]
        exact Or.inr ⟨_, .installed (.vivified rfl hp hkind habsent hresult)⟩
  | remove text =>
      obtain ⟨spec, hp, rfl⟩ := Scope.parse_of_name haddressed
      by_cases hkind : spec.kind = .callable
      · exact Or.inr ⟨none, .withdrawn rfl (by rw [hp, ← hkind])⟩
      · exact Or.inr ⟨_, .removed rfl hp hkind (Scope.lookup_of_stub hstub)⟩
  | removeAll removed =>
      obtain rfl : removed = name := by simpa [Operation.name?] using haddressed
      exact Or.inr ⟨none, .dropped rfl⟩
  | has text => exact Or.inl (.read rfl)
  | find text => exact Or.inl (.read rfl)
  | names kind? => cases haddressed
  | bindings kind => cases haddressed

/-- Every step passes a stub or ends it. -/
theorem passes_or_ends (hstub : step.before.table[name]? = some (.stub raw)) :
    step.Passes name ∨ ∃ left, step.Ends name left := by
  obtain ⟨s, operation⟩ := step
  cases hname : operation.name? with
  | none => exact Or.inl (passes_of_unaddressed hname)
  | some other =>
      by_cases hother : other = name
      · exact passes_or_ends_of_addressed (hother ▸ hname) hstub
      · exact Or.inl (.apart hname hother)

/-- A stub is there after a step if it was there before and the step does not end it. -/
theorem stub_after_iff :
    step.after.table[name]? = some (.stub raw) ↔
      step.before.table[name]? = some (.stub raw) ∧ ∀ left, ¬ step.Ends name left := by
  constructor
  · intro hafter
    have hbefore : step.before.table[name]? = some (.stub raw) := Scope.stub_of_after hafter
    refine ⟨hbefore, ?_⟩
    intro left hends
    rw [(hends.left hbefore).2] at hafter
    exact hends.no_stub hafter
  · intro hlasts
    obtain ⟨hbefore, hends⟩ := hlasts
    rcases passes_or_ends hbefore with hpasses | ⟨left, hleft⟩
    · exact hpasses.stub hbefore
    · exact absurd hleft (hends left)

end Step

/-! ### Whole runs -/

namespace Run

variable {s t : Scope} {steps : List Step} {name : String} {raw : Value}

/-- A stub is there after a run if it was there at the start and no step ended it. -/
theorem stub_iff (run : Run (fun _ => False) s steps t) :
    t.table[name]? = some (.stub raw) ↔
      s.table[name]? = some (.stub raw) ∧ ∀ step ∈ steps, ∀ left, ¬ step.Ends name left := by
  induction run with
  | start => simp
  | @step u steps run operation ih =>
      rw [Step.stub_after_iff, ih, and_assoc]
      refine and_congr_right fun _ => ?_
      constructor
      · intro hends step hstep
        rcases List.mem_append.mp hstep with hstep | hstep
        · exact hends.1 step hstep
        · rw [List.mem_singleton.mp hstep]
          exact hends.2
      · intro hends
        exact ⟨fun step hstep => hends step (by simp [hstep]), hends _ (by simp)⟩
  | edit _ edit he => exact he.elim
  | elsewhere _ world ih => exact ih

end Run

/--
**The life of a stub.**  In a run without edits a stub is there at the end exactly if it
was there at the start and no step ended it.  The first step that ends it succeeds and
leaves the name as it says.  No step makes a stub; one that is there lasts through every
step that passes it, and there are no other steps than these two.  While it is there, the
callable of its name is bound, and no other kind.
-/
theorem stub_life_cycle {s t : Scope} {steps : List Step} (run : Run (fun _ => False) s steps t)
    (name : String) (raw : Value) :
    (t.table[name]? = some (.stub raw) ↔
      s.table[name]? = some (.stub raw) ∧ ∀ step ∈ steps, ∀ left, ¬ step.Ends name left) ∧
    (∀ earlier step later left, steps = earlier ++ step :: later →
      s.table[name]? = some (.stub raw) →
      (∀ step' ∈ earlier, ∀ left', ¬ step'.Ends name left') → step.Ends name left →
        (∃ reply, step.result = .ok reply) ∧ step.after.table[name]? = left) ∧
    (∀ step ∈ steps,
      (step.after.table[name]? = some (.stub raw) →
        step.before.table[name]? = some (.stub raw)) ∧
      (step.before.table[name]? = some (.stub raw) → step.Passes name →
        step.after.table[name]? = some (.stub raw)) ∧
      (step.before.table[name]? = some (.stub raw) →
        step.Passes name ∨ ∃ left, step.Ends name left)) ∧
    (t.table[name]? = some (.stub raw) → ∀ text kind, Spec.parse text = .ok ⟨name, kind⟩ →
      Step.result ⟨t, .has text⟩ = .ok (.answer (kind == .callable)) ∧
        ∃ value?, Step.result ⟨t, .find text⟩ = .ok (.value value?) ∧
          (value?.isSome = true ↔ kind = .callable)) := by
  refine ⟨run.stub_iff, ?_, ?_, fun hstub _ _ => Scope.reads_of_stub hstub⟩
  · intro earlier step later left hsteps hstart hlasts hends
    subst hsteps
    exact hends.left (run.before.stub_iff.mpr ⟨hstart, hlasts⟩)
  · intro step _
    refine ⟨?_, fun hstub hpasses => hpasses.stub hstub, Step.passes_or_ends⟩
    intro hafter
    exact Scope.stub_of_after hafter

/-- A stub that was declared and read again is left as a callable when the scalar is removed. -/
theorem stub_removed_as_scalar :
    ∃ steps t, Run (fun _ => False)
        ⟨⟨"main", (∅ : SymbolTable).insert "x" (.stub (.int 1)), ⟨0⟩⟩, {}⟩ steps t ∧
      steps.map Step.operation = [.add "&x" none {}, .vivify "&x", .remove "$x"] ∧
      t.table["x"]? = some (.bindings (({} : Slots).set .callable (.callable ⟨1⟩))) := by
  have run := (Run.start : Run (fun _ => False)
      ⟨⟨"main", (∅ : SymbolTable).insert "x" (.stub (.int 1)), ⟨0⟩⟩, {}⟩ [] _)
    |>.step (.add "&x" none {}) |>.step (.vivify "&x")
  obtain ⟨-, hlasts⟩ := (stub_life_cycle run "x" (.int 1)).1.mp rfl
  have run' := run.step (.remove "$x")
  have hends := (stub_life_cycle run' "x" (.int 1)).2.1 _ _ [] _ rfl rfl hlasts
    (.removed rfl rfl (by decide) rfl)
  exact ⟨_, _, run', rfl, hends.2⟩

end Bindery
