/-
What fills a slot.

Two operations fill a slot: a binding, with the value that is given or with the empty one, and a
vivifying read where nothing is found.  Whatever entry the name had, to fill one of its slots comes
to the same: the name has slots, this one holds the value, and the others hold what they held, or
nothing if the name was unbound or had a stub (`SymbolTable.Replaces`).

What is read depends on the entry of the name alone.  So a slot that is filled is found, and it is
found again as long as the entry stays, which it does through all that is asked of other names or
only reads, and through any number of vivifying reads, since these find it too.
-/
import Bindery.Proofs.Namespace.Request
import Bindery.Proofs.Namespace.Supplies

namespace Bindery

/-! ### One slot that is filled -/

/-- A table in which a slot holds another value, and all else is as in the table before. -/
structure SymbolTable.Replaces (table : SymbolTable) (spec : Spec) (value : Value)
    (after : SymbolTable) : Prop where
  /-- The slot holds the value, and the others what they held, if the name had slots. -/
  entry : ∃ slots, after[spec.name]? = some (.bindings slots) ∧
    slots.get spec.kind = some value ∧
    (∀ old, table[spec.name]? = some (.bindings old) →
      ∀ kind, kind ≠ spec.kind → slots.get kind = old.get kind) ∧
    ((∀ old, table[spec.name]? ≠ some (.bindings old)) →
      ∀ kind, kind ≠ spec.kind → slots.get kind = none)
  others : ∀ other, other ≠ spec.name → after[other]? = table[other]?

/-- To bind a value fills one slot. -/
theorem SymbolTable.replaces_bound (table : SymbolTable) (spec : Spec) (value : Value) :
    table.Replaces spec value (table.bound spec (some value)) := by
  refine ⟨⟨(table.slots spec.name).set spec.kind value, ?_, ?_, ?_, ?_⟩, ?_⟩
  · rw [bound, Dict.getElem?_insert, if_pos rfl]
  · rw [Slots.get_set, if_pos rfl]
  · intro old hold kind hkind
    rw [Slots.get_set, if_neg hkind, SymbolTable.slots, hold]
    rfl
  · intro hnone kind hkind
    have hslots : table.slots spec.name = {} := by
      rw [SymbolTable.slots]
      cases hentry : table[spec.name]? with
      | none => rfl
      | some entry =>
          cases entry with
          | bindings old => exact absurd hentry (hnone old)
          | stub raw => rfl
    rw [Slots.get_set, if_neg hkind, hslots, Slots.get_empty]
  · intro other hother
    exact getElem?_bound_of_ne table hother (some value)

/-- Between two heaps the empty value of a kind is made: undefined, or a new cell that is blank. -/
inductive Heap.MakesEmpty (before after : Heap) : Kind → Value → Prop where
  | scalar : MakesEmpty before after .scalar .undefined
  | cell {kind : Kind} {value : Value} (needed : kind.needsCell = true)
      (fits : value.fits kind = true) (fresh : before.Fresh value) (blank : after.Blank value) :
      MakesEmpty before after kind value

/-- Every kind but callable has an empty value. -/
theorem Heap.makesEmpty_newEmpty (h : Heap) {kind : Kind} (hkind : kind ≠ .callable) :
    ∃ value, (h.newEmpty kind).1 = some value ∧ h.MakesEmpty (h.newEmpty kind).2 kind value := by
  by_cases hscalar : kind = .scalar
  · rw [hscalar]
    exact ⟨.undefined, rfl, .scalar⟩
  · obtain ⟨value, hmade, hfits, hfresh, hblank⟩ := h.newEmpty_fresh hscalar hkind
    refine ⟨value, hmade, .cell ?_ hfits hfresh hblank⟩
    cases kind with
    | scalar => exact absurd rfl hscalar
    | callable => exact absurd rfl hkind
    | _ => rfl

namespace Scope

/-- A spec reads as a value, which counts unless it is an undefined scalar. -/
structure Reads (s : Scope) (text : String) (kind : Kind) (value : Value) : Prop where
  found : Step.result ⟨s, .find text⟩ = .ok (.value (some value))
  counts : ∃ counted, Step.result ⟨s, .has text⟩ = .ok (.answer counted) ∧
    (counted = true ↔ kind ≠ .scalar ∨ value ≠ .undefined)

variable {s : Scope} {text : String} {spec : Spec} {value : Value}

/-- What a slot holds is read. -/
theorem reads_of_entry {slots : Slots} (hp : Spec.parse text = .ok spec)
    (hentry : s.table[spec.name]? = some (.bindings slots))
    (hvalue : slots.get spec.kind = some value) : s.Reads text spec.kind value := by
  have hreading : s.table.reading? spec = some (.held value) := by
    simp [SymbolTable.reading?, hentry, Entry.reading?, hvalue]
  have hstub : s.table.isStub spec.name = false := by
    rw [SymbolTable.isStub, hentry]
    rfl
  have hheld : s.table.held spec = some value := by
    simpa [SymbolTable.held, SymbolTable.slots, hentry, Entry.slots?] using hvalue
  refine ⟨?_, s.table.has spec, ?_, ?_⟩
  · rw [Step.result_find, find_run, hp]
    simp only [lookup_eq, hreading]
    rfl
  · rw [Step.result_has, has_run, hp]
    rfl
  · have hdefined : value.isDefined = true ↔ value ≠ .undefined := by
      cases value <;> simp [Value.isDefined]
    rw [SymbolTable.has_iff_held _ hstub, hheld]
    simp only [Option.some.injEq, exists_eq_left', hdefined]
    exact imp_iff_not_or

/--
From one scope to another a slot is filled with a value, and nothing else is different in the
table.  Wherever the table is as it is left, the value is read.
-/
structure Fills (s : Scope) (text : String) (spec : Spec) (value : Value) (after : Scope) :
    Prop where
  replaces : s.table.Replaces spec value after.table
  reads : ∀ later : Scope, later.table = after.table → later.Reads text spec.kind value

theorem fills_of_bound {after : Scope} (hp : Spec.parse text = .ok spec)
    (htable : after.table = s.table.bound spec (some value)) : s.Fills text spec value after := by
  have hreplaces : s.table.Replaces spec value after.table :=
    htable ▸ s.table.replaces_bound spec value
  obtain ⟨slots, hentry, hvalue, -⟩ := hreplaces.entry
  exact ⟨hreplaces, fun later hlater => reads_of_entry hp (hlater ▸ hentry) hvalue⟩

/-! ### Bindings -/

section Bindings

variable (hp : Spec.parse text = .ok spec) (hint : RangeHint)
include hp

/-- A value that is given and fits fills its slot. -/
theorem add_given (hfits : value.fits spec.kind = true) :
    Step.result ⟨s, .add text (some value) hint⟩ = .ok .done ∧
      s.Fills text spec value (Step.after ⟨s, .add text (some value) hint⟩) := by
  obtain ⟨hresult, hafter⟩ := Step.add_of_fits (s := s) hp (some value) hint
    (by simpa using hfits)
  rw [hafter]
  exact ⟨hresult, fills_of_bound hp (s.table_place spec (some value) (.caller hint))⟩

/-- Where no value is given, the empty value of the kind fills the slot, if the kind has one. -/
theorem add_empty (hkind : spec.kind ≠ .callable) :
    Step.result ⟨s, .add text none hint⟩ = .ok .done ∧
      ∃ value, s.world.heap.MakesEmpty (Step.after ⟨s, .add text none hint⟩).world.heap
          spec.kind value ∧
        s.Fills text spec value (Step.after ⟨s, .add text none hint⟩) := by
  obtain ⟨hresult, hafter⟩ := Step.add_of_fits (s := s) hp none hint (by simp)
  obtain ⟨value, hmade, hempty⟩ := s.world.heap.makesEmpty_newEmpty hkind
  have hvalue : (s.valueFor spec.kind none).1 = some value := hmade
  rw [hafter]
  refine ⟨hresult, value, ?_, fills_of_bound hp ?_⟩
  · rw [heap_place]
    exact hempty
  · rw [table_place, hvalue]

/-- A callable that is declared gives an unbound name empty slots, and changes no entry. -/
theorem add_declared (hkind : spec.kind = .callable) :
    Step.result ⟨s, .add text none hint⟩ = .ok .done ∧
      (s.table[spec.name]? = none →
        (Step.after ⟨s, .add text none hint⟩).table[spec.name]? = some (.bindings {})) ∧
      ∀ entry, s.table[spec.name]? = some entry →
        (Step.after ⟨s, .add text none hint⟩).table = s.table := by
  obtain ⟨hresult, hafter⟩ := Step.add_of_fits (s := s) hp none hint (by simp)
  have hvalue : (s.valueFor spec.kind none).1 = none := s.valueFor_eq_none_iff.mpr ⟨rfl, hkind⟩
  have htable : (Step.after ⟨s, .add text none hint⟩).table = s.table.bound spec none := by
    rw [hafter, table_place, hvalue]
  refine ⟨hresult, ?_, ?_⟩
  · intro hunbound
    rw [htable, SymbolTable.bound, Dict.contains_eq, hunbound, if_neg (by simp),
      Dict.getElem?_insert, if_pos rfl]
  · intro entry hentry
    rw [htable, SymbolTable.bound, Dict.contains_eq, hentry, if_pos (by rfl)]

end Bindings

/-! ### Vivifying reads -/

section Vivify

variable (hp : Spec.parse text = .ok spec)
include hp

/-- What is held is answered, and nothing happens. -/
theorem vivify_held (hreading : s.table.reading? spec = some (.held value)) :
    Step.result ⟨s, .vivify text⟩ = .ok (.value (some value)) ∧
      Step.after ⟨s, .vivify text⟩ = s := by
  have hrun : (Scope.vivify text).run s = .ok value s := by
    rw [vivify_run, hp]
    simp only [hreading]
    rfl
  rw [Step.result_vivify, Step.after_vivify, hrun]
  exact ⟨rfl, rfl⟩

/-- Where nothing is found the empty value is answered, and it fills the slot. -/
theorem vivify_fills (habsent : s.table.reading? spec = none) (hkind : spec.kind ≠ .callable) :
    ∃ value, Step.result ⟨s, .vivify text⟩ = .ok (.value (some value)) ∧
      s.world.heap.MakesEmpty (Step.after ⟨s, .vivify text⟩).world.heap spec.kind value ∧
      s.Fills text spec value (Step.after ⟨s, .vivify text⟩) := by
  obtain ⟨value, hmade, hempty⟩ := s.world.heap.makesEmpty_newEmpty hkind
  obtain ⟨hresult, htable⟩ := vivify_binds hp habsent hmade
  refine ⟨value, hresult, ?_, fills_of_bound hp htable⟩
  rw [s.heap_vivify hp habsent hmade]
  exact hempty

/-- What is found is held, or the callable of a stub. -/
theorem find_cases {value : Value}
    (hfound : Step.result ⟨s, .find text⟩ = .ok (.value (some value))) :
    s.table.reading? spec = some (.held value) ∨
      ∃ raw, s.table[spec.name]? = some (.stub raw) ∧ spec.kind = .callable := by
  rw [Step.result_find, find_run, hp] at hfound
  simp only [lookup_eq] at hfound
  cases hreading : s.table.reading? spec with
  | none =>
      rw [hreading] at hfound
      cases hfound
  | some reading =>
      cases reading with
      | held v =>
          rw [hreading] at hfound
          cases hfound
          exact Or.inl rfl
      | declared raw =>
          obtain ⟨slots, v, -, -, hheld⟩ | ⟨_, hstub, hkind, -⟩ := s.table.reading?_eq_some hreading
          · cases hheld
          · exact Or.inr ⟨_, hstub, hkind⟩

/-- After a vivifying read, unless of the callable of a stub, the slot holds what was answered. -/
theorem entry_of_vivified (hanswer : Step.result ⟨s, .vivify text⟩ = .ok (.value (some value)))
    (hnot : spec.kind = .callable → ∀ raw, s.table[spec.name]? ≠ some (.stub raw)) :
    ∃ slots, (Step.after ⟨s, .vivify text⟩).table[spec.name]? = some (.bindings slots) ∧
      slots.get spec.kind = some value := by
  cases hreading : s.table.reading? spec with
  | some reading =>
      rcases s.table.reading?_eq_some hreading with
        ⟨slots, v, hentry, hvalue, rfl⟩ | ⟨raw, hstub, hkind, -⟩
      · obtain ⟨hresult, hafter⟩ := vivify_held hp hreading
        rw [hresult] at hanswer
        cases hanswer
        rw [hafter]
        exact ⟨slots, hentry, hvalue⟩
      · exact absurd hstub (hnot hkind raw)
  | none =>
      by_cases hkind : spec.kind = .callable
      · have hrefused : (s.newEmpty spec.kind).1 = none := s.newEmpty_eq_none_iff.mpr hkind
        rw [Step.result_vivify, vivify_run, hp] at hanswer
        simp only [hreading, hrefused] at hanswer
        cases hanswer
      · obtain ⟨v, hresult, -, hfills⟩ := vivify_fills hp hreading hkind
        rw [hresult] at hanswer
        cases hanswer
        obtain ⟨slots, hentry, hvalue, -⟩ := hfills.replaces.entry
        exact ⟨slots, hentry, hvalue⟩

/-- What is not found is not there to be read. -/
theorem reading_of_not_found (hfound : Step.result ⟨s, .find text⟩ = .ok (.value none)) :
    s.table.reading? spec = none := by
  rw [Step.result_find, find_run, hp] at hfound
  simp only [lookup_eq] at hfound
  cases hreading : s.table.reading? spec with
  | none => rfl
  | some reading =>
      rw [hreading] at hfound
      cases hfound

end Vivify

/-- A vivifying read of the callable of a stub answers. -/
theorem vivify_answers_of_stub {name : String} {raw : Value}
    (hstub : s.table[name]? = some (.stub raw)) (hp : Spec.parse text = .ok ⟨name, .callable⟩) :
    ∃ value, Step.result ⟨s, .vivify text⟩ = .ok (.value (some value)) := by
  refine ⟨(s.read ⟨name, .callable⟩ (.declared raw)).1, ?_⟩
  rw [Step.result_vivify, vivify_run, hp]
  simp only [reading_of_stub hstub, if_pos]
  rfl

/-- What is answered of the callable of a stub answers what the stub does. -/
theorem answers_of_stub {name : String} {raw : Value} {operation : Operation Value}
    (hstub : s.table[name]? = some (.stub raw)) (hseeks : operation.Seeks name)
    (hresult : Step.result ⟨s, operation⟩ = .ok (.value (some value))) :
    ∃ c, value = .callable c ∧ (Step.after ⟨s, operation⟩).world.heap.Answers c
      (s.world.heap.stubAnswer raw (s.qualify name)) := by
  obtain ⟨c, hobtains, -, -, hbody⟩ := obtains_made hstub hseeks
  exact ⟨c, (hobtains value).mp (.answered hresult), Heap.answers_of_stubBody hbody⟩

end Scope

/--
**A binding replaces one slot and nothing else.**  A value that fits, or the empty value if none is
given, fills the slot of its kind, whatever entry the name had, and is read from then on.  A
callable has no empty value: to declare one gives an unbound name empty slots and changes nothing
otherwise.  What does not fit is refused, and nothing happens.  The entries of other names stay.
-/
theorem add_replaces_one_slot {s : Scope} {text : String} {spec : Spec}
    (hp : Spec.parse text = .ok spec) (hint : RangeHint) :
    (∀ value, value.fits spec.kind = true →
      Step.result ⟨s, .add text (some value) hint⟩ = .ok .done ∧
        s.Fills text spec value (Step.after ⟨s, .add text (some value) hint⟩)) ∧
    (spec.kind ≠ .callable →
      Step.result ⟨s, .add text none hint⟩ = .ok .done ∧
        ∃ value, s.world.heap.MakesEmpty (Step.after ⟨s, .add text none hint⟩).world.heap
            spec.kind value ∧
          s.Fills text spec value (Step.after ⟨s, .add text none hint⟩)) ∧
    (spec.kind = .callable →
      Step.result ⟨s, .add text none hint⟩ = .ok .done ∧
        (s.table[spec.name]? = none →
          (Step.after ⟨s, .add text none hint⟩).table[spec.name]? = some (.bindings {})) ∧
        ∀ entry, s.table[spec.name]? = some entry →
          (Step.after ⟨s, .add text none hint⟩).table = s.table) ∧
    (∀ value, value.fits spec.kind = false →
      Step.result ⟨s, .add text (some value) hint⟩
          = .error (.typeMismatch (s.qualify spec.name) spec.kind value.typeName) ∧
        Step.after ⟨s, .add text (some value) hint⟩ = s) ∧
    ∀ value? other, other ≠ spec.name →
      (Step.after ⟨s, .add text value? hint⟩).table[other]? = s.table[other]? := by
  refine ⟨fun value => Scope.add_given hp hint, Scope.add_empty hp hint,
    Scope.add_declared hp hint, fun value => Step.add_of_misfit hp hint, ?_⟩
  intro value? other hother
  exact Scope.getElem?_after_of_ne (by rw [Operation.name?, hp]; rfl) hother

/-- An empty sequence takes the place of a stub, and nothing else is held under the name. -/
theorem stub_replaced_by_sequence :
    ∃ s : Scope, s.table["x"]? = some (.stub (.int 1)) ∧
      Step.result ⟨s, .add "@x" none {}⟩ = .ok .done ∧
      ∃ slots value, (Step.after ⟨s, .add "@x" none {}⟩).table["x"]? = some (.bindings slots) ∧
        slots.get .sequence = some value ∧ slots.get .callable = none := by
  let s : Scope := ⟨⟨"main", (∅ : SymbolTable).insert "x" (.stub (.int 1)), ⟨0⟩⟩, {}⟩
  obtain ⟨-, hempty, -⟩ := @add_replaces_one_slot s "@x" ⟨"x", .sequence⟩ rfl {}
  obtain ⟨hdone, value, -, hfills⟩ := hempty (by decide)
  obtain ⟨slots, hentry, hvalue, -, halone⟩ := hfills.replaces.entry
  have hstub : s.table["x"]? = some (.stub (.int 1)) := rfl
  have hcallable : slots.get .callable = none :=
    halone (fun old hold => by rw [hstub] at hold; cases hold) .callable (by decide)
  exact ⟨s, hstub, hdone, slots, value, hentry, hvalue, hcallable⟩

/-! ### Vivifying reads one after the other -/

/-- What a step does that leaves a binding in place: it reads, or is asked of another name. -/
def Operation.Leaves (name : String) (operation : Operation Value) : Prop :=
  operation.isRead = true ∨ operation.name? ≠ some name

section Again

variable {s t : Scope} {text : String} {spec : Spec} {slots : Slots} {value : Value}
  (hp : Spec.parse text = .ok spec) (hvalue : slots.get spec.kind = some value)
include hp hvalue

/-- A vivifying read of a slot that holds a value answers it, and nothing happens. -/
theorem Scope.vivify_again (hentry : s.table[spec.name]? = some (.bindings slots)) :
    Step.result ⟨s, .vivify text⟩ = .ok (.value (some value)) ∧
      Step.after ⟨s, .vivify text⟩ = s := by
  refine vivify_held hp ?_
  simp [SymbolTable.reading?, hentry, Entry.reading?, hvalue]

/-- An entry stays through what leaves it and through vivifying reads of a slot that is filled. -/
theorem Run.entry_stays {steps : List Step}
    (hentry : s.table[spec.name]? = some (.bindings slots))
    (run : Run (fun edit => edit.name ≠ spec.name) s steps t)
    (hsteps : ∀ step ∈ steps,
      step.operation = .vivify text ∨ step.operation.Leaves spec.name) :
    t.table[spec.name]? = some (.bindings slots) := by
  -- a vivifying read changes nothing as long as the entry is there, so the entry is what is carried
  induction run with
  | start => exact hentry
  | @step u steps run operation ih =>
      have hbefore := ih fun step hstep => hsteps step (by simp [hstep])
      rcases hsteps ⟨u, operation⟩ (by simp) with hvivify | hread | hapart
      · obtain rfl : operation = .vivify text := hvivify
        rw [(Scope.vivify_again hp hvalue hbefore).2]
        exact hbefore
      · rw [Scope.table_after_read hread]
        exact hbefore
      · cases hname : operation.name? with
        | none =>
            rw [Scope.table_after_of_no_name hname]
            exact hbefore
        | some other =>
            have hother : spec.name ≠ other := by
              rintro rfl
              exact hapart hname
            rw [Scope.getElem?_after_of_ne hname hother]
            exact hbefore
  | edit run edit hedit ih =>
      rw [Asked.getElem?_edit_of_ne _ (Ne.symm hedit)]
      exact ih hsteps
  | elsewhere run world ih => exact ih hsteps

/-- Each vivifying read on the way answers the same value, and nothing happens. -/
theorem Run.vivify_steps {steps : List Step}
    (hentry : s.table[spec.name]? = some (.bindings slots))
    (run : Run (fun edit => edit.name ≠ spec.name) s steps t)
    (hsteps : ∀ step ∈ steps,
      step.operation = .vivify text ∨ step.operation.Leaves spec.name) :
    ∀ step ∈ steps, step.operation = .vivify text →
      step.result = .ok (.value (some value)) ∧ step.after = step.before := by
  intro step hstep hvivify
  obtain ⟨earlier, later, rfl⟩ := List.append_of_mem hstep
  have hbefore := run.before.entry_stays hp hvalue hentry fun step' hstep' =>
    hsteps step' (by simp [hstep'])
  obtain ⟨before, operation⟩ := step
  obtain rfl : operation = .vivify text := hvivify
  exact Scope.vivify_again hp hvalue hbefore

end Again

/--
**Vivifying reads are stable.**  What is found is answered, and the table stays as it is; of a stub
another callable is answered, which answers what the stub does.  Where nothing is found, and the
kind has an empty value, that is answered, and it fills the slot.  Unless the callable of a stub
was read, what was answered is found from then on, and every further vivifying read answers it and
changes nothing, for as long as all else that is done only reads or concerns other names.
-/
theorem vivifying_reads_stable {s : Scope} {text : String} {spec : Spec}
    (hp : Spec.parse text = .ok spec) :
    (∀ value, Step.result ⟨s, .find text⟩ = .ok (.value (some value)) →
      (Step.after ⟨s, .vivify text⟩).table = s.table ∧
      ((∀ raw, s.table[spec.name]? ≠ some (.stub raw)) →
        Step.result ⟨s, .vivify text⟩ = .ok (.value (some value))) ∧
      ∀ raw, s.table[spec.name]? = some (.stub raw) →
        ∃ c c', value = .callable c ∧
          Step.result ⟨s, .vivify text⟩ = .ok (.value (some (.callable c'))) ∧
          (Step.after ⟨s, .find text⟩).world.heap.Answers c
            (s.world.heap.stubAnswer raw (s.qualify spec.name)) ∧
          (Step.after ⟨s, .vivify text⟩).world.heap.Answers c'
            (s.world.heap.stubAnswer raw (s.qualify spec.name))) ∧
    (Step.result ⟨s, .find text⟩ = .ok (.value none) → spec.kind ≠ .callable →
      ∃ value, Step.result ⟨s, .vivify text⟩ = .ok (.value (some value)) ∧
        s.world.heap.MakesEmpty (Step.after ⟨s, .vivify text⟩).world.heap spec.kind value ∧
        s.Fills text spec value (Step.after ⟨s, .vivify text⟩)) ∧
    ∀ value, Step.result ⟨s, .vivify text⟩ = .ok (.value (some value)) →
      (spec.kind = .callable → ∀ raw, s.table[spec.name]? ≠ some (.stub raw)) →
      ∀ steps t, Run (fun edit => edit.name ≠ spec.name) (Step.after ⟨s, .vivify text⟩) steps t →
        (∀ step ∈ steps, step.operation = .vivify text ∨ step.operation.Leaves spec.name) →
        t.Reads text spec.kind value ∧
          ∀ step ∈ steps, step.operation = .vivify text →
            step.result = .ok (.value (some value)) ∧ step.after = step.before := by
  refine ⟨?_, ?_, ?_⟩
  · intro value hfound
    rcases Scope.find_cases hp hfound with hreading | ⟨raw, hstub, hkind⟩
    · obtain ⟨hanswer, hafter⟩ := Scope.vivify_held hp hreading
      refine ⟨by rw [hafter], fun _ => hanswer, ?_⟩
      intro raw hstub
      rw [s.table.reading?_of_stub hstub] at hreading
      split at hreading <;> cases hreading
    · obtain ⟨name, kind⟩ := spec
      obtain rfl : kind = .callable := hkind
      refine ⟨Scope.vivify_callable_of_stub hstub hp, fun hnone => absurd hstub (hnone raw), ?_⟩
      intro raw' hstub'
      obtain ⟨c, hc, hanswers⟩ := Scope.answers_of_stub hstub' (.find hp) hfound
      obtain ⟨value', hanswer⟩ := Scope.vivify_answers_of_stub hstub' hp
      obtain ⟨c', rfl, hanswers'⟩ := Scope.answers_of_stub hstub' (.vivify hp) hanswer
      exact ⟨c, c', hc, hanswer, hanswers, hanswers'⟩
  · intro hfound hkind
    exact Scope.vivify_fills hp (Scope.reading_of_not_found hp hfound) hkind
  · intro value hanswer hnot steps t run hsteps
    obtain ⟨slots, hentry, hvalue⟩ := Scope.entry_of_vivified hp hanswer hnot
    exact ⟨Scope.reads_of_entry hp (run.entry_stays hp hvalue hentry hsteps) hvalue,
      run.vivify_steps hp hvalue hentry hsteps⟩

/-- An undefined scalar that a vivifying read has made is found by the next, and does not count. -/
theorem undefined_vivified_once :
    ∃ s t : Scope, ∃ steps, s.table = ∅ ∧
      Run (fun edit => edit.name ≠ "x") (Step.after ⟨s, .vivify "$x"⟩) steps t ∧
      steps.map Step.operation = [.add "@y" none {}, .vivify "$x"] ∧
      t.Reads "$x" .scalar .undefined ∧
      ∀ step ∈ steps, step.operation = .vivify "$x" → step.after = step.before := by
  let s : Scope := ⟨⟨"main", ∅, ⟨0⟩⟩, {}⟩
  have run := (Run.start : Run (fun edit => edit.name ≠ "x") (Step.after ⟨s, .vivify "$x"⟩) [] _)
    |>.step (.add "@y" none {}) |>.step (.vivify "$x")
  obtain ⟨-, -, hstable⟩ := @vivifying_reads_stable s "$x" ⟨"x", .scalar⟩ rfl
  obtain ⟨hreads, hagain⟩ := hstable .undefined rfl nofun _ _ run (by
    intro step hstep
    rcases List.mem_cons.mp hstep with rfl | hstep
    · exact Or.inr (Or.inr (by decide))
    · obtain rfl := List.mem_singleton.mp hstep
      exact Or.inl rfl)
  exact ⟨s, _, _, rfl, run, rfl, hreads, fun step hstep hvivify => (hagain step hstep hvivify).2⟩

end Bindery
