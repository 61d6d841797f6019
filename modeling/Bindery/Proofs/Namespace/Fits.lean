/-
Every slot holds a value that fits its kind.

Slots take any value, and only `Scope.bind` asks whether a value fits.  Values also
reach slots by other ways: the empty value that is bound where none is given, the one
that a vivifying read makes, and what a removal reads and binds again, among it the
callable that a stub stands for.  `Fits` is kept by all of them, so a namespace that
is only edited with fitting values never holds another kind of value than it should.

A consequence is that a removal always succeeds there: it fails only on a sibling
that does not fit.
-/
import Bindery.Proofs.Namespace.Apart

namespace Bindery

/-- Every slot holds a value that fits its kind. -/
def Slots.Fits (slots : Slots) : Prop :=
  ∀ kind value, slots.get kind = some value → value.fits kind = true

/-- The slots of an entry fit.  A stub has none. -/
def Entry.Fits : Entry → Prop
  | .bindings slots => slots.Fits
  | .stub _ => True

/-- Every entry fits. -/
def SymbolTable.Fits (table : SymbolTable) : Prop :=
  ∀ (name : String) (entry : Entry), table[name]? = some entry → entry.Fits

/-- An edit brings only values that fit. -/
def Edit.Fits : Edit Value → Prop
  | .insert _ draft => draft.toEntry.Fits
  | .setSlot _ kind value => value.fits kind = true
  | .plantStub .. | .clearSlot .. | .openSlots _ | .erase _ => True

/-- What is found reads as a value of a kind. -/
def Reading.Fits : Reading → Kind → Prop
  | .held value, kind => value.fits kind = true
  | .declared _, kind => kind = .callable

namespace SymbolTable

variable {table : SymbolTable}

/-- A table fits when all that its slots hold does. -/
theorem fits_iff_held :
    table.Fits ↔ ∀ spec value, table.held spec = some value → value.fits spec.kind = true := by
  constructor
  · intro h spec value hv
    unfold held SymbolTable.slots at hv
    cases he : table[spec.name]? with
    | none => simp [he] at hv
    | some entry =>
        cases entry with
        | stub raw => simp [he, Entry.slots?] at hv
        | bindings slots =>
            have hslots : slots.Fits := h spec.name (.bindings slots) he
            exact hslots spec.kind value (by simpa [he, Entry.slots?] using hv)
  · intro h name entry he
    cases entry with
    | stub raw => trivial
    | bindings slots =>
        intro kind value hv
        exact h ⟨name, kind⟩ value (by simpa [held, SymbolTable.slots, he, Entry.slots?] using hv)

theorem fits_empty : SymbolTable.Fits ∅ := by
  intro name entry he
  simp at he

theorem Fits.insert (h : table.Fits) (name : String) {entry : Entry} (he : entry.Fits) :
    SymbolTable.Fits (table.insert name entry) := by
  intro other entry' h'
  rw [Dict.getElem?_insert] at h'
  split at h'
  · cases h'
    exact he
  · exact h other entry' h'

theorem Fits.erase (h : table.Fits) (name : String) : SymbolTable.Fits (table.erase name) := by
  intro other entry he
  rw [Dict.getElem?_erase] at he
  split at he
  · cases he
  · exact h other entry he

theorem Fits.slots (h : table.Fits) (name : String) : (table.slots name).Fits := by
  intro kind value hv
  exact fits_iff_held.mp h ⟨name, kind⟩ value hv

theorem Fits.bound (h : table.Fits) (spec : Spec) {value? : Option Value}
    (hfit : ∀ v, value? = some v → v.fits spec.kind = true) : (table.bound spec value?).Fits := by
  rw [fits_iff_held] at h ⊢
  intro p v hv
  cases value? with
  | none =>
      rw [held_bound_none] at hv
      exact h p v hv
  | some value =>
      rw [held_bound_some] at hv
      split at hv
      · rename_i hp
        rw [hp]
        exact hfit v hv
      · exact h p v hv

/-- What is found in a table that fits reads as the kind it was looked for as. -/
theorem Fits.reading (h : table.Fits) {spec : Spec} {reading : Reading}
    (hr : table.reading? spec = some reading) : reading.Fits spec.kind := by
  cases hstub : table.isStub spec.name with
  | false =>
      rw [reading?_eq_held _ hstub, Option.map_eq_some_iff] at hr
      obtain ⟨value, hv, rfl⟩ := hr
      exact fits_iff_held.mp h spec value hv
  | true =>
      obtain ⟨entry, he, hs⟩ := (Option.any_eq_true _ _).mp hstub
      cases entry with
      | bindings slots => simp [Entry.isStub] at hs
      | stub raw =>
          rw [reading?_of_stub _ he] at hr
          split at hr
          · rename_i hkind
            cases hr
            exact hkind
          · cases hr

theorem Fits.readings (h : table.Fits) (specs : List Spec) :
    ∀ pair ∈ table.readings specs, pair.2.Fits pair.1.kind := by
  intro pair hpair
  unfold SymbolTable.readings at hpair
  obtain ⟨spec, -, hmap⟩ := List.mem_filterMap.mp hpair
  obtain ⟨reading, hr, rfl⟩ := Option.map_eq_some_iff.mp hmap
  exact h.reading hr

end SymbolTable

namespace Scope

variable {s : Scope}

/-! ### Values that are read fit -/

theorem fits_read {spec : Spec} {reading : Reading} (h : reading.Fits spec.kind) :
    (s.read spec reading).1.fits spec.kind = true := by
  cases reading with
  | held value => exact h
  | declared raw =>
      rw [show spec.kind = .callable from h]
      rfl

theorem fits_readAll {found : List (Spec × Reading)}
    (h : ∀ pair ∈ found, pair.2.Fits pair.1.kind) :
    ∀ pair ∈ (s.readAll found).1, pair.2.fits pair.1.kind = true := by
  induction found generalizing s with
  | nil => intro pair hpair; cases hpair
  | cons pair rest ih =>
      intro pair' hpair'
      rcases List.mem_cons.mp hpair' with rfl | hrest
      · exact fits_read (h pair (by simp))
      · exact ih (fun q hq => h q (by simp [hq])) pair' hrest

theorem fits_lookup (h : s.table.Fits) {spec : Spec} {value : Value}
    (hv : (s.lookup spec).1 = some value) : value.fits spec.kind = true := by
  rw [lookup_eq] at hv
  cases hr : s.table.reading? spec with
  | none => simp [hr] at hv
  | some reading =>
      rw [hr] at hv
      cases hv
      exact fits_read (h.reading hr)

/-! ### What moves and edits keep -/

/-- To bind what fits, and every other move, keeps a table that fits. -/
theorem kept_fits : Kept True fun s => s.table.Fits where
  allocate _ _ h := h
  notice _ _ _ h := h
  place s spec value? origin hfit _ h := by
    simp only [Scope.table_place]
    exact SymbolTable.Fits.bound h spec fun v hv => s.fits_valueFor hfit hv
  drop s name h := SymbolTable.Fits.erase h name

theorem fits_openSlots (h : s.table.Fits) (name : String) : (s.openSlots name).table.Fits := by
  obtain ⟨table, hspace, hname, hother⟩ := s.openSlots_space name
  have htable : (s.openSlots name).table = table := congrArg Namespace.table hspace
  rw [htable]
  intro other entry he
  by_cases hne : other = name
  · rw [hne, hname] at he
    cases he
    exact h.slots name
  · exact h other entry (by rw [← hother other hne, he])

end Scope

/-- An edit that brings only values that fit keeps a table that fits. -/
theorem Edit.fits_apply {s : Scope} (h : s.table.Fits) {edit : Edit Value} (he : edit.Fits) :
    (edit.apply s).2.table.Fits := by
  cases edit with
  | plantStub name raw => exact h.insert name trivial
  | insert name draft => exact h.insert name he
  | setSlot name kind value =>
      have hspace := s.space_fill ⟨name, kind⟩ (some value) (by simp)
      show (s.fill ⟨name, kind⟩ (some value)).space.table.Fits
      rw [hspace]
      refine h.bound ⟨name, kind⟩ ?_
      intro v hv
      cases hv
      exact he
  | clearSlot name kind =>
      rw [Edit.apply]
      split
      · exact h
      · exact h
      · rename_i slots hslots
        refine h.insert name ?_
        intro j value hv
        rw [Slots.get_clear] at hv
        split at hv
        · cases hv
        · exact h name (.bindings slots) hslots j value hv
  | openSlots name => exact Scope.fits_openSlots h name
  | erase name => exact h.erase name

/-- **A run that is only edited with fitting values keeps a table that fits.** -/
theorem Run.fits {s t : Scope} {steps : List Step} (run : Run Edit.Fits s steps t)
    (h : s.table.Fits) : t.table.Fits := by
  induction run with
  | start => exact h
  | step _ operation ih => exact Scope.kept_fits.after operation (fun _ => trivial) ih
  | edit _ edit he ih => exact Edit.fits_apply ih he
  | elsewhere _ world ih => exact ih

/-! ### What is answered in a namespace that fits -/

namespace Scope

variable {s : Scope} {text : String} {spec : Spec}

theorem find_fits (h : s.table.Fits) (hp : Spec.parse text = .ok spec) :
    ∃ value?, Step.result ⟨s, .find text⟩ = .ok (.value value?) ∧
      ∀ value, value? = some value → value.fits spec.kind = true := by
  refine ⟨(s.lookup spec).1, ?_, fun value hv => fits_lookup h hv⟩
  rw [Step.result_find, find_run, hp]
  rfl

theorem vivify_fits (h : s.table.Fits) (hp : Spec.parse text = .ok spec) {value : Value}
    (hv : Step.result ⟨s, .vivify text⟩ = .ok (.value (some value))) :
    value.fits spec.kind = true := by
  rw [Step.result_vivify, vivify_run, hp] at hv
  simp only at hv
  cases hr : s.table.reading? spec with
  | some reading =>
      simp only [hr] at hv
      cases hv
      exact fits_read (h.reading hr)
  | none =>
      simp only [hr] at hv
      cases he : (s.newEmpty spec.kind).1 with
      | none =>
          simp only [he] at hv
          cases hv
      | some made =>
          simp only [he] at hv
          cases hv
          exact s.fits_newEmpty he

theorem remove_succeeds (h : s.table.Fits) (hp : Spec.parse text = .ok spec) :
    Step.result ⟨s, .remove text⟩ = .ok .done :=
  (remove_of_kept_fits hp (fits_readAll (h.readings _))).1

theorem bindings_fit (h : s.table.Fits) (kind : Kind) :
    ∃ found, Step.result ⟨s, .bindings kind⟩ = .ok (.bindings found) ∧
      ∀ pair ∈ found, pair.2.fits kind = true := by
  refine ⟨_, rfl, ?_⟩
  intro pair hpair
  obtain ⟨found, hfound, rfl⟩ := List.mem_map.mp hpair
  have hfits := fits_readAll (h.readings _) found hfound
  have hkind : found.1 ∈ s.table.specsOf kind := s.fst_mem_of_readAll hfound
  obtain ⟨name, -, hspec⟩ := List.mem_map.mp hkind
  rw [← hspec] at hfits
  exact hfits

end Scope

/--
**Slots only ever hold what fits.**  A new namespace that is only edited with fitting
values keeps every slot fitting its kind, whatever is asked of it and whatever fails.
So what is found, vivified or listed under a kind is of that kind, and no removal of a
spec that reads is refused.
-/
theorem values_fit_in_every_run {ident : String} {debugger : DebuggerId} {space : Namespace}
    (hmake : Namespace.make ident debugger = .ok space) {world : World} {steps : List Step}
    {t : Scope} (run : Run Edit.Fits ⟨space, world⟩ steps t) :
    t.table.Fits ∧
      (∀ text spec, Spec.parse text = .ok spec →
        (∃ value?, Step.result ⟨t, .find text⟩ = .ok (.value value?) ∧
          ∀ value, value? = some value → value.fits spec.kind = true) ∧
        (∀ value, Step.result ⟨t, .vivify text⟩ = .ok (.value (some value)) →
          value.fits spec.kind = true) ∧
        Step.result ⟨t, .remove text⟩ = .ok .done) ∧
      ∀ kind, ∃ found, Step.result ⟨t, .bindings kind⟩ = .ok (.bindings found) ∧
        ∀ pair ∈ found, pair.2.fits kind = true := by
  have hnew : space.table = ∅ := Namespace.table_make hmake
  have ht : t.table.Fits := by
    refine run.fits ?_
    show space.table.Fits
    rw [hnew]
    exact SymbolTable.fits_empty
  refine ⟨ht, ?_, Scope.bindings_fit ht⟩
  intro text spec hp
  exact ⟨Scope.find_fits ht hp, fun value => Scope.vivify_fits ht hp,
    Scope.remove_succeeds ht hp⟩

/-- A stub that was planted makes a callable when another kind of its name is removed. -/
theorem edited_stub_fits :
    ∃ steps t, Run Edit.Fits ⟨⟨"main", ∅, ⟨0⟩⟩, {}⟩ steps t ∧
      t.table.held ⟨"x", .callable⟩ = some (.callable ⟨0⟩) ∧
      t.table.Fits ∧ Step.result ⟨t, .remove "&x"⟩ = .ok .done := by
  have run := (Run.start : Run Edit.Fits ⟨⟨"main", ∅, ⟨0⟩⟩, {}⟩ [] _)
    |>.edit (.plantStub "x" (.int 1)) trivial |>.step (.remove "$x")
  have hmake : Namespace.make "main" ⟨0⟩ = .ok ⟨"main", ∅, ⟨0⟩⟩ := rfl
  have h := values_fit_in_every_run hmake run
  exact ⟨_, _, run, rfl, h.1, (h.2.1 "&x" _ rfl).2.2⟩

end Bindery
