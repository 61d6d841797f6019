/-
The callable that a stub stands for, by every way to it.

A stub is turned into a callable where it is read: by a read or a vivifying read of its
callable, in a listing of all callables, and when another kind of its name is removed and
what is left must be bound again.  All of them make a new callable out of the same value
and the same qualified name.  What the ways differ in is only where the callable goes: it is
answered, listed under its name, or left in a slot.

Until a removal leaves one, each read makes another.  Then the callable is bound like any
other, and all that a stub of the name would last through finds this one and leaves it there.
-/
import Bindery.Proofs.Namespace.Listing
import Bindery.Proofs.Namespace.Stub

namespace Bindery

/-- No step takes a callable away or changes what it does. -/
theorem Step.keeps (step : Step) : step.before.world.heap.Keeps step.after.world.heap :=
  step.extends.keeps

/-! ### The ways to the callable of a name -/

/-- An operation that comes to the callable of a name, if the name has a stub. -/
inductive Operation.Seeks (name : String) : Operation Value → Prop where
  | find {text : String} (addressed : Spec.parse text = .ok ⟨name, .callable⟩) :
      Seeks name (.find text)
  | vivify {text : String} (addressed : Spec.parse text = .ok ⟨name, .callable⟩) :
      Seeks name (.vivify text)
  | bindings : Seeks name (.bindings .callable)
  | remove {text : String} {kind : Kind} (addressed : Spec.parse text = .ok ⟨name, kind⟩)
      (another : kind ≠ .callable) : Seeks name (.remove text)

namespace Step

/-- A value comes out of a step as the callable of a name. -/
inductive Obtains (step : Step) (name : String) (value : Value) : Prop where
  /-- It is answered. -/
  | answered (answer : step.result = .ok (.value (some value)))
  /-- It is listed under the name. -/
  | listed {found : List (String × Value)} (answer : step.result = .ok (.bindings found))
      (there : (name, value) ∈ found)
  /-- It is left in the slot. -/
  | left (answer : step.result = .ok .done)
      (there : step.after.table.held ⟨name, .callable⟩ = some value)

variable {step : Step} {name : String}

theorem obtains_of_value {value : Value} (h : step.result = .ok (.value (some value)))
    (v : Value) : step.Obtains name v ↔ v = value := by
  constructor
  · intro hobtains
    cases hobtains with
    | answered answer => simpa [answer] using h
    | listed answer => simp [answer] at h
    | left answer => simp [answer] at h
  · intro heq
    subst heq
    exact .answered h

theorem obtains_of_bindings {found : List (String × Value)}
    (h : step.result = .ok (.bindings found)) (v : Value) :
    step.Obtains name v ↔ (name, v) ∈ found := by
  constructor
  · intro hobtains
    cases hobtains with
    | answered answer => simp [answer] at h
    | listed answer there =>
        rw [answer] at h
        cases h
        exact there
    | left answer => simp [answer] at h
  · intro hthere
    exact .listed h hthere

theorem obtains_of_done (h : step.result = .ok .done) (v : Value) :
    step.Obtains name v ↔ step.after.table.held ⟨name, .callable⟩ = some v := by
  constructor
  · intro hobtains
    cases hobtains with
    | answered answer => simp [answer] at h
    | listed answer => simp [answer] at h
    | left answer there => exact there
  · intro hthere
    exact .left h hthere

end Step

namespace Scope

variable {s : Scope} {name : String} {raw : Value}

/-- Every way to read the callable of a name, if there is one, obtains one value that is shown. -/
theorem reads_shown {reading : Reading}
    (hreading : s.table.reading? ⟨name, .callable⟩ = some reading) {operation : Operation Value}
    (hseeks : operation.Seeks name) (hread : ∀ text, operation ≠ .remove text) :
    ∃ value, (∀ v, Step.Obtains ⟨s, operation⟩ name v ↔ v = value) ∧
      s.Shows (Step.after ⟨s, operation⟩).world.heap ⟨name, .callable⟩ value := by
  cases hseeks with
  | @find text hp =>
      have hresult : Step.result ⟨s, .find text⟩
          = .ok (.value (some (s.read ⟨name, .callable⟩ reading).1)) := by
        rw [Step.result_find, find_run, hp]
        simp only [lookup_eq, hreading]
        rfl
      refine ⟨_, Step.obtains_of_value hresult, ?_⟩
      rw [Step.after_find, find_run, hp]
      simp only [lookup_eq, hreading]
      exact read_shows hreading
  | @vivify text hp =>
      have hresult : Step.result ⟨s, .vivify text⟩
          = .ok (.value (some (s.read ⟨name, .callable⟩ reading).1)) := by
        rw [Step.result_vivify, vivify_run, hp]
        simp only [hreading]
        rfl
      refine ⟨_, Step.obtains_of_value hresult, ?_⟩
      rw [Step.after_vivify, vivify_run, hp]
      simp only [hreading]
      exact read_shows hreading
  | bindings =>
      have hcounts : s.table.has ⟨name, .callable⟩ = true :=
        s.table.has_iff_reading.mpr ⟨reading, hreading, nofun⟩
      obtain ⟨value, hfound⟩ := exists_found (s.table.mem_names_some.mpr hcounts)
      refine ⟨value, ?_, found_shows hfound⟩
      intro v
      rw [Step.obtains_of_bindings (s.result_bindings .callable)]
      constructor
      · intro hv
        exact eq_of_found hv hfound
      · intro heq
        rw [heq]
        exact hfound
  | @remove text kind hp hkind => exact absurd rfl (hread text)

section Stub

variable (hstub : s.table[name]? = some (.stub raw))
include hstub

/-- What is shown of a stub is a new callable that does what the stub says. -/
theorem Shows.of_stub {after : Heap} {value : Value} (hshows : s.Shows after ⟨name, .callable⟩ value) :
    ∃ c, value = .callable c ∧ s.world.heap.callables.size ≤ c.index ∧
      c.index < after.callables.size ∧
      after.body c = s.world.heap.stubBody raw (s.qualify name) := by
  cases hshows with
  | held hentry =>
      rw [hstub] at hentry
      cases hentry
  | declared hentry _ hfresh hmade hbody =>
      rw [hstub] at hentry
      cases hentry
      exact ⟨_, rfl, hfresh, hmade, hbody⟩

/-- A removal leaves what its reading of the stub shows. -/
theorem left_shows {text : String} {kind : Kind} (hp : Spec.parse text = .ok ⟨name, kind⟩)
    (hkind : kind ≠ .callable) :
    ∃ value, Step.result ⟨s, .remove text⟩ = .ok .done ∧
      (Step.after ⟨s, .remove text⟩).table[name]?
        = some (.bindings (({} : Slots).set .callable value)) ∧
      s.Shows (Step.after ⟨s, .remove text⟩).world.heap ⟨name, .callable⟩ value := by
  obtain ⟨hdone, hentry⟩ := remove_of_stub hstub hp
  refine ⟨(s.read ⟨name, .callable⟩ (.declared raw)).1, hdone, ?_, ?_⟩
  · rw [hentry, if_neg hkind]
  · have hkept : (⟨name, .callable⟩, (s.read ⟨name, .callable⟩ (.declared raw)).1)
        ∈ (s.keep ⟨name, kind⟩).1 := by
      rw [keep_of_stub hstub, if_neg hkind]
      exact List.mem_singleton.mpr rfl
    rw [s.heap_remove hp]
    exact s.keep_shows _ _ hkept

/-- **Every way to the callable of a stub obtains one value, which the stub shows.** -/
theorem obtains_shown {operation : Operation Value} (hseeks : operation.Seeks name) :
    ∃ value, (∀ v, Step.Obtains ⟨s, operation⟩ name v ↔ v = value) ∧
      s.Shows (Step.after ⟨s, operation⟩).world.heap ⟨name, .callable⟩ value := by
  have hreading : s.table.reading? ⟨name, .callable⟩ = some (.declared raw) := by
    rw [reading_of_stub hstub, if_pos rfl]
  cases hseeks with
  | find hp => exact reads_shown hreading (.find hp) nofun
  | vivify hp => exact reads_shown hreading (.vivify hp) nofun
  | bindings => exact reads_shown hreading .bindings nofun
  | @remove text kind hp hkind =>
      obtain ⟨value, hdone, hleft, hshows⟩ := left_shows hstub hp hkind
      refine ⟨value, ?_, hshows⟩
      intro v
      rw [Step.obtains_of_done hdone, SymbolTable.held, SymbolTable.slots, hleft]
      simp [Entry.slots?, Slots.get_set, eq_comm]

/-- Every way to the callable of a stub makes one new callable, which does what the stub says. -/
theorem obtains_made {operation : Operation Value}
    (hseeks : operation.Seeks name) :
    ∃ c : Handle .callable, (∀ value, Step.Obtains ⟨s, operation⟩ name value ↔ value = .callable c) ∧
      s.world.heap.callables.size ≤ c.index ∧
      c.index < (Step.after ⟨s, operation⟩).world.heap.callables.size ∧
      (Step.after ⟨s, operation⟩).world.heap.body c
        = s.world.heap.stubBody raw (s.qualify name) := by
  obtain ⟨value, hobtains, hshows⟩ := obtains_shown hstub hseeks
  obtain ⟨c, rfl, hfresh, hmade, hbody⟩ := hshows.of_stub hstub
  exact ⟨c, hobtains, hfresh, hmade, hbody⟩

end Stub

/-! ### After a removal has left the callable -/

section Left

variable {value : Value}
  (hleft : s.table[name]? = some (.bindings (({} : Slots).set .callable value)))
include hleft

theorem reading_of_left : s.table.reading? ⟨name, .callable⟩ = some (.held value) := by
  simp [SymbolTable.reading?, hleft, Entry.reading?, Slots.get_set]

/-- What is shown under the name is the callable that was left. -/
theorem Shows.of_left {after : Heap} {kind : Kind} {v : Value}
    (hshows : s.Shows after ⟨name, kind⟩ v) : kind = .callable ∧ v = value := by
  cases hshows with
  | held hentry hheld =>
      rw [hleft] at hentry
      cases hentry
      rw [Slots.get_set] at hheld
      split at hheld
      · rename_i hkind
        exact ⟨hkind, (Option.some.inj hheld).symm⟩
      · simp at hheld
  | declared hentry =>
      rw [hleft] at hentry
      cases hentry

/-- Every read finds the callable that was left. -/
theorem reads_of_left {operation : Operation Value} (hseeks : operation.Seeks name)
    (hread : ∀ text, operation ≠ .remove text) (v : Value) :
    Step.Obtains ⟨s, operation⟩ name v ↔ v = value := by
  obtain ⟨w, hobtains, hshows⟩ := reads_shown (reading_of_left hleft) hseeks hread
  obtain ⟨-, rfl⟩ := Shows.of_left hleft hshows
  exact hobtains v

/-- A removal of the name cannot fail, since what is left fits. -/
theorem remove_succeeds_of_left (hfits : value.fits .callable = true) {text : String} {kind : Kind}
    (hp : Spec.parse text = .ok ⟨name, kind⟩) :
    Step.result ⟨s, .remove text⟩ = .ok .done := by
  have hkept : ∀ pair ∈ (s.keep ⟨name, kind⟩).1, pair.2.fits pair.1.kind = true := by
    intro pair hpair
    have hshows := s.keep_shows _ _ hpair
    have hname := ((SymbolTable.mem_siblingsOf _).mp (s.fst_mem_of_readAll hpair)).1
    obtain ⟨⟨other, j⟩, v⟩ := pair
    obtain rfl : other = name := hname
    obtain ⟨rfl, rfl⟩ := Shows.of_left hleft hshows
    exact hfits
  exact (remove_of_kept_fits hp hkept).1

/-- The callable that was left lasts through what a stub would last through. -/
theorem left_after (hfits : value.fits .callable = true) {operation : Operation Value}
    (hpasses : Step.Passes ⟨s, operation⟩ name) :
    (Step.after ⟨s, operation⟩).table[name]?
      = some (.bindings (({} : Slots).set .callable value)) := by
  cases hpasses with
  | read reads => rw [table_after_read reads, hleft]
  | apart addressed apart => rw [getElem?_after_of_ne addressed (Ne.symm apart), hleft]
  | @declared text hint asked addressed =>
      obtain rfl := asked
      rw [Step.after_add, add_run, addressed]
      show (s.place ⟨name, .callable⟩ none (.caller hint)).table[name]? = _
      have hbound : s.table.contains name = true := by
        rw [Dict.contains_eq, hleft]
        rfl
      rw [table_place]
      show (s.table.bound ⟨name, .callable⟩ none)[name]? = _
      rw [SymbolTable.bound, if_pos hbound, hleft]
  | found asked addressed =>
      obtain rfl := asked
      rw [Step.after_vivify, vivify_run, addressed]
      simp only [reading_of_left hleft]
      exact hleft
  | refused fails =>
      cases operation with
      | add text value? hint => rw [Step.after_add_of_error fails, hleft]
      | vivify text => rw [Step.after_vivify_of_error fails, hleft]
      | remove text =>
          cases hp : Spec.parse text with
          | error e =>
              rw [Step.after_remove, remove_run, hp]
              exact hleft
          | ok spec =>
              by_cases hname : name = spec.name
              · subst hname
                rw [remove_succeeds_of_left hleft hfits hp] at fails
                cases fails
              · rw [Step.after_remove, getElem?_remove_of_ne hp hname, hleft]
      | has text => rw [table_after_read rfl, hleft]
      | find text => rw [table_after_read rfl, hleft]
      | removeAll removed => cases fails
      | names kind? => cases fails
      | bindings kind => cases fails

end Left

end Scope

/-- In a run of steps that a stub would last through, the callable that was left stays. -/
theorem Run.left {s t : Scope} {steps : List Step} {name : String} {value : Value}
    (hleft : s.table[name]? = some (.bindings (({} : Slots).set .callable value)))
    (hfits : value.fits .callable = true) (run : Run (fun _ => False) s steps t)
    (hpasses : ∀ step ∈ steps, step.Passes name) :
    t.table[name]? = some (.bindings (({} : Slots).set .callable value)) := by
  induction run with
  | start => exact hleft
  | step run operation ih =>
      have hbefore := ih fun step hstep => hpasses step (by simp [hstep])
      exact Scope.left_after hbefore hfits (hpasses _ (by simp))
  | edit _ edit he => exact he.elim
  | elsewhere _ world ih => exact ih hpasses

end Bindery
