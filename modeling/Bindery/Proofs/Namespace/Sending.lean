/-
What a namespace sends to the sink of its debugger.

A namespace sends a place in one case only: a caller gives a callable and it is bound.
A declaration gives none, a value of another kind is not asked for its place, a
vivifying read makes no callable, and what a removal binds again was reported when it
was first bound.
-/
import Bindery.Namespace.Edit
import Bindery.Proofs.Namespace.Run

namespace Bindery

namespace Scope

variable (s : Scope)

/-! ### Bindings -/

theorem isReport_discards (name : String) :
    ∀ event ∈ s.discards name, event.isReport = false := by
  intro event hevent
  unfold discards at hevent
  split at hevent
  · rw [List.mem_singleton.mp hevent]
    rfl
  · cases hevent

theorem isReport_bindingEvents (spec : Spec) (given? : Option Value) :
    ∀ event ∈ s.bindingEvents spec given?, event.isReport = false := by
  intro event hevent
  unfold bindingEvents at hevent
  generalize s.valueFor spec.kind given? = found at hevent
  rcases List.mem_append.mp hevent with hdiscards | hbound
  · split at hdiscards
    · cases hdiscards
    · exact isReport_discards _ _ event hdiscards
  · rw [List.mem_singleton.mp hbound]
    rfl

/-- Nothing is heard before a binding is reported. -/
theorem unheard_settled (spec : Spec) (given? : Option Value) :
    s.world.Unheard (s.settled spec given?).world := by
  obtain ⟨heap, hheap⟩ := s.valueFor_scope spec.kind given?
  rw [world_settled, hheap]
  exact (World.Unheard.allocate s.world heap).trans (.log (s.isReport_bindingEvents spec given?))

/-- Nothing is heard of a binding that is not reported. -/
theorem unheard_place {spec : Spec} {given? : Option Value} {origin : Origin}
    (hnot : ¬ Reported spec given? origin) :
    s.world.Unheard (s.place spec given? origin).world := by
  have hsettled := s.unheard_settled spec given?
  rw [place_eq]
  cases origin with
  | renewal => exact hsettled
  | caller hint =>
      simp only
      split
      · rename_i hcond
        obtain ⟨hgiven, hkind⟩ := Bool.and_eq_true_iff.mp hcond
        exact absurd ⟨nofun, hgiven, beq_iff_eq.mp hkind⟩ hnot
      · exact hsettled

/-- **A callable that a caller gives is emitted under its qualified name.** -/
theorem sends_place_callable (h : s.world.debugging.Linked) (name : String) (value : Value)
    (hint : RangeHint) :
    s.world.Sends (s.place ⟨name, .callable⟩ (some value) (.caller hint)).world
      (s.world.debugging.sendings s.space.debugger (s.qualify name) hint.resolve) := by
  have hsettled := (s.unheard_settled ⟨name, .callable⟩ (some value)).sends h
  have hspace := s.space_settled ⟨name, .callable⟩ (some value)
  have hworld := s.world_settled ⟨name, .callable⟩ (some value)
  rw [place_eq]
  show s.world.Sends ((s.settled ⟨name, .callable⟩ (some value)).report name hint).world _
  have hemit := World.Sends.emit hsettled.debugging.linked s.space.debugger (s.qualify name)
    hint.resolve
  unfold report qualify
  rw [hspace]
  rw [hworld] at hemit hsettled ⊢
  exact hsettled.trans hemit

/-! ### Operations and edits -/

/-- No move that is not reported is heard. -/
theorem kept_unheard (w : World) : Kept False fun s => w.Unheard s.world where
  allocate s heap h := h.trans (.allocate s.world heap)
  notice s event hnotice h := by
    refine h.trans (.log ?_)
    intro event' hevent'
    rw [List.mem_singleton.mp hevent']
    cases event <;> first | rfl | cases hnotice
  place s spec value? origin _ hheard h := h.trans (s.unheard_place hheard)
  drop s name h := by
    refine h.trans (.log ?_)
    intro event hevent
    rw [List.mem_singleton.mp hevent]
    rfl

/-- An edit of the table is not heard; at most it discards a stub. -/
theorem unheard_edit (edit : Edit Value) : s.world.Unheard (edit.apply s).2.world := by
  cases edit with
  | setSlot name kind value =>
      show s.world.Unheard (s.fill ⟨name, kind⟩ (some value)).world
      rw [world_fill]
      exact .log (s.isReport_discards name)
  | openSlots name =>
      show s.world.Unheard (s.openSlots name).world
      rw [world_openSlots]
      exact .log (s.isReport_discards name)
  | clearSlot name kind =>
      simp only [Edit.apply]
      split <;> exact .refl _
  | _ => exact .refl _

end Scope

namespace Step

variable {s : Scope}

/-- An operation that gives no callable is not heard. -/
theorem unheard {operation : Operation Value} (hnot : ¬ operation.Defines) :
    s.world.Unheard (after ⟨s, operation⟩).world :=
  (Scope.kept_unheard s.world).after operation hnot (.refl s.world)

variable (h : s.world.debugging.Linked)
include h

/-- An operation that gives no callable sends nothing. -/
theorem sends_nothing {operation : Operation Value} (hnot : ¬ operation.Defines) :
    s.world.Sends (after ⟨s, operation⟩).world [] :=
  (unheard hnot).sends h

/-- A callable that is given is emitted if it is bound, and nothing is sent if it is not. -/
theorem sends_add_callable {text name : String} (hp : Spec.parse text = .ok ⟨name, .callable⟩)
    (value : Value) (hint : RangeHint) :
    s.world.Sends (after ⟨s, .add text (some value) hint⟩).world
      (match result ⟨s, .add text (some value) hint⟩ with
        | .ok _ => s.world.debugging.sendings s.space.debugger (s.qualify name) hint.resolve
        | .error _ => []) := by
  cases hfit : value.fits .callable with
  | true =>
      obtain ⟨hresult, hafter⟩ := add_of_fits (s := s) hp (some value) hint (by simpa using hfit)
      rw [hresult, hafter]
      exact s.sends_place_callable h name value hint
  | false =>
      obtain ⟨hresult, hafter⟩ := add_of_misfit (s := s) hp hint hfit
      rw [hresult, hafter]
      exact .refl h

end Step

end Bindery
