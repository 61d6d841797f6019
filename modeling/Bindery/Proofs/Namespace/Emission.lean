/-
What a request hands to the debugger of a namespace.

It hands over one place at most: that of a callable that is given, if it can be bound.  To hand
over a place concerns one debugger and at most one registry, the one that the sink of the
debugger refers to.  The debugger stays as it is, unless its sink sets it anew.  Which registry
it is, and what becomes of the debugger, follows from the debugger alone and not from the place,
so that two places handed over one after the other make the same of the registries in either
order, as long as their names differ and the debugger stays as it is.
-/
import Bindery.Proofs.Namespace.Request
import Bindery.Proofs.Namespace.Sending

namespace Bindery

/-! ### One emission -/

/-- The registry in which a debugger keeps a place, and the name it is kept under. -/
def Debugger.keeps? (debugger : Debugger) (name : String) : Option (RegistryId × String) :=
  match debugger with
  | ⟨true, some (.registry r)⟩ | ⟨true, some (.once r)⟩ => some (r, name)
  | ⟨true, some (.handOver r)⟩ => some (r, Debugging.handedOver name)
  | _ => none

/-- The sink of a debugger sets the debugger anew when a place is handed to it. -/
def Debugger.resets (debugger : Debugger) : Bool :=
  match debugger.sink? with
  | some (.once _) | some (.handOver _) => true
  | _ => false

theorem Debugging.handedOver_injective {a b : String} (h : handedOver a = handedOver b) : a = b := by
  have hlists := congrArg String.toList h
  simpa [handedOver, String.toList_inj] using hlists

namespace Debugger

/-- Whatever the name, a debugger keeps its place in the same registry, or nowhere. -/
theorem keeps?_cases (debugger : Debugger) :
    (∀ name, debugger.keeps? name = none) ∨
      ∃ (r : RegistryId) (key : String → String), (∀ a b, key a = key b → a = b) ∧
        ∀ name, debugger.keeps? name = some (r, key name) := by
  obtain ⟨enabled, sink?⟩ := debugger
  cases enabled with
  | false => exact Or.inl fun name => rfl
  | true =>
      cases sink? with
      | none => exact Or.inl fun name => rfl
      | some sink =>
          cases sink with
          | registry r => exact Or.inr ⟨r, id, fun _ _ h => h, fun _ => rfl⟩
          | announce => exact Or.inl fun name => rfl
          | once r => exact Or.inr ⟨r, id, fun _ _ h => h, fun _ => rfl⟩
          | handOver r =>
              exact Or.inr ⟨r, Debugging.handedOver, fun _ _ => Debugging.handedOver_injective,
                fun _ => rfl⟩

end Debugger

namespace Debugging

variable (g : Debugging) (d : DebuggerId) (name : String) (range : SourceRange)

theorem registries_emit :
    (g.emit d name range).1.registries =
      match (g.debugger d).keeps? name with
      | none => g.registries
      | some (r, key) => (g.keep r key range).registries := by
  unfold emit
  obtain ⟨enabled, sink?⟩ := g.debugger d
  cases enabled with
  | false => rfl
  | true =>
      cases sink? with
      | none => rfl
      | some sink => cases sink <;> rfl

/-- What becomes of the debuggers follows from what they are, and not from the place. -/
theorem debuggers_emit {g g' : Debugging} (hsame : g'.debuggers = g.debuggers)
    (name' : String) (range' : SourceRange) :
    (g'.emit d name' range').1.debuggers = (g.emit d name range).1.debuggers := by
  have hdebugger : g'.debugger d = g.debugger d := by rw [debugger, debugger, hsame]
  unfold emit
  rw [hdebugger]
  rcases hd : g.debugger d with ⟨enabled, sink?⟩
  rw [hd] at hdebugger
  cases enabled with
  | false => exact hsame
  | true =>
      cases sink? with
      | none => exact hsame
      | some sink =>
          cases sink with
          | registry r => exact hsame
          | announce => exact hsame
          | once r =>
              show g'.debuggers.setIfInBounds d.index { g'.debugger d with enabled := false }
                = g.debuggers.setIfInBounds d.index { g.debugger d with enabled := false }
              rw [hsame, hdebugger, hd]
          | handOver r =>
              show g'.debuggers.setIfInBounds d.index { g'.debugger d with sink? := some (.registry r) }
                = g.debuggers.setIfInBounds d.index { g.debugger d with sink? := some (.registry r) }
              rw [hsame, hdebugger, hd]

/-- A debugger that is set anew is so if it is there, and the others stay as they are. -/
theorem debugger_setDebugger_of_ne (g : Debugging) {d e : DebuggerId} (hne : e ≠ d) (new : Debugger) :
    (g.setDebugger d new).debugger e = g.debugger e := by
  have hindex : d.index ≠ e.index := by
    cases d
    cases e
    simpa using Ne.symm hne
  unfold setDebugger debugger
  rw [Array.getD_eq_getD_getElem?, Array.getElem?_setIfInBounds_ne hindex,
    Array.getD_eq_getD_getElem?]

/-- What an emission may do to debuggers and registries, whatever the place. -/
structure Emits (d : DebuggerId) (g g' : Debugging) : Prop where
  size : g'.debuggers.size = g.debuggers.size ∧ g'.registries.size = g.registries.size
  other : ∀ e, e ≠ d → g'.debugger e = g.debugger e
  /-- It is the sink that sets the debugger anew, if it does. -/
  own : (g.debugger d).resets = false → g'.debugger d = g.debugger d
  /-- A sink may be replaced, but not by one that refers to another registry. -/
  target : ∀ e, (g'.debugger e).sink?.bind Sink.target? = (g.debugger e).sink?.bind Sink.target?
  registry : ∀ r, (g.debugger d).sink?.bind Sink.target? ≠ some r → g'.registry r = g.registry r

theorem Emits.refl : Emits d g g :=
  ⟨⟨rfl, rfl⟩, fun _ _ => rfl, fun _ => rfl, fun _ => rfl, fun _ _ => rfl⟩

/-- To keep a place in a registry changes that registry and nothing else. -/
theorem Emits.keep {r : RegistryId} (hr : (g.debugger d).sink?.bind Sink.target? = some r)
    (key : String) : Emits d g (g.keep r key range) where
  size := ⟨rfl, Array.size_setIfInBounds⟩
  other _ _ := rfl
  own _ := rfl
  target _ := rfl
  registry r' hne := by
    have hindex : r.index ≠ r'.index := by
      cases r
      cases r'
      rintro rfl
      exact hne hr
    unfold Debugging.keep Debugging.registry
    rw [Array.getD_eq_getD_getElem?, Array.getElem?_setIfInBounds_ne hindex,
      Array.getD_eq_getD_getElem?]

/-- A sink may set its debugger anew if the sink after it refers to the registry it referred to. -/
theorem Emits.setDebugger {g' : Debugging} (h : Emits d g g') {new : Debugger}
    (hresets : (g.debugger d).resets = true)
    (hnew : new.sink?.bind Sink.target? = (g.debugger d).sink?.bind Sink.target?) :
    Emits d g (g'.setDebugger d new) where
  size := ⟨Array.size_setIfInBounds.trans h.size.1, h.size.2⟩
  other e hne := (g'.debugger_setDebugger_of_ne hne new).trans (h.other e hne)
  own hnot := absurd hresets (by simp [hnot])
  target e := by
    by_cases he : e = d
    · subst he
      rcases debugger_setDebugger g' e e new with heq | heq
      · rw [heq, hnew]
      · rw [heq, h.target]
    · rw [g'.debugger_setDebugger_of_ne he new, h.target]
  registry := h.registry

/-- **An emission concerns one debugger, and the registry that its sink refers to.** -/
theorem emits_emit : Emits d g (g.emit d name range).1 := by
  unfold emit
  rcases hd : g.debugger d with ⟨enabled, sink?⟩
  cases enabled with
  | false => exact .refl g d
  | true =>
      cases sink? with
      | none => exact .refl g d
      | some sink =>
          have htarget : (g.debugger d).sink?.bind Sink.target? = sink.target? := by
            rw [hd]
            rfl
          cases sink with
          | registry r => exact .keep g d range htarget name
          | announce => exact .refl g d
          | once r =>
              exact Emits.setDebugger g d (Emits.keep g d range htarget name) (by rw [hd]; rfl) rfl
          | handOver r =>
              have hset : Emits d g (g.setSink d (.registry r)) :=
                Emits.setDebugger g d (Emits.refl g d) (by rw [hd]; rfl) htarget.symm
              have hkept := Emits.keep (g.setSink d (.registry r)) d range
                ((hset.target d).trans htarget) (handedOver name)
              exact
                { size := ⟨hkept.size.1.trans hset.size.1, hkept.size.2.trans hset.size.2⟩
                  other := fun e hne => (hkept.other e hne).trans (hset.other e hne)
                  own := fun hnot => by simp [hd, Debugger.resets] at hnot
                  target := fun e => (hkept.target e).trans (hset.target e)
                  registry := fun r' hne => (hkept.registry r' ((hset.target d).symm ▸ hne)).trans
                    (hset.registry r' hne) }

/-- Places of two names are kept in either order, and the registries come to hold the same. -/
theorem registries_keep_comm (r : RegistryId) {a b : String} (hne : a ≠ b) (x y : SourceRange) :
    ((g.keep r a x).keep r b y).registries = ((g.keep r b y).keep r a x).registries := by
  by_cases hhas : g.Has r
  · have hhas' (key : String) (range : SourceRange) : (g.keep r key range).registry r
        = (g.registry r).insert key range := by
      rw [registry_keep hhas, if_pos rfl]
    show (g.registries.setIfInBounds r.index _).setIfInBounds r.index
        (((g.keep r a x).registry r).insert b y)
      = (g.registries.setIfInBounds r.index _).setIfInBounds r.index
        (((g.keep r b y).registry r).insert a x)
    rw [hhas', hhas', Array.setIfInBounds_setIfInBounds, Array.setIfInBounds_setIfInBounds]
    congr 1
    apply Std.ExtTreeMap.ext_getElem?
    intro key
    rw [Dict.getElem?_insert, Dict.getElem?_insert, Dict.getElem?_insert, Dict.getElem?_insert]
    by_cases hb : key = b
    · rw [if_pos hb, if_pos hb, if_neg (hb ▸ hne.symm)]
    · rw [if_neg hb, if_neg hb]
  · have hout (g' : Debugging) (hsize : g'.registries = g.registries) (key : String)
        (range : SourceRange) : (g'.keep r key range).registries = g'.registries := by
      show g'.registries.setIfInBounds r.index _ = _
      exact Array.setIfInBounds_eq_of_size_le (Nat.le_of_not_lt (hsize ▸ hhas))
    rw [hout _ (hout g rfl a x), hout g rfl, hout _ (hout g rfl b y), hout g rfl]

/--
**Two places of different names can be handed over in either order**, if neither changes the
debugger they are handed to.
-/
theorem emit_comm {a b : String} (hne : a ≠ b) {x y : SourceRange}
    (hfirst : (g.emit d a x).1.debuggers = g.debuggers)
    (hsecond : (g.emit d b y).1.debuggers = g.debuggers) :
    ((g.emit d a x).1.emit d b y).1 = ((g.emit d b y).1.emit d a x).1 := by
  have heq {g₁ g₂ : Debugging} (hd : g₁.debuggers = g₂.debuggers) (hr : g₁.registries = g₂.registries) :
      g₁ = g₂ := by
    cases g₁
    cases g₂
    cases hd
    cases hr
    rfl
  have hsame {g' : Debugging} (hdebuggers : g'.debuggers = g.debuggers) :
      g'.debugger d = g.debugger d := by
    rw [debugger, debugger, hdebuggers]
  refine heq ?_ ?_
  · rw [debuggers_emit d b y hfirst, debuggers_emit d a x hsecond, hfirst, hsecond]
  · have hkeep {g₁ g₂ : Debugging} (hr : g₁.registries = g₂.registries) (r : RegistryId) (key : String)
        (range : SourceRange) : (g₁.keep r key range).registries = (g₂.keep r key range).registries := by
      simp only [keep, registry, hr]
    rw [registries_emit (g.emit d a x).1 d b y, registries_emit (g.emit d b y).1 d a x, hsame hfirst,
      hsame hsecond]
    rcases (g.debugger d).keeps?_cases with hnone | ⟨r, key, hinjective, hkeeps⟩
    · simp only [hnone]
      rw [registries_emit, registries_emit, hnone, hnone]
    · have hone := g.registries_emit d a x
      have hother := g.registries_emit d b y
      rw [hkeeps] at hone hother
      simp only [hkeeps]
      rw [hkeep hone, hkeep hother]
      exact g.registries_keep_comm r (fun h => hne (hinjective a b h)) x y

end Debugging

/-! ### What a request hands over -/

theorem qualify_injective {ident a b : String} (h : qualify ident a = qualify ident b) : a = b := by
  have hlists := congrArg String.toList h
  simpa [qualify, String.toList_inj] using hlists

/-- The name and the place of the callable that an operation gives, if it can be bound. -/
def Operation.definition? : Operation Value → Option (String × SourceRange)
  | .add text (some value) hint =>
    (Spec.parse text).toOption.bind fun spec =>
      if spec.kind = .callable ∧ value.fits .callable = true then some (spec.name, hint.resolve)
      else none
  | _ => none

/-- The name and the place of the callable that a request gives, if it can be bound. -/
def Request.definition? : Request → Option (String × SourceRange)
  | .operation asked => asked.definition?
  | _ => none

/-- Debuggers and registries once a place, if there is one, is handed to the debugger. -/
def Scope.heard (s : Scope) : Option (String × SourceRange) → Debugging
  | none => s.world.debugging
  | some (name, range) => (s.world.debugging.emit s.space.debugger (s.qualify name) range).1

namespace Scope

theorem debugging_add (s : Scope) (text : String) (value? : Option Value) (hint : RangeHint) :
    (Step.after ⟨s, .add text value? hint⟩).world.debugging
      = s.heard (Operation.add text value? hint).definition? := by
  have hquiet {value? : Option Value} (hnot : ¬ (Operation.add text value? hint).Defines) :
      (Step.after ⟨s, .add text value? hint⟩).world.debugging = s.world.debugging :=
    (Step.unheard hnot).debugging
  cases value? with
  | none =>
      refine hquiet ?_
      rintro ⟨_, _, _, _, heq, -⟩
      cases heq
  | some value =>
      cases hp : Spec.parse text with
      | error e =>
          rw [Operation.definition?, hp]
          refine hquiet ?_
          rintro ⟨_, _, _, _, heq, hparse, -⟩
          cases heq
          rw [hp] at hparse
          cases hparse
      | ok spec =>
          rw [Operation.definition?, hp]
          show _ = s.heard (if spec.kind = .callable ∧ value.fits .callable = true
            then some (spec.name, hint.resolve) else none)
          by_cases hkind : spec.kind = .callable
          · cases hfit : value.fits .callable with
            | true =>
                have hfits : ∀ v, some value = some v → v.fits spec.kind = true := by
                  rw [hkind]
                  simpa using hfit
                rw [if_pos ⟨hkind, rfl⟩, (Step.add_of_fits hp (some value) hint hfits).2,
                  world_place]
                show (s.reporting spec (some value) (.caller hint)).1 = _
                simp only [reporting, hkind, Option.isSome_some, Bool.true_and, BEq.rfl, if_pos]
                rfl
            | false =>
                rw [if_neg (by simp), (Step.add_of_misfit hp hint (hkind ▸ hfit)).2]
                rfl
          · rw [if_neg fun h => hkind h.1]
            refine hquiet ?_
            rintro ⟨_, _, _, _, heq, hparse, hcallable⟩
            cases heq
            rw [hp] at hparse
            cases hparse
            exact hkind hcallable

end Scope

/-- What is heard concerns the debugger of the namespace. -/
theorem Scope.emits_heard (s : Scope) (definition? : Option (String × SourceRange)) :
    Debugging.Emits s.space.debugger s.world.debugging (s.heard definition?) := by
  cases definition? with
  | none => exact .refl _ _
  | some definition => exact s.world.debugging.emits_emit _ _ _

/-- **What a request makes of debuggers and registries is to hand over one place at most.** -/
theorem Asked.debugging_after (asked : Asked) :
    asked.after.world.debugging = asked.before.heard asked.request.definition? := by
  obtain ⟨s, request⟩ := asked
  cases request with
  | operation operation =>
      rw [after_operation]
      show (Step.after ⟨s, operation⟩).world.debugging = s.heard operation.definition?
      have hquiet (hnot : ¬ operation.Defines) :
          (Step.after ⟨s, operation⟩).world.debugging = s.world.debugging :=
        (Step.unheard hnot).debugging
      cases operation with
      | add text value? hint => exact s.debugging_add text value? hint
      | _ =>
          refine hquiet ?_
          rintro ⟨_, _, _, _, heq, -⟩
          cases heq
  | edit edit => exact (s.unheard_edit edit).debugging
  | replace table => rfl

end Bindery
