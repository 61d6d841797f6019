/-
What a namespace supplies of its own.

Where a caller gives no value, and where a vivifying read finds nothing, a namespace binds the
empty value of the kind.  Where a stub is read, it makes the callable that the stub stands for.
These are all the values that come from a namespace and not from a caller.  For a sequence, a
mapping or a stream the empty value is a new cell, and so is the callable of a stub, each time
one is read.
-/
import Bindery.Proofs.Namespace.Declared
import Mathlib.Data.List.Pairwise

namespace Bindery

/-- Whether the empty value of a kind needs a cell. -/
def Kind.needsCell : Kind → Bool
  | .sequence | .mapping | .stream => true
  | .scalar | .callable => false

/-- A value that a namespace supplies in a step. -/
inductive Step.Supplies (step : Step) : Value → Prop where
  /-- The empty value is bound where none is given. -/
  | default {text : String} {hint : RangeHint} {spec : Spec} {value : Value}
      (asked : step.operation = .add text none hint) (addressed : Spec.parse text = .ok spec)
      (kind : spec.kind.needsCell = true) (installed : step.after.table.held spec = some value) :
      Supplies step value
  /-- The empty value is bound where none was found. -/
  | vivified {text : String} {spec : Spec} {value : Value}
      (asked : step.operation = .vivify text) (addressed : Spec.parse text = .ok spec)
      (kind : spec.kind.needsCell = true) (absent : step.before.table.reading? spec = none)
      (installed : step.after.table.held spec = some value) : Supplies step value
  /-- A callable is made of a stub. -/
  | declared {name : String} {raw value : Value}
      (stub : step.before.table[name]? = some (.stub raw)) (seeks : step.operation.Seeks name)
      (obtained : step.Obtains name value) : Supplies step value

namespace Scope

variable {s : Scope} {text : String} {spec : Spec}

theorem newEmpty_of_needsCell (hkind : spec.kind.needsCell = true) :
    ∃ value, (s.newEmpty spec.kind).1 = some value ∧ s.world.heap.Fresh value ∧
      value.same value = true := by
  have hscalar : spec.kind ≠ .scalar := fun h => by simp [h, Kind.needsCell] at hkind
  have hcallable : spec.kind ≠ .callable := fun h => by simp [h, Kind.needsCell] at hkind
  obtain ⟨value, hmade, -, hfresh, -⟩ := s.world.heap.newEmpty_fresh hscalar hcallable
  refine ⟨value, hmade, hfresh, ?_⟩
  obtain ⟨cell, i, hcell, -⟩ := hfresh
  rw [(Value.same_of_cell hcell).1]
  exact decide_eq_true rfl

/-- **Where no value is given, the empty value is bound.** -/
theorem add_default (hp : Spec.parse text = .ok spec) (hint : RangeHint) :
    Step.result ⟨s, .add text none hint⟩ = .ok .done ∧
      (Step.after ⟨s, .add text none hint⟩).world.heap = (s.world.heap.newEmpty spec.kind).2 ∧
      ∀ value, (s.newEmpty spec.kind).1 = some value →
        (Step.after ⟨s, .add text none hint⟩).table.held spec = some value := by
  obtain ⟨hresult, hafter⟩ := Step.add_of_fits (s := s) hp none hint (by simp)
  rw [hafter]
  refine ⟨hresult, s.heap_place spec none (.caller hint), ?_⟩
  intro value hmade
  have hvalue : (s.valueFor spec.kind none).1 = some value := hmade
  rw [table_place, hvalue, SymbolTable.held_bound_some, if_pos rfl]

/-- **Where nothing is found, the empty value is bound and given.** -/
theorem vivify_absent (hp : Spec.parse text = .ok spec) (habsent : s.table.reading? spec = none)
    {value : Value} (hmade : (s.newEmpty spec.kind).1 = some value) :
    Step.result ⟨s, .vivify text⟩ = .ok (.value (some value)) ∧
      (Step.after ⟨s, .vivify text⟩).table.held spec = some value := by
  obtain ⟨hresult, htable⟩ := vivify_binds hp habsent hmade
  exact ⟨hresult, by rw [htable, SymbolTable.held_bound_some, if_pos rfl]⟩

end Scope

namespace Step

variable {step : Step} {value : Value}

/-- **What a namespace supplies is a cell that was not there before.** -/
theorem Supplies.made (h : step.Supplies value) :
    step.before.world.heap.Fresh value ∧ step.after.world.heap.Has value := by
  obtain ⟨s, operation⟩ := step
  cases h with
  | @default text hint spec _ asked addressed kind installed =>
      obtain rfl := asked
      obtain ⟨made, hmade, hfresh, -⟩ := s.newEmpty_of_needsCell kind
      obtain ⟨-, hheap, hheld⟩ := s.add_default addressed hint
      obtain rfl : made = value := Option.some.inj ((hheld made hmade).symm.trans installed)
      exact ⟨hfresh, hheap ▸ s.world.heap.has_newEmpty hmade⟩
  | @vivified text spec _ asked addressed kind absent installed =>
      obtain rfl := asked
      obtain ⟨made, hmade, hfresh, -⟩ := s.newEmpty_of_needsCell kind
      obtain ⟨-, hheld⟩ := Scope.vivify_absent addressed absent hmade
      obtain rfl : made = value := Option.some.inj (hheld.symm.trans installed)
      rw [s.heap_vivify addressed absent hmade]
      exact ⟨hfresh, s.world.heap.has_newEmpty hmade⟩
  | declared stub seeks obtained =>
      obtain ⟨c, hobtains, hfresh, hmade, -⟩ := Scope.obtains_made stub seeks
      obtain rfl := (hobtains value).mp obtained
      refine ⟨⟨.callable, c.index, rfl, hfresh⟩, ?_⟩
      intro cell i hcell
      cases hcell
      exact hmade

/-- **A sequence, mapping or stream that a namespace supplies is blank.** -/
theorem Supplies.blank (h : step.Supplies value) (hcallable : value.asCallable? = none) :
    step.after.world.heap.Blank value :=
  (step.makes step.operation.within_all).blank value h.made.1 h.made.2 hcallable

end Step

/-! ### Several at once -/

namespace Scope

/-- What is read is held, or new. -/
theorem readAll_held_or_fresh (s : Scope) (found : List (Spec × Reading)) :
    ∀ pair ∈ (s.readAll found).1, (pair.1, .held pair.2) ∈ found ∨ s.world.heap.Fresh pair.2 := by
  induction found generalizing s with
  | nil => exact nofun
  | cons first rest ih =>
      intro pair hpair
      rcases List.mem_cons.mp hpair with rfl | hpair
      · obtain ⟨spec, reading⟩ := first
        cases reading with
        | held value => exact Or.inl (List.mem_cons_self)
        | declared raw => exact Or.inr ⟨.callable, _, rfl, Nat.le_refl _⟩
      · rcases ih (s.read first.1 first.2).2 pair hpair with hheld | ⟨cell, i, hcell, hcount⟩
        · exact Or.inl (List.mem_cons_of_mem _ hheld)
        · exact Or.inr ⟨cell, i, hcell,
            Nat.le_trans ((s.extends_read first.1 first.2).count cell) hcount⟩

/-- New callables that are made one after the other are not the same. -/
theorem readAll_apart (s : Scope) {found : List (Spec × Reading)}
    (hheld : ∀ pair ∈ found, ∀ v, pair.2 = .held v → s.world.heap.Has v) :
    (s.readAll found).1.Pairwise fun a b =>
      s.world.heap.Fresh a.2 → s.world.heap.Fresh b.2 → a.2 ≠ b.2 := by
  induction found generalizing s with
  | nil => exact .nil
  | cons first rest ih =>
      have hext := s.extends_read first.1 first.2
      have hfirst : (s.read first.1 first.2).2.world.heap.Has (s.read first.1 first.2).1 := by
        obtain ⟨spec, reading⟩ := first
        cases reading with
        | held value => exact hheld (spec, .held value) (by simp) value rfl
        | declared raw => exact s.world.heap.has_newCallable _
      have hrest := ih (s.read first.1 first.2).2 fun pair hpair v hv =>
        (hheld pair (by simp [hpair]) v hv).grow hext.toGrows
      -- what was held before is not new, so what is new among the rest was made after the first
      have hlater : ∀ b ∈ ((s.read first.1 first.2).2.readAll rest).1, s.world.heap.Fresh b.2 →
          (s.read first.1 first.2).2.world.heap.Fresh b.2 := by
        intro b hb hfresh
        rcases (s.read first.1 first.2).2.readAll_held_or_fresh rest b hb with hmem | hnew
        · exact absurd (hheld _ (List.mem_cons_of_mem _ hmem) b.2 rfl) hfresh.not_has
        · exact hnew
      refine List.pairwise_cons.mpr ⟨?_, ?_⟩
      · intro b hb _ hfresh heq
        exact (hlater b hb hfresh).not_has (heq ▸ hfirst)
      · exact hrest.imp_of_mem fun ha hb hab hfresh hfresh' =>
          hab (hlater _ ha hfresh) (hlater _ hb hfresh')

end Scope

/-- An operation that comes to the callables of two names lists all callables. -/
theorem Operation.Seeks.eq_bindings {operation : Operation Value} {name name' : String}
    (hseeks : operation.Seeks name) (hseeks' : operation.Seeks name') (hne : name ≠ name') :
    operation = .bindings .callable := by
  cases hseeks with
  | bindings => rfl
  | find hp =>
      cases hseeks' with
      | find hp' => exact absurd (congrArg Spec.name (Except.ok.inj (hp.symm.trans hp'))) hne
  | vivify hp =>
      cases hseeks' with
      | vivify hp' => exact absurd (congrArg Spec.name (Except.ok.inj (hp.symm.trans hp'))) hne
  | remove hp =>
      cases hseeks' with
      | remove hp' => exact absurd (congrArg Spec.name (Except.ok.inj (hp.symm.trans hp'))) hne

/-- **The callables that one step makes of the stubs of two names are not the same.** -/
theorem Step.obtained_apart {s : Scope} {operation : Operation Value} (hclosed : s.Closed)
    {name name' : String} {raw raw' v w : Value} (hne : name ≠ name')
    (hstub : s.table[name]? = some (.stub raw)) (hstub' : s.table[name']? = some (.stub raw'))
    (hseeks : operation.Seeks name) (hseeks' : operation.Seeks name')
    (hv : Step.Obtains ⟨s, operation⟩ name v) (hw : Step.Obtains ⟨s, operation⟩ name' w) :
    v.same w = false := by
  have hfresh := (Step.Supplies.declared hstub hseeks hv).made.1
  have hfresh' := (Step.Supplies.declared hstub' hseeks' hw).made.1
  obtain rfl := hseeks.eq_bindings hseeks' hne
  rw [Step.obtains_of_bindings (s.result_bindings .callable)] at hv hw
  obtain ⟨p, hp, hpv⟩ := List.mem_map.mp hv
  obtain ⟨q, hq, hqw⟩ := List.mem_map.mp hw
  cases hpv
  cases hqw
  have hheld : ∀ pair ∈ s.table.readings (s.table.specsOf .callable), ∀ v,
      pair.2 = .held v → s.world.heap.Has v := by
    intro pair hpair v heq
    exact hclosed.table v (SymbolTable.stores_of_readings hpair (heq ▸ .held v))
  have hsymm : Std.Symm fun a b : Spec × Value =>
      s.world.heap.Fresh a.2 → s.world.heap.Fresh b.2 → a.2 ≠ b.2 :=
    ⟨fun a b hab hb ha => (hab ha hb).symm⟩
  have happart := (s.readAll_apart hheld).forall hp hq (fun heq => hne (congrArg (·.1.name) heq))
    hfresh hfresh'
  obtain ⟨cell, i, hcell, -⟩ := hfresh
  rw [(Value.same_of_cell hcell).1]
  exact decide_eq_false happart

end Bindery
