/-
What binding a name leaves behind.

`Scope.place` goes through several moves: it finds the value, opens the slots, fills
one, logs and reports.  Here each part of the scope is read off after all of them.
The table is `SymbolTable.bound` of the table before; the trace grows by
`Scope.told`; and debuggers and registries are as `Scope.reporting` leaves them,
which is as they were unless a caller gave a callable.
-/
import Bindery.Namespace.Bind
import Bindery.Proofs.SymbolTable
import Bindery.Proofs.World

namespace Bindery

namespace Scope

variable (s : Scope)

/-! ### The value to bind -/

/-- A value that is made where none is given changes the heap and nothing else. -/
theorem newEmpty_scope (kind : Kind) : ∃ heap, (s.newEmpty kind).2 = s.setHeap heap :=
  ⟨_, rfl⟩

theorem valueFor_scope (kind : Kind) (given? : Option Value) :
    ∃ heap, (s.valueFor kind given?).2 = s.setHeap heap := by
  cases given? with
  | none => exact s.newEmpty_scope kind
  | some value => exact ⟨s.world.heap, rfl⟩

@[simp] theorem valueFor_some (kind : Kind) (value : Value) :
    s.valueFor kind (some value) = (some value, s) := rfl

/-- Callables are the kind that has no empty value. -/
theorem newEmpty_eq_none_iff {kind : Kind} : (s.newEmpty kind).1 = none ↔ kind = .callable := by
  cases kind <;> simp [newEmpty, Heap.newEmpty]

/-- Nothing is bound only when a callable is declared. -/
theorem valueFor_eq_none_iff {kind : Kind} {given? : Option Value} :
    (s.valueFor kind given?).1 = none ↔ given? = none ∧ kind = .callable := by
  cases given? with
  | none =>
      rw [eq_self_iff_true, true_and]
      exact s.newEmpty_eq_none_iff
  | some value => simp

/-- The empty value of a kind fits it. -/
theorem fits_newEmpty {kind : Kind} {value : Value} (h : (s.newEmpty kind).1 = some value) :
    value.fits kind = true := by
  cases kind <;>
    simp only [newEmpty, Heap.newEmpty, Heap.newSequence, Heap.newMapping, Heap.newStream,
      Prod.map, id, Option.some.injEq, reduceCtorEq] at h <;>
    subst h <;> rfl

/-- A callable is bound only when it is given. -/
theorem isSome_valueFor_callable (given? : Option Value) :
    (s.valueFor .callable given?).1.isSome = given?.isSome := by
  cases given? <;> rfl

/-- What is bound fits, if what is given does. -/
theorem fits_valueFor {kind : Kind} {given? : Option Value} {value : Value}
    (hfit : ∀ v, given? = some v → v.fits kind = true)
    (h : (s.valueFor kind given?).1 = some value) : value.fits kind = true := by
  cases given? with
  | none => exact s.fits_newEmpty h
  | some v => exact hfit value h

/-! ### Opening and filling slots -/

/-- The event that tells of a stub that gives way, if there is one. -/
def discards (name : String) : List Event :=
  match s.table[name]? with
  | some (.stub raw) => [.stubDiscarded name (s.world.heap.display raw)]
  | _ => []

theorem discards_eq_nil {name : String} (h : s.table.isStub name = false) :
    s.discards name = [] := by
  unfold discards
  split
  · rename_i raw he
    simp [SymbolTable.isStub, he, Entry.isStub] at h
  · rfl

theorem discards_of_isStub {name : String} (h : s.table.isStub name = true) :
    ∃ raw, s.discards name = [.stubDiscarded name raw] := by
  obtain ⟨entry, he, hs⟩ := (Option.any_eq_true _ _).mp h
  cases entry with
  | bindings slots => simp [Entry.isStub] at hs
  | stub raw => exact ⟨s.world.heap.display raw, by simp [discards, he]⟩

theorem world_openSlots (name : String) :
    (s.openSlots name).world = s.world.log (s.discards name) := by
  unfold openSlots discards
  split <;> simp_all [setTable, log, World.log]

/-- After the slots are opened, the name has the slots it had, or empty ones. -/
theorem openSlots_space (name : String) :
    ∃ table, (s.openSlots name).space = (s.setTable table).space ∧
      table[name]? = some (.bindings (s.table.slots name)) ∧
      ∀ other, other ≠ name → table[other]? = s.table[other]? := by
  unfold openSlots SymbolTable.slots
  split
  · rename_i slots he
    exact ⟨s.table, rfl, by simp [he, Entry.slots?], fun _ _ => rfl⟩
  · rename_i raw he
    refine ⟨s.table.insert name (.bindings {}), rfl, by simp [he, Entry.slots?], ?_⟩
    intro other hne
    rw [Dict.getElem?_insert, if_neg hne]
  · rename_i he
    refine ⟨s.table.insert name (.bindings {}), rfl, by simp [he], ?_⟩
    intro other hne
    rw [Dict.getElem?_insert, if_neg hne]

theorem world_fill (spec : Spec) (value? : Option Value) :
    (s.fill spec value?).world = s.world.log (s.discards spec.name) := by
  rw [← world_openSlots]
  cases value? <;> rfl

/-- To fill a slot is to bind the name, unless a stub is declared over. -/
theorem space_fill (spec : Spec) (value? : Option Value)
    (h : value? = none → s.table.isStub spec.name = false) :
    (s.fill spec value?).space = (s.setTable (s.table.bound spec value?)).space := by
  obtain ⟨table, hspace, hname, hother⟩ := s.openSlots_space spec.name
  cases value? with
  | none =>
      show (s.openSlots spec.name).space = _
      rw [hspace, SymbolTable.eq_bound_none hname hother (h rfl)]
  | some value =>
      have htable : (s.openSlots spec.name).table = table := congrArg Namespace.table hspace
      have hslots : table.slots spec.name = s.table.slots spec.name := by
        show (table[spec.name]?.bind Entry.slots?).getD {} = s.table.slots spec.name
        rw [hname]
        rfl
      show { (s.openSlots spec.name).space with
        table := (s.openSlots spec.name).table.insert spec.name
          (.bindings (((s.openSlots spec.name).table.slots spec.name).set spec.kind value)) } = _
      rw [htable, hspace, hslots, SymbolTable.bound, SymbolTable.insert_eq_of_agree hother]
      rfl

/-! ### Binding -/

/-- What the debugger of the namespace makes of a binding: it hears of given callables. -/
def reporting (spec : Spec) (given? : Option Value) (origin : Origin) : Debugging × List Event :=
  match origin with
  | .caller hint =>
    if given?.isSome && spec.kind == .callable then
      s.world.debugging.emit s.space.debugger (s.qualify spec.name) hint.resolve
    else (s.world.debugging, [])
  | .renewal => (s.world.debugging, [])

/-- A binding is reported: a caller gives a callable. -/
def Reported (spec : Spec) (given? : Option Value) (origin : Origin) : Prop :=
  origin ≠ .renewal ∧ given?.isSome = true ∧ spec.kind = .callable

/-- Whether binding a value, or declaring, leaves a stub in place. -/
def keepsStub (spec : Spec) (value? : Option Value) : Bool :=
  value?.isNone && s.table.isStub spec.name

/-- The events of a binding before anything is reported. -/
def bindingEvents (spec : Spec) (given? : Option Value) : List Event :=
  let (value?, t) := s.valueFor spec.kind given?
  (if s.keepsStub spec value? then [] else t.discards spec.name) ++
    [.bound s.space.ident spec value?.isSome (s.keepsStub spec value?)]

/-- The events of a binding. -/
def told (spec : Spec) (given? : Option Value) (origin : Origin) : List Event :=
  s.bindingEvents spec given? ++ (s.reporting spec given? origin).2

/-- The scope in which a binding has taken place, with nothing reported yet. -/
def settled (spec : Spec) (given? : Option Value) : Scope :=
  let (value?, t) := s.valueFor spec.kind given?
  let t' := if t.keepsStub spec value? then t else t.fill spec value?
  t'.log (.bound t'.space.ident spec value?.isSome (t.keepsStub spec value?))

/-- Reporting comes last, and only of a callable that a caller gave. -/
theorem place_eq (spec : Spec) (given? : Option Value) (origin : Origin) :
    s.place spec given? origin =
      match origin with
      | .caller hint =>
        if given?.isSome && spec.kind == .callable then
          (s.settled spec given?).report spec.name hint
        else s.settled spec given?
      | .renewal => s.settled spec given? := by
  have hinstalled : ((s.valueFor spec.kind given?).1.isSome && spec.kind == .callable)
      = (given?.isSome && spec.kind == .callable) := by
    cases hk : spec.kind == .callable with
    | false => simp
    | true => rw [beq_iff_eq.mp hk, isSome_valueFor_callable]
  rw [← hinstalled]
  unfold place settled keepsStub
  cases s.valueFor spec.kind given? with
  | mk value? t =>
      cases value? <;> cases origin <;> rfl

/-- To leave a stub in place is to leave the table as it is. -/
theorem bound_of_keepsStub {spec : Spec} {value? : Option Value}
    (h : s.keepsStub spec value? = true) : s.table.bound spec value? = s.table := by
  unfold keepsStub at h
  obtain ⟨hnone, hstub⟩ := Bool.and_eq_true_iff.mp h
  rw [Option.isNone_iff_eq_none.mp hnone, SymbolTable.bound_none_of_isStub _ hstub]

theorem space_settled (spec : Spec) (given? : Option Value) :
    (s.settled spec given?).space
      = (s.setTable (s.table.bound spec (s.valueFor spec.kind given?).1)).space := by
  obtain ⟨heap, hheap⟩ := s.valueFor_scope spec.kind given?
  unfold settled
  rcases hv : s.valueFor spec.kind given? with ⟨value?, t⟩
  obtain rfl : t = s.setHeap heap := by rw [← hheap, hv]
  simp only
  split
  · rename_i hkept
    rw [s.bound_of_keepsStub hkept]
    rfl
  · rename_i hkept
    refine (s.setHeap heap).space_fill spec value? ?_
    rintro rfl
    exact Bool.eq_false_iff.mpr hkept

theorem world_settled (spec : Spec) (given? : Option Value) :
    (s.settled spec given?).world
      = (s.valueFor spec.kind given?).2.world.log (s.bindingEvents spec given?) := by
  have hident : (s.settled spec given?).space.ident = s.space.ident := by rw [space_settled]; rfl
  obtain ⟨heap, hheap⟩ := s.valueFor_scope spec.kind given?
  revert hident
  unfold settled bindingEvents
  rcases hv : s.valueFor spec.kind given? with ⟨value?, t⟩
  obtain rfl : t = s.setHeap heap := by rw [← hheap, hv]
  intro hident
  have hkept : (s.setHeap heap).keepsStub spec value? = s.keepsStub spec value? := rfl
  simp only [log, hkept] at hident ⊢
  rw [hident, World.log_append]
  split
  · simp [World.log]
  · rw [world_fill]

/-- **What a binding does to the namespace.**  It binds the table and changes nothing else. -/
theorem space_place (spec : Spec) (given? : Option Value) (origin : Origin) :
    (s.place spec given? origin).space
      = (s.setTable (s.table.bound spec (s.valueFor spec.kind given?).1)).space := by
  rw [← space_settled, place_eq]
  cases origin with
  | renewal => rfl
  | caller hint =>
      simp only
      split
      · rfl
      · rfl

theorem table_place (spec : Spec) (given? : Option Value) (origin : Origin) :
    (s.place spec given? origin).table
      = s.table.bound spec (s.valueFor spec.kind given?).1 :=
  congrArg Namespace.table (s.space_place spec given? origin)

/-- **What a binding does to the world.**  The heap gains the empty value if one was made. -/
theorem world_place (spec : Spec) (given? : Option Value) (origin : Origin) :
    (s.place spec given? origin).world =
      { (s.valueFor spec.kind given?).2.world with
        debugging := (s.reporting spec given? origin).1 }.log (s.told spec given? origin) := by
  obtain ⟨heap, hheap⟩ := s.valueFor_scope spec.kind given?
  have hspace := s.space_settled spec given?
  have hquiet : (s.settled spec given?).world
      = { (s.valueFor spec.kind given?).2.world with debugging := s.world.debugging }.log
          (s.bindingEvents spec given? ++ []) := by
    rw [world_settled, List.append_nil, hheap]
    rfl
  rw [place_eq, told]
  unfold reporting
  cases origin with
  | renewal => exact hquiet
  | caller hint =>
      simp only
      split
      · rw [World.log_append, report, hspace]
        show World.emit _ _ ((s.settled spec given?).qualify spec.name) _ = _
        rw [qualify, hspace, world_settled, hheap]
        rfl
      · exact hquiet

end Scope

end Bindery
