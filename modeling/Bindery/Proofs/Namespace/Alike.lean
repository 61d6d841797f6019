/-
Namespaces that differ in debugging only.

Debugging is consulted in the middle of a binding, after the table has been changed, and
what it does may change debuggers and registries.  None of it comes back.  Two worlds are
alike when they have the same cells and tell of the same events, leaving aside those that
tell of debugging; two namespaces are alike when they have the same identifier and the same
table.  Whatever is asked of two that are alike, whatever their debuggers do and whatever
place is stated of a callable, the answers are the same, and they are alike afterwards.
-/
import Bindery.Namespace.Edit
import Bindery.Proofs.Abreast
import Bindery.Proofs.Namespace.Listing

namespace Bindery

/-- The events that tell of debugging: what is handed to sinks, and how a realm is set. -/
def Event.isAside : Event → Bool
  | .recording .. | .announced .. | .realmCreated _ => true
  | _ => false

/-- The events that do not tell of debugging. -/
def Event.plain (events : List Event) : List Event :=
  events.filter (!·.isAside)

theorem Event.plain_append (a b : List Event) : plain (a ++ b) = plain a ++ plain b :=
  List.filter_append ..

theorem Event.plain_eq_nil {events : List Event} (h : ∀ event ∈ events, event.isAside = true) :
    plain events = [] := by
  rw [plain, List.filter_eq_nil_iff]
  intro event hevent
  simp [h event hevent]

/-! ### Alike -/

/-- Two worlds have the same cells, and tell of the same events but for those of debugging. -/
structure World.Alike (w v : World) : Prop where
  heap : w.heap = v.heap
  told : Event.plain w.trace.toList = Event.plain v.trace.toList

/-- Two namespaces have the same identifier and the same table. -/
structure Namespace.Alike (a b : Namespace) : Prop where
  ident : a.ident = b.ident
  table : a.table = b.table

/-- Two namespaces are alike in worlds that are alike. -/
structure Scope.Alike (s t : Scope) : Prop where
  space : s.space.Alike t.space
  world : s.world.Alike t.world

theorem Namespace.Alike.refl (a : Namespace) : a.Alike a :=
  ⟨rfl, rfl⟩

namespace World.Alike

variable {w v : World}

theorem refl (w : World) : w.Alike w :=
  ⟨rfl, rfl⟩

/-- The trace grows by events that tell the same. -/
theorem log (h : w.Alike v) {events events' : List Event}
    (htold : Event.plain events = Event.plain events') : (w.log events).Alike (v.log events') := by
  refine ⟨h.heap, ?_⟩
  simp only [World.log, Array.toList_appendList, Event.plain_append]
  rw [h.told, htold]

theorem log_same (h : w.Alike v) (events : List Event) : (w.log events).Alike (v.log events) :=
  h.log rfl

theorem setHeap (h : w.Alike v) (heap : Heap) : World.Alike { w with heap } { v with heap } :=
  ⟨rfl, h.told⟩

/-- Debuggers and registries may be any. -/
theorem setDebugging (h : w.Alike v) (g g' : Debugging) :
    World.Alike { w with debugging := g } { v with debugging := g' } :=
  ⟨h.heap, h.told⟩

end World.Alike

/-- What is reported tells of debugging. -/
theorem Event.isAside_of_isReport {event : Event} (h : event.isReport = true) :
    event.isAside = true := by
  cases event <;> first | rfl | cases h

/-- To emit a place is told by nothing but debugging. -/
theorem World.alike_emit (w : World) (d : DebuggerId) (name : String) (range : SourceRange) :
    w.Alike (w.emit d name range) := by
  refine ⟨rfl, ?_⟩
  have hevents : Event.plain (w.debugging.emit d name range).2 = [] :=
    Event.plain_eq_nil fun event hevent =>
      Event.isAside_of_isReport (w.debugging.emit_isReport d name range event hevent)
  simp [World.emit, World.log, Event.plain_append, hevents]

namespace Scope

theorem bindingEvents_eq (s : Scope) (spec : Spec) (given? : Option Value) :
    s.bindingEvents spec given? =
      (if s.keepsStub spec (s.valueFor spec.kind given?).1 then []
        else (s.valueFor spec.kind given?).2.discards spec.name) ++
      [.bound s.space.ident spec (s.valueFor spec.kind given?).1.isSome
        (s.keepsStub spec (s.valueFor spec.kind given?).1)] := rfl

theorem emptied_eq (s : Scope) (spec : Spec) :
    s.emptied spec = (((s.keep spec).2.log
      (.removingKind (s.keep spec).2.space.ident spec (s.keep spec).1.length)).drop
        spec.name).2 := rfl

namespace Alike

variable {s t : Scope} (h : s.Alike t)
include h

theorem table : s.table = t.table :=
  h.space.table

theorem heap : s.world.heap = t.world.heap :=
  h.world.heap

theorem qualify (name : String) : s.qualify name = t.qualify name :=
  congrArg (Bindery.qualify · name) h.space.ident

/-! ### Moves of a scope -/

theorem setHeap (heap : Heap) : (s.setHeap heap).Alike (t.setHeap heap) :=
  ⟨h.space, h.world.setHeap heap⟩

theorem setTable (table : SymbolTable) : (s.setTable table).Alike (t.setTable table) :=
  ⟨⟨h.space.ident, rfl⟩, h.world⟩

theorem log (event : Event) : (s.log event).Alike (t.log event) :=
  ⟨h.space, h.world.log_same [event]⟩

theorem read (spec : Spec) (reading : Reading) :
    (s.read spec reading).1 = (t.read spec reading).1 ∧
      (s.read spec reading).2.Alike (t.read spec reading).2 := by
  have hread : s.world.heap.read reading (s.qualify spec.name)
      = t.world.heap.read reading (t.qualify spec.name) := by
    rw [h.heap, h.qualify]
  unfold Scope.read
  rw [hread]
  exact ⟨rfl, h.setHeap _⟩

theorem lookup (spec : Spec) :
    (s.lookup spec).1 = (t.lookup spec).1 ∧ (s.lookup spec).2.Alike (t.lookup spec).2 := by
  rw [lookup_eq, lookup_eq, h.table]
  cases t.table.reading? spec with
  | none => exact ⟨rfl, h⟩
  | some reading => exact ⟨congrArg some (h.read spec reading).1, (h.read spec reading).2⟩

theorem readAll (found : List (Spec × Reading)) :
    (s.readAll found).1 = (t.readAll found).1 ∧
      (s.readAll found).2.Alike (t.readAll found).2 := by
  induction found generalizing s t with
  | nil => exact ⟨rfl, h⟩
  | cons pair rest ih =>
      obtain ⟨hvalue, hread⟩ := h.read pair.1 pair.2
      obtain ⟨hvalues, hrest⟩ := ih hread
      refine ⟨?_, hrest⟩
      show (pair.1, (s.read pair.1 pair.2).1) :: ((s.read pair.1 pair.2).2.readAll rest).1 = _
      rw [hvalue, hvalues]
      rfl

theorem newEmpty (kind : Kind) :
    (s.newEmpty kind).1 = (t.newEmpty kind).1 ∧
      (s.newEmpty kind).2.Alike (t.newEmpty kind).2 := by
  unfold Scope.newEmpty
  rw [h.heap]
  exact ⟨rfl, h.setHeap _⟩

theorem valueFor (kind : Kind) (given? : Option Value) :
    (s.valueFor kind given?).1 = (t.valueFor kind given?).1 ∧
      (s.valueFor kind given?).2.Alike (t.valueFor kind given?).2 := by
  cases given? with
  | some value => exact ⟨rfl, h⟩
  | none => exact h.newEmpty kind

theorem discards (name : String) : s.discards name = t.discards name := by
  unfold Scope.discards
  rw [h.table, h.heap]

/-- A binding tells the same, but for what is reported. -/
theorem told (spec : Spec) (given? : Option Value) (origin origin' : Origin) :
    Event.plain (s.told spec given? origin) = Event.plain (t.told spec given? origin') := by
  have hreported (u : Scope) (o : Origin) :
      Event.plain (u.reporting spec given? o).2 = [] := by
    refine Event.plain_eq_nil fun event hevent => Event.isAside_of_isReport ?_
    unfold reporting at hevent
    cases o with
    | renewal => cases hevent
    | caller hint =>
        simp only at hevent
        split at hevent
        · exact Debugging.emit_isReport _ _ _ _ event hevent
        · cases hevent
  have hevents : s.bindingEvents spec given? = t.bindingEvents spec given? := by
    obtain ⟨hvalue, halike⟩ := h.valueFor spec.kind given?
    rw [bindingEvents_eq, bindingEvents_eq, hvalue, halike.discards, keepsStub, keepsStub,
      h.table, h.space.ident]
  rw [Scope.told, Scope.told, Event.plain_append, Event.plain_append, hreported, hreported, hevents]

/-- **Whoever binds a name, and whatever debuggers do, the same is bound.** -/
theorem place (spec : Spec) (given? : Option Value) (origin origin' : Origin) :
    (s.place spec given? origin).Alike (t.place spec given? origin') := by
  obtain ⟨hvalue, halike⟩ := h.valueFor spec.kind given?
  refine ⟨?_, ?_⟩
  · rw [space_place, space_place, h.table, hvalue]
    exact (h.setTable _).space
  · rw [world_place, world_place]
    exact (halike.world.setDebugging _ _).log (h.told spec given? origin origin')

theorem openSlots (name : String) : (s.openSlots name).Alike (t.openSlots name) := by
  unfold Scope.openSlots
  rw [h.table, h.heap]
  split
  · exact h
  · exact (h.log _).setTable _
  · exact h.setTable _

theorem fill (spec : Spec) (value? : Option Value) : (s.fill spec value?).Alike (t.fill spec value?) := by
  have hopen := h.openSlots spec.name
  cases value? with
  | none => exact hopen
  | some value =>
      show (Scope.setTable (s.openSlots spec.name) _).Alike (Scope.setTable (t.openSlots spec.name) _)
      rw [hopen.table]
      exact hopen.setTable _

theorem edit (edit : Edit Value) :
    (edit.apply s).1 = (edit.apply t).1 ∧ (edit.apply s).2.Alike (edit.apply t).2 := by
  cases edit with
  | plantStub name raw =>
      simp only [Edit.apply, h.table]
      exact ⟨trivial, h.setTable _⟩
  | insert name draft =>
      simp only [Edit.apply, h.table]
      exact ⟨trivial, h.setTable _⟩
  | setSlot name kind value =>
      simp only [Edit.apply, h.table]
      exact ⟨trivial, h.fill _ _⟩
  | clearSlot name kind =>
      simp only [Edit.apply, h.table]
      split
      · exact ⟨rfl, h⟩
      · exact ⟨rfl, h⟩
      · refine ⟨rfl, ?_⟩
        unfold setSlots
        rw [h.table]
        exact h.setTable _
  | openSlots name =>
      simp only [Edit.apply, h.table]
      exact ⟨trivial, h.openSlots name⟩
  | erase name =>
      simp only [Edit.apply, h.table]
      exact ⟨trivial, h.setTable _⟩

theorem drop (name : String) :
    (s.drop name).1 = (t.drop name).1 ∧ (s.drop name).2.Alike (t.drop name).2 := by
  unfold Scope.drop
  rw [h.table, h.space.ident]
  exact ⟨rfl, (h.setTable _).log _⟩

theorem keep (spec : Spec) :
    (s.keep spec).1 = (t.keep spec).1 ∧ (s.keep spec).2.Alike (t.keep spec).2 := by
  unfold Scope.keep
  rw [h.table]
  exact h.readAll _

theorem emptied (spec : Spec) : (s.emptied spec).Alike (t.emptied spec) := by
  obtain ⟨hkept, halike⟩ := h.keep spec
  rw [emptied_eq, emptied_eq, hkept, halike.space.ident]
  exact ((halike.log _).drop spec.name).2

theorem renew (pairs : List (Spec × Value)) :
    Parallel Scope.Alike Eq (s.renew pairs) (t.renew pairs) := by
  induction pairs generalizing s t with
  | nil => exact .ok rfl h
  | cons pair rest ih =>
      rw [Scope.renew, Scope.renew, h.qualify]
      split
      · exact ih (h.place _ _ _ _)
      · exact .error _ h

end Alike

/-! ### Operations -/

theorem abreast_bind (spec : Spec) (value? : Option Value) (origin origin' : Origin) :
    Abreast Alike Eq (Scope.bind spec value? origin) (Scope.bind spec value? origin') := by
  intro s t h
  show Parallel Alike Eq ((Scope.bind spec value? origin).run s)
    ((Scope.bind spec value? origin').run t)
  cases value? with
  | none =>
      rw [s.bind_run origin (by simp), t.bind_run origin' (by simp)]
      exact .ok rfl (h.place spec none origin origin')
  | some value =>
      cases hfit : value.fits spec.kind with
      | true =>
          rw [s.bind_run origin (by simpa using hfit), t.bind_run origin' (by simpa using hfit)]
          exact .ok rfl (h.place spec (some value) origin origin')
      | false =>
          rw [s.bind_run_misfit origin hfit, t.bind_run_misfit origin' hfit, h.qualify]
          exact .error _ h

theorem abreast_parse (text : String) : Abreast Alike Eq (Scope.parse text) (Scope.parse text) := by
  intro s t h
  show Parallel Alike Eq ((Scope.parse text).run s) ((Scope.parse text).run t)
  rw [parse_run, parse_run]
  cases Spec.parse text with
  | error e => exact .error e h
  | ok spec => exact .ok rfl h

theorem abreast_find (text : String) : Abreast Alike Eq (Scope.find text) (Scope.find text) := by
  refine (abreast_parse text).bind_eq fun spec => ?_
  exact .modifyGet fun s t h => h.lookup spec

theorem abreast_vivify (text : String) :
    Abreast Alike Eq (Scope.vivify text) (Scope.vivify text) := by
  refine (abreast_parse text).bind_eq fun spec => ?_
  refine Abreast.bind_eq (.modifyGet fun s t h => h.lookup spec) fun found? => ?_
  cases found? with
  | some value => exact .pure rfl
  | none =>
      refine Abreast.bind_eq (.modifyGet fun s t h => h.newEmpty spec.kind) fun made? => ?_
      cases made? with
      | none =>
          refine Abreast.get.bind fun s t h => ?_
          rw [h.qualify]
          exact .throw _
      | some value =>
          refine Abreast.bind_eq (.modify fun s t h => ?_) fun _ => ?_
          · rw [h.space.ident]
            exact h.log _
          · exact (abreast_bind spec (some value) _ _).bind_eq fun _ => .pure rfl

theorem abreast_remove (text : String) :
    Abreast Alike Eq (Scope.remove text) (Scope.remove text) := by
  intro s t h
  show Parallel Alike Eq ((Scope.remove text).run s) ((Scope.remove text).run t)
  rw [remove_run, remove_run]
  cases Spec.parse text with
  | error e => exact .error e h
  | ok spec =>
      simp only [(h.keep spec).1]
      exact (h.emptied spec).renew _

end Scope

/-! ### Operations that differ in what is stated of places -/

/-- Two operations are the same, or bind the same and state different places. -/
inductive Operation.Twin {V : Type} : Operation V → Operation V → Prop where
  | same (operation : Operation V) : Twin operation operation
  | placed (text : String) (value? : Option V) (hint hint' : RangeHint) :
      Twin (.add text value? hint) (.add text value? hint')

open Scope in
/-- To bind the same with different places stated goes abreast. -/
theorem Operation.abreast_add (text : String) (value? : Option Value) (hint hint' : RangeHint) :
    Abreast Scope.Alike Eq (Operation.add text value? hint).perform
      (Operation.add text value? hint').perform := by
  refine Abreast.bind_eq ?_ fun _ => .pure rfl
  exact (abreast_parse text).bind_eq fun spec => abreast_bind spec value? _ _

open Scope in
/-- **The same operation on namespaces that are alike goes abreast.** -/
theorem Operation.abreast {operation operation' : Operation Value}
    (htwin : operation.Twin operation') :
    Abreast Scope.Alike Eq operation.perform operation'.perform := by
  cases htwin with
  | placed text value? hint hint' => exact abreast_add text value? hint hint'
  | same =>
      cases operation with
      | add text value? hint => exact abreast_add text value? hint hint
      | has text =>
          refine Abreast.bind_eq ?_ fun _ => .pure rfl
          refine (abreast_parse text).bind_eq fun spec => ?_
          refine Abreast.get.bind fun s t h => ?_
          rw [h.table]
          exact .pure rfl
      | find text => exact (abreast_find text).bind_eq fun _ => .pure rfl
      | vivify text => exact (abreast_vivify text).bind_eq fun _ => .pure rfl
      | remove text => exact (abreast_remove text).bind_eq fun _ => .pure rfl
      | removeAll name =>
          exact Abreast.bind_eq (.modifyGet fun s t h => h.drop name) fun _ => .pure rfl
      | names kind? =>
          refine Abreast.bind_eq ?_ fun _ => .pure rfl
          refine Abreast.get.bind fun s t h => ?_
          rw [h.table]
          exact .pure rfl
      | bindings kind =>
          refine Abreast.bind_eq ?_ fun _ => .pure rfl
          refine Abreast.bind_eq (.modifyGet fun s t h => ?_) fun _ => .pure rfl
          rw [h.table]
          exact h.readAll _

end Bindery
