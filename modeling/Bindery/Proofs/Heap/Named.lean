/-
Values name cells that are there.

A handle could name a cell that was never made; then the next cell of its sort would be made
under a name that is already in use.  A heap is closed if whatever its cells hold names cells
that are there.  In a closed heap a new cell has a name that nothing in use has.

Cells are only ever added and the referents of references never change: a heap grows.  To make
cells, without changing any, extends it: then what every cell held stays there.
-/
import Bindery.Proofs.Dict
import Bindery.Proofs.Heap.Callables

namespace Bindery

/-- The cell that a value names, if it names one. -/
def Value.cell? : Value → Option (Cell × Nat)
  | ref r => some (.ref, r.index)
  | sequence s => some (.sequence, s.index)
  | mapping m => some (.mapping, m.index)
  | callable c => some (.callable, c.index)
  | stream s => some (.stream, s.index)
  | _ => none

/-- The handle of a cell. -/
def Value.handle : Cell → Nat → Value
  | .ref, i => .ref ⟨i⟩
  | .sequence, i => .sequence ⟨i⟩
  | .mapping, i => .mapping ⟨i⟩
  | .callable, i => .callable ⟨i⟩
  | .stream, i => .stream ⟨i⟩

@[simp] theorem Value.cell?_handle (cell : Cell) (i : Nat) :
    (Value.handle cell i).cell? = some (cell, i) := by
  cases cell <;> rfl

/-- A value that names a cell is the handle of the cell. -/
theorem Value.eq_handle {v : Value} {cell : Cell} {i : Nat} (hv : v.cell? = some (cell, i)) :
    v = .handle cell i := by
  cases v <;> cases hv <;> rfl

/-- Values that name cells are told apart by the cells. -/
theorem Value.same_of_cell {v w : Value} {cell : Cell × Nat} (hv : v.cell? = some cell) :
    v.same w = decide (v = w) ∧ w.same v = decide (w = v) := by
  cases v <;> simp only [Value.cell?, reduceCtorEq] at hv <;> cases w <;> exact ⟨rfl, rfl⟩

namespace Heap

/-- The number of cells of a sort. -/
def count (h : Heap) : Cell → Nat
  | .ref => h.refs.size
  | .sequence => h.sequences.size
  | .mapping => h.mappings.size
  | .callable => h.callables.size
  | .stream => h.streams.size

variable {h h' h'' : Heap}

/-! ### Growth -/

/-- No cell goes away, and references refer to what they referred to. -/
structure Grows (h h' : Heap) : Prop where
  count : ∀ cell, h.count cell ≤ h'.count cell
  referent : ∀ r : Handle .ref, r.index < h.refs.size → h'.referent r = h.referent r

/-- No cell goes away, and every cell holds what it held. -/
structure Extends (h h' : Heap) : Prop extends Grows h h' where
  items : ∀ s : Handle .sequence, s.index < h.sequences.size → h'.items s = h.items s
  pairs : ∀ m : Handle .mapping, m.index < h.mappings.size → h'.pairs m = h.pairs m
  body : ∀ c : Handle .callable, c.index < h.callables.size → h'.body c = h.body c
  lineStream : ∀ s : Handle .stream, s.index < h.streams.size → h'.lineStream s = h.lineStream s

namespace Grows

theorem refl (h : Heap) : h.Grows h :=
  ⟨fun _ => Nat.le_refl _, fun _ _ => rfl⟩

theorem trans (hgrows : h.Grows h') (hgrows' : h'.Grows h'') : h.Grows h'' where
  count cell := Nat.le_trans (hgrows.count cell) (hgrows'.count cell)
  referent r hr := by
    rw [hgrows'.referent r (Nat.lt_of_lt_of_le hr (hgrows.count .ref)), hgrows.referent r hr]

/-- To change cells other than references takes none away. -/
theorem of_count (hrefs : h'.refs = h.refs) (hcount : ∀ cell, h'.count cell = h.count cell) :
    h.Grows h' where
  count cell := Nat.le_of_eq (hcount cell).symm
  referent r _ := by rw [Heap.referent, Heap.referent, hrefs]

theorem setItems (h : Heap) (s : Handle .sequence) (items : Array Value) :
    h.Grows (h.setItems s items) :=
  of_count rfl fun cell => by cases cell <;> simp [Heap.count, Heap.setItems]

theorem setPairs (h : Heap) (m : Handle .mapping) (pairs : Dict Value) :
    h.Grows (h.setPairs m pairs) :=
  of_count rfl fun cell => by cases cell <;> simp [Heap.count, Heap.setPairs]

theorem setBody (h : Heap) (c : Handle .callable) (body : Body) : h.Grows (h.setBody c body) :=
  of_count rfl fun cell => by cases cell <;> simp [Heap.count, Heap.setBody]

theorem setStream (h : Heap) (s : Handle .stream) (stream : LineStream) :
    h.Grows (h.setStream s stream) :=
  of_count rfl fun cell => by cases cell <;> simp [Heap.count, Heap.setStream]

end Grows

namespace Extends

theorem refl (h : Heap) : h.Extends h where
  toGrows := .refl h
  items _ _ := rfl
  pairs _ _ := rfl
  body _ _ := rfl
  lineStream _ _ := rfl

theorem trans (hext : h.Extends h') (hext' : h'.Extends h'') : h.Extends h'' where
  toGrows := hext.toGrows.trans hext'.toGrows
  items s hs := by
    rw [hext'.items s (Nat.lt_of_lt_of_le hs (hext.count .sequence)), hext.items s hs]
  pairs m hm := by
    rw [hext'.pairs m (Nat.lt_of_lt_of_le hm (hext.count .mapping)), hext.pairs m hm]
  body c hc := by
    rw [hext'.body c (Nat.lt_of_lt_of_le hc (hext.count .callable)), hext.body c hc]
  lineStream s hs := by
    rw [hext'.lineStream s (Nat.lt_of_lt_of_le hs (hext.count .stream)), hext.lineStream s hs]

theorem newRef (h : Heap) (target : Value) : h.Extends (h.newRef target).2 where
  count cell := by cases cell <;> simp [Heap.count, Heap.newRef]
  referent _ hr := h.referent_newRef_of_lt target hr
  items _ _ := rfl
  pairs _ _ := rfl
  body _ _ := rfl
  lineStream _ _ := rfl

theorem newSequence (h : Heap) (items : Array Value) : h.Extends (h.newSequence items).2 where
  count cell := by cases cell <;> simp [Heap.count, Heap.newSequence]
  referent _ _ := rfl
  items _ hs := h.items_newSequence_of_lt items hs
  pairs _ _ := rfl
  body _ _ := rfl
  lineStream _ _ := rfl

theorem newMapping (h : Heap) (pairs : Dict Value) : h.Extends (h.newMapping pairs).2 where
  count cell := by cases cell <;> simp [Heap.count, Heap.newMapping]
  referent _ _ := rfl
  items _ _ := rfl
  pairs _ hm := h.pairs_newMapping_of_lt pairs hm
  body _ _ := rfl
  lineStream _ _ := rfl

theorem newCallable (h : Heap) (body : Body) : h.Extends (h.newCallable body).2 where
  count cell := by cases cell <;> simp [Heap.count, Heap.newCallable]
  referent _ _ := rfl
  items _ _ := rfl
  pairs _ _ := rfl
  body _ hc := h.body_newCallable_of_lt body hc
  lineStream _ _ := rfl

theorem newStream (h : Heap) (stream : LineStream) : h.Extends (h.newStream stream).2 where
  count cell := by cases cell <;> simp [Heap.count, Heap.newStream]
  referent _ _ := rfl
  items _ _ := rfl
  pairs _ _ := rfl
  body _ _ := rfl
  lineStream _ hs := h.lineStream_newStream_of_lt stream hs

theorem newEmpty (h : Heap) (kind : Kind) : h.Extends (h.newEmpty kind).2 := by
  cases kind with
  | scalar => exact refl h
  | sequence => exact newSequence h #[]
  | mapping => exact newMapping h ∅
  | callable => exact refl h
  | stream => exact newStream h {}

theorem read (h : Heap) (reading : Reading) (name : String) :
    h.Extends (h.read reading name).2 := by
  cases reading with
  | held value => exact refl h
  | declared raw => exact newCallable h _

/-- To make cells takes no callable away and changes none. -/
theorem keeps (hext : h.Extends h') : h.Keeps h' :=
  ⟨hext.count .callable, fun c hc _ => hext.body c hc⟩

end Extends

/-! ### What is there -/

/-- The cell that a value names, if it names one, is there. -/
def Has (h : Heap) (v : Value) : Prop :=
  ∀ cell i, v.cell? = some (cell, i) → i < h.count cell

theorem Has.grow {v : Value} (hhas : h.Has v) (hgrows : h.Grows h') : h'.Has v :=
  fun cell i hi => Nat.lt_of_lt_of_le (hhas cell i hi) (hgrows.count cell)

theorem has_of_plain {v : Value} (hv : v.cell? = none) (h : Heap) : h.Has v := by
  intro cell i hi
  rw [hv] at hi
  cases hi

theorem has_newRef (h : Heap) (target : Value) : (h.newRef target).2.Has (h.newRef target).1 := by
  intro cell i hi
  cases hi
  simp [newRef, count]

theorem has_newSequence (h : Heap) (items : Array Value) :
    (h.newSequence items).2.Has (h.newSequence items).1 := by
  intro cell i hi
  cases hi
  simp [newSequence, count]

theorem has_newMapping (h : Heap) (pairs : Dict Value) :
    (h.newMapping pairs).2.Has (h.newMapping pairs).1 := by
  intro cell i hi
  cases hi
  simp [newMapping, count]

theorem has_newCallable (h : Heap) (body : Body) :
    (h.newCallable body).2.Has (h.newCallable body).1 := by
  intro cell i hi
  cases hi
  simp [newCallable, count]

theorem has_newStream (h : Heap) (stream : LineStream) :
    (h.newStream stream).2.Has (h.newStream stream).1 := by
  intro cell i hi
  cases hi
  simp [newStream, count]

theorem has_newEmpty (h : Heap) {kind : Kind} {v : Value} (hv : (h.newEmpty kind).1 = some v) :
    (h.newEmpty kind).2.Has v := by
  cases kind with
  | scalar =>
      cases hv
      exact has_of_plain rfl h
  | sequence =>
      cases hv
      exact h.has_newSequence #[]
  | mapping =>
      cases hv
      exact h.has_newMapping ∅
  | callable => cases hv
  | stream =>
      cases hv
      exact h.has_newStream {}

/-! ### What is held -/

/-- A value stands in a cell. -/
inductive Holds (h : Heap) : Value → Prop where
  | referent (r : Handle .ref) : Holds h (h.referent r)
  | item (s : Handle .sequence) {v : Value} (there : v ∈ h.items s) : Holds h v
  | entry (m : Handle .mapping) {key : String} {v : Value}
      (there : (h.pairs m)[key]? = some v) : Holds h v
  | answer (c : Handle .callable) {v : Value} (does : h.body c = .constant v) : Holds h v

/-- Whatever stands in a cell names cells that are there. -/
def Closed (h : Heap) : Prop :=
  ∀ v, h.Holds v → h.Has v

theorem closed_empty : Closed {} := by
  intro v hholds
  cases hholds with
  | referent r => exact has_of_plain (by simp [Heap.referent, Value.cell?]) _
  | item s there => simp [Heap.items] at there
  | entry m there => simp [Heap.pairs] at there
  | answer c does =>
      simp only [Heap.body, Array.getD_eq_getD_getElem?, Array.getElem?_empty,
        Option.getD_none] at does
      cases does
      exact has_of_plain rfl _

namespace Closed

variable (hclosed : h.Closed)
include hclosed

/-- A heap stays closed as it grows if what comes to stand in its cells is there. -/
theorem grow (hgrows : h.Grows h') (hholds : ∀ v, h'.Holds v → h.Holds v ∨ h'.Has v) :
    h'.Closed := by
  intro v hv
  rcases hholds v hv with hbefore | hhas
  · exact (hclosed v hbefore).grow hgrows
  · exact hhas

theorem newRef {target : Value} (htarget : h.Has target) : (h.newRef target).2.Closed := by
  have hgrows := (Extends.newRef h target).toGrows
  refine hclosed.grow hgrows fun v hv => ?_
  cases hv with
  | referent r =>
      have hread : (h.newRef target).2.referent r
          = if r.index = h.refs.size then target else h.referent r := by
        simp only [Heap.newRef, Heap.referent, Array.getD_eq_getD_getElem?, Array.getElem?_push]
        split <;> rfl
      rw [hread]
      split
      · exact Or.inr (htarget.grow hgrows)
      · exact Or.inl (.referent r)
  | item s there => exact Or.inl (.item s there)
  | entry m there => exact Or.inl (.entry m there)
  | answer c does => exact Or.inl (.answer c does)

theorem newSequence {items : Array Value} (hitems : ∀ v ∈ items, h.Has v) :
    (h.newSequence items).2.Closed := by
  have hgrows := (Extends.newSequence h items).toGrows
  refine hclosed.grow hgrows fun v hv => ?_
  cases hv with
  | referent r => exact Or.inl (.referent r)
  | item s there =>
      have hread : (h.newSequence items).2.items s
          = if s.index = h.sequences.size then items else h.items s := by
        simp only [Heap.newSequence, Heap.items, Array.getD_eq_getD_getElem?, Array.getElem?_push]
        split <;> rfl
      rw [hread] at there
      split at there
      · exact Or.inr ((hitems v there).grow hgrows)
      · exact Or.inl (.item s there)
  | entry m there => exact Or.inl (.entry m there)
  | answer c does => exact Or.inl (.answer c does)

theorem newMapping {pairs : Dict Value} (hpairs : ∀ (key : String) v, pairs[key]? = some v → h.Has v) :
    (h.newMapping pairs).2.Closed := by
  have hgrows := (Extends.newMapping h pairs).toGrows
  refine hclosed.grow hgrows fun v hv => ?_
  cases hv with
  | referent r => exact Or.inl (.referent r)
  | item s there => exact Or.inl (.item s there)
  | entry m there =>
      have hread : (h.newMapping pairs).2.pairs m
          = if m.index = h.mappings.size then pairs else h.pairs m := by
        simp only [Heap.newMapping, Heap.pairs, Array.getD_eq_getD_getElem?, Array.getElem?_push]
        split <;> rfl
      rw [hread] at there
      split at there
      · exact Or.inr ((hpairs _ v there).grow hgrows)
      · exact Or.inl (.entry m there)
  | answer c does => exact Or.inl (.answer c does)

theorem newCallable {body : Body} (hbody : ∀ v, body = .constant v → h.Has v) :
    (h.newCallable body).2.Closed := by
  have hgrows := (Extends.newCallable h body).toGrows
  refine hclosed.grow hgrows fun v hv => ?_
  cases hv with
  | referent r => exact Or.inl (.referent r)
  | item s there => exact Or.inl (.item s there)
  | entry m there => exact Or.inl (.entry m there)
  | answer c does =>
      have hread : (h.newCallable body).2.body c
          = if c.index = h.callables.size then body else h.body c := by
        simp only [Heap.newCallable, Heap.body, Array.getD_eq_getD_getElem?, Array.getElem?_push]
        split <;> rfl
      rw [hread] at does
      split at does
      · exact Or.inr ((hbody v does).grow hgrows)
      · exact Or.inl (.answer c does)

theorem newStream (stream : LineStream) : (h.newStream stream).2.Closed := by
  refine hclosed.grow (Extends.newStream h stream).toGrows fun v hv => Or.inl ?_
  cases hv with
  | referent r => exact .referent r
  | item s there => exact .item s there
  | entry m there => exact .entry m there
  | answer c does => exact .answer c does

theorem newEmpty (kind : Kind) : (h.newEmpty kind).2.Closed := by
  cases kind with
  | scalar => exact hclosed
  | sequence =>
      have hitems : ∀ v ∈ (#[] : Array Value), h.Has v := by simp
      exact hclosed.newSequence hitems
  | mapping =>
      have hpairs : ∀ (key : String) v, (∅ : Dict Value)[key]? = some v → h.Has v := by simp
      exact hclosed.newMapping hpairs
  | callable => exact hclosed
  | stream => exact hclosed.newStream {}

theorem setItems (s : Handle .sequence) {items : Array Value} (hitems : ∀ v ∈ items, h.Has v) :
    (h.setItems s items).Closed := by
  have hgrows := Grows.setItems h s items
  refine hclosed.grow hgrows fun v hv => ?_
  cases hv with
  | referent r => exact Or.inl (.referent r)
  | item t there =>
      have hread : (h.setItems s items).items t = items ∨ (h.setItems s items).items t = h.items t := by
        simp only [Heap.setItems, Heap.items, Array.getD_eq_getD_getElem?,
          Array.getElem?_setIfInBounds]
        split
        · rename_i heq
          split
          · exact Or.inl rfl
          · rename_i hout
            right
            rw [Array.getElem?_eq_none (by omega)]
        · exact Or.inr rfl
      rcases hread with hread | hread
      · rw [hread] at there
        exact Or.inr ((hitems v there).grow hgrows)
      · rw [hread] at there
        exact Or.inl (.item t there)
  | entry m there => exact Or.inl (.entry m there)
  | answer c does => exact Or.inl (.answer c does)

theorem setPairs (m : Handle .mapping) {pairs : Dict Value}
    (hpairs : ∀ (key : String) v, pairs[key]? = some v → h.Has v) : (h.setPairs m pairs).Closed := by
  have hgrows := Grows.setPairs h m pairs
  refine hclosed.grow hgrows fun v hv => ?_
  cases hv with
  | referent r => exact Or.inl (.referent r)
  | item s there => exact Or.inl (.item s there)
  | entry n there =>
      have hread : (h.setPairs m pairs).pairs n = pairs ∨ (h.setPairs m pairs).pairs n = h.pairs n := by
        simp only [Heap.setPairs, Heap.pairs, Array.getD_eq_getD_getElem?,
          Array.getElem?_setIfInBounds]
        split
        · rename_i heq
          split
          · exact Or.inl rfl
          · rename_i hout
            right
            rw [Array.getElem?_eq_none (by omega)]
        · exact Or.inr rfl
      rcases hread with hread | hread
      · rw [hread] at there
        exact Or.inr ((hpairs _ v there).grow hgrows)
      · rw [hread] at there
        exact Or.inl (.entry n there)
  | answer c does => exact Or.inl (.answer c does)

/-- A callable that counts holds nothing. -/
theorem setCounter (c : Handle .callable) (calls : Nat) :
    (h.setBody c (.builtin (.counter calls))).Closed := by
  have hgrows := Grows.setBody h c (.builtin (.counter calls))
  refine hclosed.grow hgrows fun v hv => Or.inl ?_
  cases hv with
  | referent r => exact .referent r
  | item s there => exact .item s there
  | entry m there => exact .entry m there
  | answer d does =>
      refine .answer d ?_
      simp only [Heap.setBody, Heap.body, Array.getD_eq_getD_getElem?,
        Array.getElem?_setIfInBounds] at does ⊢
      split at does
      · rename_i heq
        split at does
        · cases does
        · rename_i hout
          rw [Array.getElem?_eq_none (by omega)]
          exact does
      · exact does

theorem setStream (s : Handle .stream) (stream : LineStream) : (h.setStream s stream).Closed := by
  refine hclosed.grow (Grows.setStream h s stream) fun v hv => Or.inl ?_
  cases hv with
  | referent r => exact .referent r
  | item s there => exact .item s there
  | entry m there => exact .entry m there
  | answer c does => exact .answer c does

/-- What a reference that is there refers to is there too, and so is what a stub says of it. -/
theorem stubBody {raw : Value} {name : String} {v : Value}
    (hbody : h.stubBody raw name = .constant v) : h.Has v := by
  cases raw with
  | ref r =>
      cases hbody
      exact hclosed _ (.referent r)
  | _ => cases hbody

end Closed

/-! ### Calls -/

/-- From a closed heap a call comes to a closed one, and what it gives is there. -/
structure Answered (h : Heap) (outcome : EStateM.Result BindError Heap Value) : Prop where
  grows : h.Grows (left outcome)
  closed : (left outcome).Closed
  has : ∀ v after, outcome = .ok v after → after.Has v

theorem Answered.of_has (hclosed : h.Closed) {v : Value} (hhas : h.Has v) :
    h.Answered (.ok v h) where
  grows := .refl h
  closed := hclosed
  has _ _ heq := by
    cases heq
    exact hhas

theorem Answered.of_error (hclosed : h.Closed) (e : BindError) : h.Answered (.error e h) where
  grows := .refl h
  closed := hclosed
  has _ _ heq := by cases heq

theorem answered_call (args : List Value) (callee : Handle .callable) (hclosed : h.Closed)
    (hargs : ∀ v ∈ args, h.Has v) : h.Answered (call args callee h) := by
  induction args, callee using call.induct with
  | case1 args callee ih =>
    unfold call
    rw [get_bind_run]
    cases hbody : h.body callee with
    | constant value => exact .of_has hclosed (hclosed value (.answer callee hbody))
    | undefined name => exact .of_error hclosed _
    | builtin builtin =>
        cases builtin with
        | argumentCount => exact .of_has hclosed (has_of_plain rfl h)
        | firstArgument =>
            refine .of_has hclosed ?_
            cases args with
            | nil => exact has_of_plain rfl h
            | cons first rest => exact hargs first (by simp)
        | allArguments =>
            refine ⟨(Extends.newSequence h _).toGrows, hclosed.newSequence (by simpa using hargs), ?_⟩
            intro v after heq
            cases heq
            exact h.has_newSequence _
        | sum =>
            simp only
            cases sum 0 args with
            | ok total => exact .of_has hclosed (has_of_plain rfl h)
            | error e => exact .of_error hclosed e
        | counter calls =>
            refine ⟨.setBody h callee _, hclosed.setCounter callee (calls + 1), ?_⟩
            intro v after heq
            cases heq
            exact has_of_plain rfl _
        | raise message => exact .of_error hclosed _
        | apply =>
            cases args with
            | nil => exact .of_error hclosed _
            | cons first rest =>
                cases first with
                | callable next => exact ih fun v hv => hargs v (by simp [hv])
                | _ => exact .of_error hclosed _

/-! ### New cells -/

/-- A value names a cell that is not there yet. -/
def Fresh (h : Heap) (v : Value) : Prop :=
  ∃ cell i, v.cell? = some (cell, i) ∧ h.count cell ≤ i

theorem Fresh.not_has {v : Value} (hfresh : h.Fresh v) : ¬ h.Has v := by
  obtain ⟨cell, i, hcell, hcount⟩ := hfresh
  exact fun hhas => absurd (hhas cell i hcell) (Nat.not_lt.mpr hcount)

/-- A value that names a new cell is the same as none that names a cell that was there. -/
theorem Fresh.not_same {v w : Value} (hfresh : h.Fresh v) (hhas : h.Has w) :
    v.same w = false ∧ w.same v = false := by
  have hne : v ≠ w := by
    rintro rfl
    exact hfresh.not_has hhas
  obtain ⟨cell, i, hcell, -⟩ := hfresh
  obtain ⟨hsame, hsame'⟩ := Value.same_of_cell (w := w) hcell
  rw [hsame, hsame']
  exact ⟨decide_eq_false hne, decide_eq_false (Ne.symm hne)⟩

/-- An empty sequence, an empty mapping, or a stream that is open and holds no lines. -/
inductive Blank (h : Heap) : Value → Prop where
  | sequence {s : Handle .sequence} (empty : h.items s = #[]) : Blank h (.sequence s)
  | mapping {m : Handle .mapping} (empty : h.pairs m = ∅) : Blank h (.mapping m)
  | stream {s : Handle .stream} (empty : h.lineStream s = ⟨[], false⟩) : Blank h (.stream s)

/-- **The empty value of a kind is new and empty.** -/
theorem newEmpty_fresh (h : Heap) {kind : Kind} (hscalar : kind ≠ .scalar)
    (hcallable : kind ≠ .callable) :
    ∃ v, (h.newEmpty kind).1 = some v ∧ v.fits kind = true ∧ h.Fresh v ∧
      (h.newEmpty kind).2.Blank v := by
  cases kind with
  | scalar => exact absurd rfl hscalar
  | callable => exact absurd rfl hcallable
  | sequence =>
      exact ⟨_, rfl, rfl, ⟨_, _, rfl, Nat.le_refl _⟩, .sequence (h.items_newSequence #[])⟩
  | mapping => exact ⟨_, rfl, rfl, ⟨_, _, rfl, Nat.le_refl _⟩, .mapping (h.pairs_newMapping ∅)⟩
  | stream => exact ⟨_, rfl, rfl, ⟨_, _, rfl, Nat.le_refl _⟩, .stream (h.lineStream_newStream {})⟩

/-- What is blank stays blank as cells come to be. -/
theorem Blank.extend {v : Value} (hblank : h.Blank v) (hhas : h.Has v) (hext : h.Extends h') :
    h'.Blank v := by
  cases hblank with
  | @sequence s empty => exact .sequence ((hext.items s (hhas _ _ rfl)).trans empty)
  | @mapping m empty => exact .mapping ((hext.pairs m (hhas _ _ rfl)).trans empty)
  | @stream s empty => exact .stream ((hext.lineStream s (hhas _ _ rfl)).trans empty)

/-- The only new cell is the one that was made. -/
theorem eq_of_made {c : Cell} {v : Value}
    (hcount : ∀ cell, h'.count cell = if cell = c then h.count cell + 1 else h.count cell)
    (hfresh : h.Fresh v) (hhas : h'.Has v) : v = .handle c (h.count c) := by
  obtain ⟨cell, i, hcell, hle⟩ := hfresh
  have hlt := hhas cell i hcell
  rw [hcount] at hlt
  split at hlt
  · rename_i heq
    subst heq
    obtain rfl : i = h.count cell := by omega
    exact Value.eq_handle hcell
  · omega

theorem count_newSequence (h : Heap) (items : Array Value) (cell : Cell) :
    (h.newSequence items).2.count cell
      = if cell = .sequence then h.count cell + 1 else h.count cell := by
  cases cell <;> simp [count, newSequence]

theorem count_newMapping (h : Heap) (pairs : Dict Value) (cell : Cell) :
    (h.newMapping pairs).2.count cell
      = if cell = .mapping then h.count cell + 1 else h.count cell := by
  cases cell <;> simp [count, newMapping]

theorem count_newCallable (h : Heap) (body : Body) (cell : Cell) :
    (h.newCallable body).2.count cell
      = if cell = .callable then h.count cell + 1 else h.count cell := by
  cases cell <;> simp [count, newCallable]

theorem count_newStream (h : Heap) (stream : LineStream) (cell : Cell) :
    (h.newStream stream).2.count cell
      = if cell = .stream then h.count cell + 1 else h.count cell := by
  cases cell <;> simp [count, newStream]

/--
The cells that come to be between two heaps are blank sequences, mappings and streams, and
callables that do what is declared.
-/
structure Makes (declares : Body → Prop) (h h' : Heap) : Prop extends Extends h h' where
  refs : h'.refs = h.refs
  blank : ∀ v, h.Fresh v → h'.Has v → v.asCallable? = none → h'.Blank v
  declared : ∀ c : Handle .callable, h.callables.size ≤ c.index → c.index < h'.callables.size →
    declares (h'.body c)

namespace Makes

variable {declares : Body → Prop}

theorem refl (h : Heap) : h.Makes declares h where
  toExtends := .refl h
  refs := rfl
  blank _ hfresh hhas := absurd hhas hfresh.not_has
  declared _ hfresh hmade := absurd hmade (Nat.not_lt.mpr hfresh)

theorem trans (hmakes : h.Makes declares h') (hmakes' : h'.Makes declares h'') :
    h.Makes declares h'' where
  toExtends := hmakes.toExtends.trans hmakes'.toExtends
  refs := hmakes'.refs.trans hmakes.refs
  blank v hfresh hhas hcallable := by
    by_cases hbefore : h'.Has v
    · exact (hmakes.blank v hfresh hbefore hcallable).extend hbefore hmakes'.toExtends
    · obtain ⟨cell, i, hcell, -⟩ := hfresh
      refine hmakes'.blank v ⟨cell, i, hcell, ?_⟩ hhas hcallable
      by_contra hlt
      refine hbefore fun cell' i' hcell' => ?_
      obtain ⟨rfl, rfl⟩ : cell = cell' ∧ i = i' := by simpa [hcell] using hcell'
      exact Nat.not_le.mp hlt
  declared c hfresh hmade := by
    by_cases hbefore : c.index < h'.callables.size
    · rw [hmakes'.body c hbefore]
      exact hmakes.declared c hfresh hbefore
    · exact hmakes'.declared c (Nat.not_lt.mp hbefore) hmade

theorem imp {declares' : Body → Prop} (hmakes : h.Makes declares h')
    (himp : ∀ body, declares body → declares' body) : h.Makes declares' h' where
  toExtends := hmakes.toExtends
  refs := hmakes.refs
  blank := hmakes.blank
  declared c hfresh hmade := himp _ (hmakes.declared c hfresh hmade)

theorem newEmpty (h : Heap) (kind : Kind) : h.Makes declares (h.newEmpty kind).2 := by
  cases kind with
  | scalar => exact .refl h
  | callable => exact .refl h
  | sequence =>
      refine ⟨.newSequence h #[], rfl, ?_, fun c hfresh hmade => absurd hmade (Nat.not_lt.mpr hfresh)⟩
      intro v hfresh hhas _
      rw [eq_of_made (count_newSequence h #[]) hfresh hhas]
      exact .sequence (h.items_newSequence #[])
  | mapping =>
      refine ⟨.newMapping h ∅, rfl, ?_, fun c hfresh hmade => absurd hmade (Nat.not_lt.mpr hfresh)⟩
      intro v hfresh hhas _
      rw [eq_of_made (count_newMapping h ∅) hfresh hhas]
      exact .mapping (h.pairs_newMapping ∅)
  | stream =>
      refine ⟨.newStream h {}, rfl, ?_, fun c hfresh hmade => absurd hmade (Nat.not_lt.mpr hfresh)⟩
      intro v hfresh hhas _
      rw [eq_of_made (count_newStream h {}) hfresh hhas]
      exact .stream (h.lineStream_newStream {})

theorem newCallable (h : Heap) {body : Body} (hbody : declares body) :
    h.Makes declares (h.newCallable body).2 := by
  refine ⟨.newCallable h body, rfl, ?_, ?_⟩
  · intro v hfresh hhas hcallable
    rw [eq_of_made (count_newCallable h body) hfresh hhas] at hcallable
    cases hcallable
  · intro c hfresh hmade
    have hindex : c.index < h.callables.size + 1 := by simpa [Heap.newCallable] using hmade
    obtain rfl : c = ⟨h.callables.size⟩ := by
      cases c
      simp only [Handle.mk.injEq]
      simp only at hfresh hindex
      omega
    rw [h.body_newCallable]
    exact hbody

/-- A reading makes at most the callable of a stub. -/
theorem read (h : Heap) {reading : Reading} {name : String}
    (hdeclares : ∀ raw, reading = .declared raw → declares (h.stubBody raw name)) :
    h.Makes declares (h.read reading name).2 := by
  cases reading with
  | held value => exact .refl h
  | declared raw => exact .newCallable h (hdeclares raw rfl)

end Makes

end Heap

end Bindery
