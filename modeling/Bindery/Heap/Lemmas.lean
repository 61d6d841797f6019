/-
What is read from a heap after a step.

A new cell holds what it was made with, and every older cell what it held.  A cell
that is changed holds what it was changed to, and every other cell what it held.
Steps on cells of one sort leave the cells of the other sorts alone.
-/
import Bindery.Heap

namespace Bindery.Heap

variable (h : Heap)

/-! ### References -/

@[simp] theorem referent_newRef (target : Value) :
    (h.newRef target).2.referent ⟨h.refs.size⟩ = target := by
  simp [newRef, referent]

theorem referent_newRef_of_lt (target : Value) {r : Handle .ref} (hr : r.index < h.refs.size) :
    (h.newRef target).2.referent r = h.referent r := by
  simp [newRef, referent, Array.getD_eq_getD_getElem?, Array.getElem?_push, Nat.ne_of_lt hr]

/-! ### Sequences -/

@[simp] theorem items_newSequence (items : Array Value) :
    (h.newSequence items).2.items ⟨h.sequences.size⟩ = items := by
  simp [newSequence, Heap.items]

theorem items_newSequence_of_lt (items : Array Value) {s : Handle .sequence}
    (hs : s.index < h.sequences.size) : (h.newSequence items).2.items s = h.items s := by
  simp [newSequence, Heap.items, Array.getD_eq_getD_getElem?, Array.getElem?_push,
    Nat.ne_of_lt hs]

theorem items_setItems {s : Handle .sequence} (hs : s.index < h.sequences.size)
    (items : Array Value) (t : Handle .sequence) :
    (h.setItems s items).items t = if t = s then items else h.items t := by
  by_cases e : t = s
  · subst e
    simp [setItems, Heap.items, hs]
  · have ne : s.index ≠ t.index := fun eq => e (by cases s; cases t; simp_all)
    simp [setItems, Heap.items, Array.getD_eq_getD_getElem?, ne, e]

/-! ### Mappings -/

@[simp] theorem pairs_newMapping (pairs : Dict Value) :
    (h.newMapping pairs).2.pairs ⟨h.mappings.size⟩ = pairs := by
  simp [newMapping, Heap.pairs]

theorem pairs_newMapping_of_lt (pairs : Dict Value) {m : Handle .mapping}
    (hm : m.index < h.mappings.size) : (h.newMapping pairs).2.pairs m = h.pairs m := by
  simp [newMapping, Heap.pairs, Array.getD_eq_getD_getElem?, Array.getElem?_push,
    Nat.ne_of_lt hm]

theorem pairs_setPairs {m : Handle .mapping} (hm : m.index < h.mappings.size)
    (pairs : Dict Value) (n : Handle .mapping) :
    (h.setPairs m pairs).pairs n = if n = m then pairs else h.pairs n := by
  by_cases e : n = m
  · subst e
    simp [setPairs, Heap.pairs, hm]
  · have ne : m.index ≠ n.index := fun eq => e (by cases m; cases n; simp_all)
    simp [setPairs, Heap.pairs, Array.getD_eq_getD_getElem?, ne, e]

/-! ### Callables -/

@[simp] theorem body_newCallable (body : Body) :
    (h.newCallable body).2.body ⟨h.callables.size⟩ = body := by
  simp [newCallable, Heap.body]

theorem body_newCallable_of_lt (body : Body) {c : Handle .callable}
    (hc : c.index < h.callables.size) : (h.newCallable body).2.body c = h.body c := by
  simp [newCallable, Heap.body, Array.getD_eq_getD_getElem?, Array.getElem?_push,
    Nat.ne_of_lt hc]

/-! ### Streams -/

@[simp] theorem lineStream_newStream (stream : LineStream) :
    (h.newStream stream).2.lineStream ⟨h.streams.size⟩ = stream := by
  simp [newStream, lineStream]

theorem lineStream_newStream_of_lt (stream : LineStream) {s : Handle .stream}
    (hs : s.index < h.streams.size) : (h.newStream stream).2.lineStream s = h.lineStream s := by
  simp [newStream, lineStream, Array.getD_eq_getD_getElem?, Array.getElem?_push,
    Nat.ne_of_lt hs]

theorem lineStream_setStream {s : Handle .stream} (hs : s.index < h.streams.size)
    (stream : LineStream) (t : Handle .stream) :
    (h.setStream s stream).lineStream t = if t = s then stream else h.lineStream t := by
  by_cases e : t = s
  · subst e
    simp [setStream, lineStream, hs]
  · have ne : s.index ≠ t.index := fun eq => e (by cases s; cases t; simp_all)
    simp [setStream, lineStream, Array.getD_eq_getD_getElem?, ne, e]

end Bindery.Heap
