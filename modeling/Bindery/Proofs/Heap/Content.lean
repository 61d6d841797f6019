/-
What cells hold, whatever their sort.

Five readers say what cells hold, one for each sort.  Here what a cell holds is one datum, so
that two heaps can be compared cell by cell: cells that are made do not change the others, and
two cells of one sort that were made alike hold the same.
-/
import Bindery.Proofs.Heap.Named

namespace Bindery

/-- What a cell holds. -/
inductive Content where
  | referent (value : Value)
  | items (items : Array Value)
  | pairs (pairs : Dict Value)
  | body (body : Body)
  | lineStream (stream : LineStream)

/-- A value stands in what a cell holds. -/
inductive Content.Holds : Content → Value → Prop where
  | referent (v : Value) : Holds (.referent v) v
  | item {items : Array Value} {v : Value} (there : v ∈ items) : Holds (.items items) v
  | entry {pairs : Dict Value} {key : String} {v : Value} (there : pairs[key]? = some v) :
      Holds (.pairs pairs) v
  | answer (v : Value) : Holds (.body (.constant v)) v

/-- What a cell of a sort holds that was just made: nothing, or a callable that is declared. -/
inductive Content.Made (declares : Body → Prop) : Cell → Content → Prop where
  | sequence : Made declares .sequence (.items #[])
  | mapping : Made declares .mapping (.pairs ∅)
  | callable {body : Body} (h : declares body) : Made declares .callable (.body body)
  | stream : Made declares .stream (.lineStream ⟨[], false⟩)

/-- Cells of one sort that were just made hold the same, if the same is declared. -/
theorem Content.Made.unique {declares declares' : Body → Prop} {cell : Cell} {held held' : Content}
    (hmade : Made declares cell held) (hmade' : Made declares' cell held')
    (hbody : ∀ body body', declares body → declares' body' → body = body') : held = held' := by
  cases hmade with
  | sequence =>
      cases hmade'
      rfl
  | mapping =>
      cases hmade'
      rfl
  | callable h =>
      cases hmade' with
      | callable h' => rw [hbody _ _ h h']
  | stream =>
      cases hmade'
      rfl

/-- All that can stand in a cell that was just made is what a declared callable gives. -/
theorem Content.Made.declares_of_holds {declares : Body → Prop} {cell : Cell} {held : Content}
    (hmade : Made declares cell held) {v : Value} (hholds : held.Holds v) :
    declares (.constant v) := by
  cases hmade with
  | sequence =>
      cases hholds with
      | item there => simp at there
  | mapping =>
      cases hholds with
      | entry there => simp at there
  | callable h =>
      cases hholds
      exact h
  | stream => cases hholds

namespace Heap

/-- What the cell of a sort and number holds. -/
def content (h : Heap) : Cell → Nat → Content
  | .ref, i => .referent (h.referent ⟨i⟩)
  | .sequence, i => .items (h.items ⟨i⟩)
  | .mapping, i => .pairs (h.pairs ⟨i⟩)
  | .callable, i => .body (h.body ⟨i⟩)
  | .stream, i => .lineStream (h.lineStream ⟨i⟩)

variable {h h' : Heap}

theorem holds_of_content {cell : Cell} {i : Nat} {v : Value} (hholds : (h.content cell i).Holds v) :
    h.Holds v := by
  cases cell with
  | ref =>
      cases hholds
      exact .referent ⟨i⟩
  | sequence =>
      cases hholds with
      | item there => exact .item ⟨i⟩ there
  | mapping =>
      cases hholds with
      | entry there => exact .entry ⟨i⟩ there
  | callable =>
      generalize hbody : h.body ⟨i⟩ = body at hholds
      simp only [content, hbody] at hholds
      cases hholds
      exact .answer ⟨i⟩ hbody
  | stream => cases hholds

/-- To make cells leaves what the others hold. -/
theorem Extends.content (hext : h.Extends h') {cell : Cell} {i : Nat} (hi : i < h.count cell) :
    h'.content cell i = h.content cell i := by
  cases cell with
  | ref => exact congrArg Content.referent (hext.referent ⟨i⟩ hi)
  | sequence => exact congrArg Content.items (hext.items ⟨i⟩ hi)
  | mapping => exact congrArg Content.pairs (hext.pairs ⟨i⟩ hi)
  | callable => exact congrArg Content.body (hext.body ⟨i⟩ hi)
  | stream => exact congrArg Content.lineStream (hext.lineStream ⟨i⟩ hi)

/-- A cell that is made holds nothing, or is a callable that does what is declared. -/
theorem Makes.content {declares : Body → Prop} (hmakes : h.Makes declares h') {cell : Cell} {i : Nat}
    (hfresh : h.count cell ≤ i) (hmade : i < h'.count cell) :
    Content.Made declares cell (h'.content cell i) := by
  have hblank (hcallable : (Value.handle cell i).asCallable? = none) : h'.Blank (.handle cell i) := by
    refine hmakes.blank _ ⟨cell, i, Value.cell?_handle cell i, hfresh⟩ ?_ hcallable
    intro cell' i' heq
    rw [Value.cell?_handle] at heq
    cases heq
    exact hmade
  cases cell with
  | ref =>
      have hrefs : h'.count .ref = h.count .ref := congrArg Array.size hmakes.refs
      omega
  | sequence =>
      cases hblank rfl with
      | sequence empty =>
          rw [Heap.content, empty]
          exact .sequence
  | mapping =>
      cases hblank rfl with
      | mapping empty =>
          rw [Heap.content, empty]
          exact .mapping
  | callable => exact .callable (hmakes.declared ⟨i⟩ hfresh hmade)
  | stream =>
      cases hblank rfl with
      | stream empty =>
          rw [Heap.content, empty]
          exact .stream

end Heap

end Bindery
