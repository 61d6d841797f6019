/-
How deep values are nested.

A value contains what the cell it names holds: a reference its referent, a sequence its
items, a mapping its values.  A heap is acyclic when no value contains itself, however
many cells lie between.

Equality and the printed forms follow values only down to a depth that is fixed
beforehand, `Heap.depthBound`.  What is shown here is that in an acyclic heap this depth
is enough for every value.  The measure is the number of cells that a value reaches: a
value that is contained in another reaches what it reaches and lies in that too, but
does not reach the other, or that would contain itself.
-/
import Bindery.Heap
import Mathlib.Data.Finset.Card
import Mathlib.Logic.Relation

namespace Bindery

/-- A value names a cell that holds other values. -/
def Value.holdsValues : Value → Bool
  | ref _ | sequence _ | mapping _ => true
  | _ => false

namespace Heap

/-- The cell that one value names holds the other.  A handle may name no cell. -/
inductive Contains (h : Heap) : Value → Value → Prop where
  | referent {r : Handle .ref} (named : r.index < h.refs.size) : Contains h (.ref r) (h.referent r)
  | item {s : Handle .sequence} {v : Value} (held : v ∈ h.items s) : Contains h (.sequence s) v
  | value {m : Handle .mapping} {key : String} {v : Value} (held : (h.pairs m)[key]? = some v) :
      Contains h (.mapping m) v

/-- One value is the other, or lies in it at some depth. -/
def Reaches (h : Heap) : Value → Value → Prop :=
  Relation.ReflTransGen h.Contains

/-- No value contains itself at any depth. -/
def Acyclic (h : Heap) : Prop :=
  ∀ v, ¬ Relation.TransGen h.Contains v v

/-- All that a value reaches, itself included, is so. -/
def Throughout (h : Heap) (p : Value → Prop) (v : Value) : Prop :=
  ∀ w, h.Reaches v w → p w

/-- Fewer than `depth` cells lie one inside the other below a value. -/
def NestedWithin (h : Heap) : (depth : Nat) → Value → Prop
  | 0, _ => False
  | depth + 1, v => ∀ w, h.Contains v w → h.NestedWithin depth w

variable {h : Heap}

/-! ### Values that contain nothing -/

theorem not_contains_undefined (w : Value) : ¬ h.Contains .undefined w := by
  intro hcontains
  cases hcontains

/-- What a reference refers to is in it, or is undefined because it names no cell. -/
theorem contains_referent (h : Heap) (r : Handle .ref) :
    h.Contains (.ref r) (h.referent r) ∨ h.referent r = .undefined := by
  by_cases hnamed : r.index < h.refs.size
  · exact Or.inl (.referent hnamed)
  · refine Or.inr ?_
    simp [Heap.referent, Array.getD, hnamed]

theorem index_lt_of_mem_items {s : Handle .sequence} {v : Value} (hheld : v ∈ h.items s) :
    s.index < h.sequences.size := by
  by_contra hout
  simp [items, Array.getD, hout] at hheld

theorem index_lt_of_mem_pairs {m : Handle .mapping} {key : String} {v : Value}
    (hheld : (h.pairs m)[key]? = some v) : m.index < h.mappings.size := by
  by_contra hout
  simp [pairs, Array.getD, hout] at hheld

/-- What one value contains stands in a cell. -/
theorem Contains.held {v w : Value} (hcontains : h.Contains v w) :
    w ∈ h.refs ∨ (∃ items ∈ h.sequences, w ∈ items) ∨
      ∃ pairs ∈ h.mappings, ∃ key : String, pairs[key]? = some w := by
  cases hcontains with
  | @referent r hnamed =>
      refine Or.inl ?_
      simp [Heap.referent, Array.getD, hnamed]
  | @item s _ hheld =>
      have hnamed := index_lt_of_mem_items hheld
      refine Or.inr (Or.inl ⟨h.sequences[s.index], Array.getElem_mem hnamed, ?_⟩)
      simpa [items, Array.getD, hnamed] using hheld
  | @value m key _ hheld =>
      have hnamed := index_lt_of_mem_pairs hheld
      refine Or.inr (Or.inr ⟨h.mappings[m.index], Array.getElem_mem hnamed, key, ?_⟩)
      simpa [pairs, Array.getD, hnamed] using hheld

/-- A value that contains another names a cell that holds values. -/
theorem Contains.holdsValues {v w : Value} (hcontains : h.Contains v w) :
    v.holdsValues = true := by
  cases hcontains <;> rfl

namespace Throughout

variable {p : Value → Prop} {v w : Value}

theorem self (hv : h.Throughout p v) : p v :=
  hv v .refl

/-- What passes from each value to all that its cell holds is so of all that is reached. -/
theorem of_step (hstep : ∀ u w, h.Contains u w → p u → p w) (hv : p v) : h.Throughout p v := by
  intro w hreaches
  induction hreaches with
  | refl => exact hv
  | tail _ hcontains ih => exact hstep _ _ hcontains ih

theorem of_contains (hv : h.Throughout p v) (hcontains : h.Contains v w) : h.Throughout p w := by
  intro u hreaches
  exact hv u (.head hcontains hreaches)

theorem undefined (hp : p .undefined) : h.Throughout p .undefined := by
  intro w hreaches
  rcases Relation.ReflTransGen.cases_head hreaches with rfl | ⟨u, hcontains, -⟩
  · exact hp
  · exact absurd hcontains (not_contains_undefined u)

theorem referent {r : Handle .ref} (hv : h.Throughout p (.ref r)) (hp : p .undefined) :
    h.Throughout p (h.referent r) := by
  rcases h.contains_referent r with hcontains | hundefined
  · exact hv.of_contains hcontains
  · rw [hundefined]
    exact undefined hp

end Throughout

/-! ### Depth -/

/-- Undefined is nested as little as anything is. -/
theorem nestedWithin_undefined (depth : Nat) : h.NestedWithin (depth + 1) .undefined := by
  intro w hcontains
  exact absurd hcontains (not_contains_undefined w)

/-- The referent of a reference is nested less deep, or the reference names no cell. -/
theorem NestedWithin.referent {depth : Nat} {r : Handle .ref}
    (hr : h.NestedWithin (depth + 1) (.ref r)) :
    h.NestedWithin depth (h.referent r) ∨ h.referent r = .undefined := by
  rcases h.contains_referent r with hcontains | hundefined
  · exact Or.inl (hr _ hcontains)
  · exact Or.inr hundefined

/-- The referents of two references are nested less deep, or neither has anything in it. -/
theorem NestedWithin.referents {depth : Nat} {r s : Handle .ref}
    (hr : h.NestedWithin (depth + 1) (.ref r)) (hs : h.NestedWithin (depth + 1) (.ref s)) :
    (h.NestedWithin depth (h.referent r) ∧ h.NestedWithin depth (h.referent s)) ∨
      (h.referent r = .undefined ∧ h.referent s = .undefined) := by
  cases depth with
  | zero => exact Or.inr ⟨hr.referent.resolve_left id, hs.referent.resolve_left id⟩
  | succ depth =>
      have hless : ∀ {t : Handle .ref}, h.NestedWithin (depth + 2) (.ref t) →
          h.NestedWithin (depth + 1) (h.referent t) := by
        intro t ht
        rcases ht.referent with hnested | hundefined
        · exact hnested
        · rw [hundefined]
          exact nestedWithin_undefined depth
      exact Or.inl ⟨hless hr, hless hs⟩

/-- Each value that names a cell. -/
def cells (h : Heap) : Finset Value :=
  (Finset.range h.refs.size).image (fun i => .ref ⟨i⟩) ∪
    (Finset.range h.sequences.size).image (fun i => .sequence ⟨i⟩) ∪
    (Finset.range h.mappings.size).image (fun i => .mapping ⟨i⟩)

theorem card_cells_lt (h : Heap) : h.cells.card < h.depthBound := by
  have hsplit := Finset.card_union_le
    ((Finset.range h.refs.size).image (fun i => Value.ref ⟨i⟩) ∪
      (Finset.range h.sequences.size).image (fun i => .sequence ⟨i⟩))
    ((Finset.range h.mappings.size).image (fun i => .mapping ⟨i⟩))
  have hsplit' := Finset.card_union_le
    ((Finset.range h.refs.size).image (fun i => Value.ref ⟨i⟩))
    ((Finset.range h.sequences.size).image (fun i => .sequence ⟨i⟩))
  have hrefs := Finset.card_image_le (s := Finset.range h.refs.size) (f := fun i => Value.ref ⟨i⟩)
  have hsequences := Finset.card_image_le (s := Finset.range h.sequences.size)
    (f := fun i => Value.sequence ⟨i⟩)
  have hmappings := Finset.card_image_le (s := Finset.range h.mappings.size)
    (f := fun i => Value.mapping ⟨i⟩)
  rw [Finset.card_range] at hrefs hsequences hmappings
  unfold cells depthBound
  omega

/-- A value that contains another names a cell. -/
theorem mem_cells_of_contains {v w : Value} (hcontains : h.Contains v w) : v ∈ h.cells := by
  unfold cells
  cases hcontains with
  | @referent r hnamed => simpa using ⟨r.index, hnamed, rfl⟩
  | @item s _ hheld => simpa using ⟨s.index, index_lt_of_mem_items hheld, rfl⟩
  | @value m _ _ hheld => simpa using ⟨m.index, index_lt_of_mem_pairs hheld, rfl⟩

open Classical in
/-- The cells that a value reaches. -/
noncomputable def reached (h : Heap) (v : Value) : Finset Value :=
  h.cells.filter fun w => h.Reaches v w

theorem mem_reached {v w : Value} : w ∈ h.reached v ↔ w ∈ h.cells ∧ h.Reaches v w := by
  classical
  unfold reached
  rw [Finset.mem_filter]

/-- A value that is contained in another reaches fewer cells. -/
theorem card_reached_lt (acyclic : h.Acyclic) {v w : Value} (hcontains : h.Contains v w) :
    (h.reached w).card < (h.reached v).card := by
  refine Finset.card_lt_card ((Finset.ssubset_iff_of_subset ?_).mpr ⟨v, ?_, ?_⟩)
  · intro u hu
    obtain ⟨hcell, hreaches⟩ := mem_reached.mp hu
    exact mem_reached.mpr ⟨hcell, .head hcontains hreaches⟩
  · exact mem_reached.mpr ⟨mem_cells_of_contains hcontains, .refl⟩
  · intro hv
    obtain ⟨-, hback⟩ := mem_reached.mp hv
    exact acyclic v (Relation.TransGen.head' hcontains hback)

theorem nestedWithin_of_card (acyclic : h.Acyclic) :
    ∀ (depth : Nat) (v : Value), (h.reached v).card < depth → h.NestedWithin depth v := by
  intro depth
  induction depth with
  | zero => intro v hcard; omega
  | succ depth ih =>
      intro v hcard w hcontains
      have hless := card_reached_lt acyclic hcontains
      exact ih w (by omega)

/-- **In an acyclic heap no value is nested deeper than equality and the printed forms look.** -/
theorem Acyclic.nestedWithin (acyclic : h.Acyclic) (v : Value) :
    h.NestedWithin h.depthBound v := by
  have hsubset : h.reached v ⊆ h.cells := fun w hw => (mem_reached.mp hw).1
  have hcard := Finset.card_le_card hsubset
  have hbound := h.card_cells_lt
  exact nestedWithin_of_card acyclic _ v (by omega)

/-- A heap is acyclic if no cell in it holds a value that holds values in turn. -/
theorem acyclic_of_flat (hflat : ∀ v w, h.Contains v w → w.holdsValues = false) : h.Acyclic := by
  intro v hcycle
  obtain ⟨w, hfirst, -⟩ := Relation.TransGen.head'_iff.mp hcycle
  obtain ⟨u, -, hlast⟩ := Relation.TransGen.tail'_iff.mp hcycle
  have hholds := hfirst.holdsValues
  rw [hflat u v hlast] at hholds
  cases hholds

end Heap

end Bindery
