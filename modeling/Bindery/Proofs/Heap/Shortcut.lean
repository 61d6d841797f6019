/-
What the shortcuts of equality decide.

Equality does not look into a cell that it meets on both sides at once.  Plain equality
looks into every cell.  Whatever is plainly equal is equal, and the two differ only over
a cell that both values reach and from which a NaN is reached: the shortcut calls the
cell equal to itself, and plain equality finds the NaN that differs from itself.

The proof follows how two values came to agree.  Where a shortcut was taken, the cell is
compared with itself, and `plainEqual_self` says that a comparison of a value with itself
comes out equal unless a NaN is reached.
-/
import Bindery.Proofs.Heap.Equality

namespace Bindery

namespace Heap

/--
Equality without shortcuts: what refers to values or holds them is always looked into.
Callables and streams have no other ground than identity.
-/
def PlainEqual (h : Heap) : Value → Value → Prop :=
  h.Agree fun a b => a.holdsValues = false ∧ Same a b

/-- No NaN lies in a value at any depth, nor is it one. -/
def NaNFree (h : Heap) : Value → Prop :=
  h.Throughout fun v => v.isNaN = false

/-- A cell with a NaN somewhere in it that two values both reach. -/
def SharesNaN (h : Heap) (a b : Value) : Prop :=
  ∃ cell, cell.holdsValues = true ∧ h.Reaches a cell ∧ h.Reaches b cell ∧
    ∃ v, v.isNaN = true ∧ h.Reaches cell v

variable {h : Heap} {a b : Value}

/-- A value in which no NaN lies is plainly equal to itself. -/
theorem plainEqual_self :
    ∀ (depth : Nat) (a : Value), h.NestedWithin depth a → h.NaNFree a → h.PlainEqual a a := by
  intro depth
  induction depth with
  | zero => intro a hnested; exact hnested.elim
  | succ depth ih =>
      intro a hnested hfree
      have hsame : Same a a := by
        unfold Same
        rw [Value.same_self, hfree.self]
        rfl
      cases a with
      | ref r =>
          refine .refs ?_
          rcases hnested.referent with hless | hundefined
          · exact ih _ hless (hfree.referent rfl)
          · rw [hundefined]
            exact .base ⟨rfl, rfl⟩
      | sequence s =>
          refine .sequences rfl ?_
          intro i v w hv hw
          obtain rfl : v = w := Option.some.inj (hv.symm.trans hw)
          have hcontains : h.Contains (.sequence s) v := .item (Array.mem_of_getElem? hv)
          exact ih v (hnested v hcontains) (hfree.of_contains hcontains)
      | mapping m =>
          refine .mappings rfl ?_
          intro key v w hv hw
          obtain rfl : v = w := Option.some.inj (hv.symm.trans hw)
          exact ih v (hnested v (.value hv)) (hfree.of_contains (.value hv))
      | _ => exact .base ⟨rfl, hsame⟩

/-- A shared cell deep in two values is shared by whatever contains the two. -/
theorem SharesNaN.of_contains {c d : Value} (hshares : h.SharesNaN c d) (hc : h.Contains a c)
    (hd : h.Contains b d) : h.SharesNaN a b := by
  obtain ⟨cell, hholds, hreaches, hreaches', hnan⟩ := hshares
  exact ⟨cell, hholds, .head hc hreaches, .head hd hreaches', hnan⟩

/-- Nothing is shared with undefined. -/
theorem not_sharesNaN_undefined : ¬ h.SharesNaN .undefined b := by
  intro hshares
  obtain ⟨cell, hholds, hreaches, -⟩ := hshares
  have hself : h.Throughout (fun v => v.holdsValues = false) .undefined := .undefined rfl
  rw [hself cell hreaches] at hholds
  cases hholds

theorem SharesNaN.symm (hshares : h.SharesNaN a b) : h.SharesNaN b a := by
  obtain ⟨cell, hholds, hreaches, hreaches', hnan⟩ := hshares
  exact ⟨cell, hholds, hreaches', hreaches, hnan⟩

/-- A NaN in a shared cell is a NaN in the value that shares it. -/
theorem SharesNaN.not_nanFree (hshares : h.SharesNaN a b) : ¬ h.NaNFree a := by
  intro hfree
  obtain ⟨cell, -, hreaches, -, v, hnan, hreaches'⟩ := hshares
  have hv : v.isNaN = false := hfree v (hreaches.trans hreaches')
  rw [hnan] at hv
  cases hv

theorem SharesNaN.refs {r s : Handle .ref} (hshares : h.SharesNaN (h.referent r) (h.referent s)) :
    h.SharesNaN (.ref r) (.ref s) := by
  rcases h.contains_referent r with hr | hr
  · rcases h.contains_referent s with hs | hs
    · exact hshares.of_contains hr hs
    · rw [hs] at hshares
      exact absurd hshares.symm not_sharesNaN_undefined
  · rw [hr] at hshares
    exact absurd hshares not_sharesNaN_undefined

/-- Values that agree do so plainly, or they share a cell with a NaN in it. -/
theorem plainEqual_or_sharesNaN (acyclic : h.Acyclic) (hagree : h.Agree Same a b) :
    h.PlainEqual a b ∨ h.SharesNaN a b := by
  induction hagree with
  | @base a b hsame =>
      cases hholds : a.holdsValues with
      | false => exact Or.inl (.base ⟨hholds, hsame⟩)
      | true =>
          obtain rfl : b = a := Value.eq_of_same hsame fun x hx => by rw [hx] at hholds; cases hholds
          by_cases hfree : h.NaNFree b
          · exact Or.inl (plainEqual_self _ b (acyclic.nestedWithin b) hfree)
          · unfold NaNFree Throughout at hfree
            push Not at hfree
            obtain ⟨v, hreaches, hnan⟩ := hfree
            exact Or.inr ⟨b, hholds, .refl, .refl, v, Bool.eq_true_of_not_eq_false hnan, hreaches⟩
  | refs _ ih => exact ih.imp .refs .refs
  | @sequences s t hsize _ ih =>
      by_cases hshares : h.SharesNaN (.sequence s) (.sequence t)
      · exact Or.inr hshares
      · refine Or.inl (.sequences hsize ?_)
        intro i v w hv hw
        refine (ih i v w hv hw).resolve_right fun hshares' => hshares ?_
        exact hshares'.of_contains (.item (Array.mem_of_getElem? hv))
          (.item (Array.mem_of_getElem? hw))
  | @mappings m n hkeys _ ih =>
      by_cases hshares : h.SharesNaN (.mapping m) (.mapping n)
      · exact Or.inr hshares
      · refine Or.inl (.mappings hkeys ?_)
        intro key v w hv hw
        refine (ih key v w hv hw).resolve_right fun hshares' => hshares ?_
        exact hshares'.of_contains (.value hv) (.value hw)

/--
**The shortcuts of equality matter only for a NaN in a shared cell.**  In an acyclic heap
whatever is plainly equal is equal; the converse holds as soon as one of the two values
has no NaN in it; and where the two comparisons differ, both values reach a reference, a
sequence or a mapping from which a NaN is reached.
-/
theorem equal_iff_plainEqual (acyclic : h.Acyclic) (a b : Value) :
    (h.PlainEqual a b → h.equal a b = true) ∧
    (h.NaNFree a ∨ h.NaNFree b → (h.equal a b = true ↔ h.PlainEqual a b)) ∧
    (¬ (h.equal a b = true ↔ h.PlainEqual a b) → h.SharesNaN a b) := by
  have hplain : h.PlainEqual a b → h.equal a b = true := by
    intro hagree
    exact (equal_iff_agree acyclic).mpr (hagree.imp fun v w hbase => hbase.2)
  have hequal : h.equal a b = true → h.PlainEqual a b ∨ h.SharesNaN a b := by
    intro he
    exact plainEqual_or_sharesNaN acyclic ((equal_iff_agree acyclic).mp he)
  refine ⟨hplain, ?_, ?_⟩
  · intro hfree
    refine ⟨fun he => (hequal he).resolve_right ?_, hplain⟩
    intro hshares
    rcases hfree with hfree | hfree
    · exact hshares.not_nanFree hfree
    · exact hshares.symm.not_nanFree hfree
  · intro hdiffer
    by_contra hshares
    exact hdiffer ⟨fun he => (hequal he).resolve_right hshares, hplain⟩

/-- The sequence that holds a NaN equals itself, but not plainly. -/
theorem sequence_of_nan_not_plainEqual :
    withNaN.Acyclic ∧ withNaN.equal (.sequence ⟨0⟩) (.sequence ⟨0⟩) = true ∧
      ¬ withNaN.PlainEqual (.sequence ⟨0⟩) (.sequence ⟨0⟩) ∧
      withNaN.SharesNaN (.sequence ⟨0⟩) (.sequence ⟨0⟩) := by
  have hequal : withNaN.equal (.sequence ⟨0⟩) (.sequence ⟨0⟩) = true :=
    withNaN.equal_of_same rfl
  have hplain : ¬ withNaN.PlainEqual (.sequence ⟨0⟩) (.sequence ⟨0⟩) := by
    intro hagree
    cases hagree with
    | base hbase => cases hbase.1
    | sequences _ hitems =>
        have hnan := hitems 0 (.float ⟨0x7FF8000000000000⟩) (.float ⟨0x7FF8000000000000⟩) rfl rfl
        cases hnan with
        | base hbase => exact absurd hbase.2 (by unfold Same; decide)
  refine ⟨acyclic_withNaN, hequal, hplain, ?_⟩
  exact (equal_iff_plainEqual acyclic_withNaN _ _).2.2 fun hiff => hplain (hiff.mp hequal)

end Heap

end Bindery
