/-
Equality without a depth.

`Heap.equal` compares values down to a fixed depth.  `Heap.Agree` is what it decides,
said without one: values agree on the ground of a relation when they are so related, or
when they are both references, both sequences or both mappings and what they contain
agrees in turn.  In an acyclic heap, where the depth is enough, equality is agreement on
the ground of identity.

The relation is left open because equality has a twin with less ground: the comparison
that looks into shared cells too.  What is shown of agreement here, by induction on how
it came about, holds of both.
-/
import Bindery.Heap.Equality
import Bindery.Proofs.Dict
import Bindery.Proofs.Heap.Nesting

namespace Bindery

/-! ### Lists compared item by item -/

theorem forall₂_iff_getElem? {α β : Type} {R : α → β → Prop} {l : List α} {m : List β} :
    List.Forall₂ R l m ↔
      l.length = m.length ∧ ∀ (i : Nat) (v : α) (w : β), l[i]? = some v → m[i]? = some w → R v w := by
  rw [List.forall₂_iff_get]
  refine and_congr_right fun hlength => ?_
  constructor
  · intro h i v w hv hw
    obtain ⟨hi, rfl⟩ := List.getElem?_eq_some_iff.mp hv
    obtain ⟨hi', rfl⟩ := List.getElem?_eq_some_iff.mp hw
    exact h i hi hi'
  · intro h i hi hi'
    exact h i _ _ (List.getElem?_eq_getElem hi) (List.getElem?_eq_getElem hi')

theorem forall₂_toList_array {α β : Type} {R : α → β → Prop} {s : Array α} {t : Array β} :
    List.Forall₂ R s.toList t.toList ↔
      s.size = t.size ∧ ∀ (i : Nat) (v : α) (w : β), s[i]? = some v → t[i]? = some w → R v w := by
  rw [forall₂_iff_getElem?]
  simp only [Array.length_toList, Array.getElem?_toList]

theorem isEqv_iff_forall₂ {α : Type} {p : α → α → Bool} {l m : List α} :
    l.isEqv m p = true ↔ List.Forall₂ (fun v w => p v w = true) l m := by
  induction l generalizing m with
  | nil => cases m <;> simp
  | cons v rest ih =>
      cases m with
      | nil => simp
      | cons w rest' => rw [List.isEqv_cons_cons, Bool.and_eq_true, ih, List.forall₂_cons]

namespace Heap

/--
Values agree on the ground of `base`: it relates them, or they are cells of one sort
that are read side by side and agree in all that they hold.
-/
inductive Agree (h : Heap) (base : Value → Value → Prop) : Value → Value → Prop where
  | base {a b : Value} (related : base a b) : Agree h base a b
  | refs {r s : Handle .ref} (referents : Agree h base (h.referent r) (h.referent s)) :
      Agree h base (.ref r) (.ref s)
  | sequences {s t : Handle .sequence} (size : (h.items s).size = (h.items t).size)
      (items : ∀ (i : Nat) (v w : Value),
        (h.items s)[i]? = some v → (h.items t)[i]? = some w → Agree h base v w) :
      Agree h base (.sequence s) (.sequence t)
  | mappings {m n : Handle .mapping} (keys : (h.pairs m).keys = (h.pairs n).keys)
      (values : ∀ (key : String) (v w : Value),
        (h.pairs m)[key]? = some v → (h.pairs n)[key]? = some w → Agree h base v w) :
      Agree h base (.mapping m) (.mapping n)

/-- The values are identical. -/
def Same (a b : Value) : Prop := a.same b = true

variable {h : Heap} {base base' : Value → Value → Prop} {a b : Value}

/-! ### One step of equality -/

theorem equalWithin_of_same (hsame : Same a b) (depth : Nat) : h.equalWithin depth a b = true := by
  cases depth with
  | zero => exact hsame
  | succ depth => exact Bool.or_eq_true_iff.mpr (Or.inl hsame)

theorem equalWithin_refs {depth : Nat} {r s : Handle .ref}
    (hreferents : h.equalWithin depth (h.referent r) (h.referent s) = true) :
    h.equalWithin (depth + 1) (.ref r) (.ref s) = true :=
  Bool.or_eq_true_iff.mpr (Or.inr hreferents)

theorem sequences_iff {depth : Nat} {s t : Handle .sequence} :
    (h.items s).toList.isEqv (h.items t).toList (h.equalWithin depth) = true ↔
      (h.items s).size = (h.items t).size ∧ ∀ (i : Nat) (v w : Value),
        (h.items s)[i]? = some v → (h.items t)[i]? = some w → h.equalWithin depth v w = true := by
  rw [isEqv_iff_forall₂, forall₂_toList_array]

theorem mappings_iff {depth : Nat} {m n : Handle .mapping} :
    ((h.pairs m).toList.isEqv (h.pairs n).toList fun p q =>
        p.1 == q.1 && h.equalWithin depth p.2 q.2) = true ↔
      (h.pairs m).keys = (h.pairs n).keys ∧ ∀ (key : String) (v w : Value),
        (h.pairs m)[key]? = some v → (h.pairs n)[key]? = some w →
          h.equalWithin depth v w = true := by
  rw [isEqv_iff_forall₂]
  simp only [Bool.and_eq_true, beq_iff_eq]
  exact Dict.forall₂_toList _ (R := fun v w => h.equalWithin depth v w = true)

/-! ### What equality decides -/

/-- Whatever the depth, values that come out equal agree. -/
theorem agree_of_equalWithin :
    ∀ (depth : Nat) (a b : Value), h.equalWithin depth a b = true → h.Agree Same a b := by
  intro depth
  induction depth with
  | zero => intro a b hequal; exact .base hequal
  | succ depth ih =>
      intro a b hequal
      unfold equalWithin at hequal
      rcases Bool.or_eq_true_iff.mp hequal with hsame | hparts
      · exact .base hsame
      split at hparts
      · exact .refs (ih _ _ hparts)
      · obtain ⟨hsize, hitems⟩ := sequences_iff.mp hparts
        exact .sequences hsize fun i v w hv hw => ih v w (hitems i v w hv hw)
      · obtain ⟨hkeys, hvalues⟩ := mappings_iff.mp hparts
        exact .mappings hkeys fun key v w hv hw => ih v w (hvalues key v w hv hw)
      · cases hparts

/-- What agrees with undefined is undefined. -/
theorem same_of_agree_undefined (hagree : h.Agree Same .undefined b) : Same .undefined b := by
  cases hagree with
  | base hsame => exact hsame

/-- Values that agree come out equal at any depth within which one of them is nested. -/
theorem equalWithin_of_agree (hagree : h.Agree Same a b) :
    ∀ depth, h.NestedWithin depth a → h.equalWithin depth a b = true := by
  induction hagree with
  | base hsame => intro depth _; exact equalWithin_of_same hsame depth
  | @refs r s hagree ih =>
      intro depth hnested
      cases depth with
      | zero => exact hnested.elim
      | succ depth =>
          refine equalWithin_refs ?_
          rcases hnested.referent with hnested | hundefined
          · exact ih depth hnested
          · rw [hundefined] at hagree ⊢
            exact equalWithin_of_same (same_of_agree_undefined hagree) depth
  | @sequences s t hsize _ ih =>
      intro depth hnested
      cases depth with
      | zero => exact hnested.elim
      | succ depth =>
          refine Bool.or_eq_true_iff.mpr (Or.inr (sequences_iff.mpr ⟨hsize, ?_⟩))
          intro i v w hv hw
          exact ih i v w hv hw depth (hnested v (.item (Array.mem_of_getElem? hv)))
  | @mappings m n hkeys _ ih =>
      intro depth hnested
      cases depth with
      | zero => exact hnested.elim
      | succ depth =>
          refine Bool.or_eq_true_iff.mpr (Or.inr (mappings_iff.mpr ⟨hkeys, ?_⟩))
          intro key v w hv hw
          exact ih key v w hv hw depth (hnested v (.value hv))

/-- **In an acyclic heap equality is agreement on the ground of identity.** -/
theorem equal_iff_agree (acyclic : h.Acyclic) : h.equal a b = true ↔ h.Agree Same a b :=
  ⟨agree_of_equalWithin _ a b, fun hagree => equalWithin_of_agree hagree _ (acyclic.nestedWithin a)⟩

/-! ### Laws of agreement -/

theorem Agree.imp (hbase : ∀ v w, base v w → base' v w) (hagree : h.Agree base a b) :
    h.Agree base' a b := by
  induction hagree with
  | base hrelated => exact .base (hbase _ _ hrelated)
  | refs _ ih => exact .refs ih
  | sequences hsize _ ih => exact .sequences hsize ih
  | mappings hkeys _ ih => exact .mappings hkeys ih

theorem Agree.symm (hbase : ∀ v w, base v w → base w v) (hagree : h.Agree base a b) :
    h.Agree base b a := by
  induction hagree with
  | base hrelated => exact .base (hbase _ _ hrelated)
  | refs _ ih => exact .refs ih
  | sequences hsize _ ih =>
      exact .sequences hsize.symm fun i v w hv hw => ih i w v hw hv
  | mappings hkeys _ ih =>
      exact .mappings hkeys.symm fun key v w hv hw => ih key w v hw hv

end Heap
end Bindery
