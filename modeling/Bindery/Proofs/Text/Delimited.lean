/-
Texts that say where they end.

The digits of a number go on as long as there are digits, so a number is known when what
comes after it begins with none.  A list is written as its items with a separator between
them and a closing mark at the end.  It is known when its items are: after an item comes
the separator or the mark, and these begin with different characters.
-/
import Mathlib.Data.List.Forall2

namespace Bindery.Text

/-- A text that does not go on with a digit. -/
def NoDigit (x : List Char) : Prop :=
  ∀ c, x.head? = some c → c.isDigit = false

theorem noDigit_nil : NoDigit [] := by
  intro c hc
  cases hc

theorem noDigit_cons {c : Char} (hc : c.isDigit = false) (x : List Char) : NoDigit (c :: x) := by
  intro d hd
  cases hd
  exact hc

/-! ### Numbers -/

/-- Digits, and what comes after them, are told apart. -/
theorem digits_append_inj : ∀ {ds es x y : List Char}, (∀ d ∈ ds, d.isDigit = true) →
    (∀ e ∈ es, e.isDigit = true) → NoDigit x → NoDigit y → ds ++ x = es ++ y →
      ds = es ∧ x = y := by
  intro ds
  induction ds with
  | nil =>
      intro es x y _ hes hx _ heq
      cases es with
      | nil => exact ⟨rfl, heq⟩
      | cons e es =>
          have hdigit := hes e (by simp)
          rw [hx e (by rw [List.nil_append] at heq; rw [heq]; rfl)] at hdigit
          cases hdigit
  | cons d ds ih =>
      intro es x y hds hes hx hy heq
      cases es with
      | nil =>
          have hdigit := hds d (by simp)
          rw [hy d (by rw [List.nil_append] at heq; rw [← heq]; rfl)] at hdigit
          cases hdigit
      | cons e es =>
          obtain ⟨rfl, hrest⟩ := List.cons.inj heq
          have hds' : ∀ c ∈ ds, c.isDigit = true := fun c hc => hds c (by simp [hc])
          have hes' : ∀ c ∈ es, c.isDigit = true := fun c hc => hes c (by simp [hc])
          obtain ⟨rfl, rfl⟩ := ih hds' hes' hx hy hrest
          exact ⟨rfl, rfl⟩

/-- A number is known from its digits, whatever comes after them but a digit. -/
theorem toDigits_append_inj {m n : Nat} {x y : List Char} (hx : NoDigit x) (hy : NoDigit y)
    (heq : Nat.toDigits 10 m ++ x = Nat.toDigits 10 n ++ y) : m = n ∧ x = y := by
  have hdigits : ∀ k, ∀ d ∈ Nat.toDigits 10 k, d.isDigit = true := by
    intro k d hd
    exact Nat.isDigit_of_mem_toDigits (by decide) (by decide) hd
  obtain ⟨hsame, hrest⟩ := digits_append_inj (hdigits m) (hdigits n) hx hy heq
  refine ⟨?_, hrest⟩
  calc m = Nat.ofDigitChars 10 (Nat.toDigits 10 m) 0 := Nat.ofDigitChars_ten_toDigits.symm
    _ = Nat.ofDigitChars 10 (Nat.toDigits 10 n) 0 := by rw [hsame]
    _ = n := Nat.ofDigitChars_ten_toDigits

/-! ### Lists -/

section Lists

variable {α : Type} {text : α → List Char} {R : α → α → Prop} {sep close : Char}
  {gap : List Char}

/-- After the first item each further one is written after a separator. -/
theorem intercalate_map_cons (sep : List Char) (a : α) (l : List α) :
    sep.intercalate ((a :: l).map text) = text a ++ l.flatMap fun b => sep ++ text b := by
  induction l generalizing a with
  | nil => simp
  | cons b l ih =>
      rw [List.map_cons, List.map_cons, List.intercalate_cons_cons, ← List.map_cons, ih]
      simp

/-- Items that are told apart when no digit comes after them. -/
def Apart (text : α → List Char) (R : α → α → Prop) (l m : List α) : Prop :=
  ∀ a ∈ l, ∀ b ∈ m, ∀ x y, NoDigit x → NoDigit y → text a ++ x = text b ++ y → R a b ∧ x = y

theorem noDigit_further (hsep : sep.isDigit = false) (hclose : close.isDigit = false)
    (l : List α) (x : List Char) :
    NoDigit ((l.flatMap fun b => (sep :: gap) ++ text b) ++ close :: x) := by
  cases l with
  | nil => exact noDigit_cons hclose x
  | cons b l => exact noDigit_cons hsep _

/-- Further items are told apart, and so is what comes after the list. -/
theorem further_inj (hsep : sep.isDigit = false) (hclose : close.isDigit = false)
    (hne : sep ≠ close) : ∀ {l m : List α} {x y : List Char}, Apart text R l m →
      (l.flatMap fun b => (sep :: gap) ++ text b) ++ close :: x
          = (m.flatMap fun b => (sep :: gap) ++ text b) ++ close :: y →
        List.Forall₂ R l m ∧ x = y := by
  intro l
  induction l with
  | nil =>
      intro m x y _ heq
      cases m with
      | nil => exact ⟨.nil, List.tail_eq_of_cons_eq heq⟩
      | cons b m => exact absurd (List.head_eq_of_cons_eq heq).symm hne
  | cons a l ih =>
      intro m x y hapart heq
      cases m with
      | nil => exact absurd (List.head_eq_of_cons_eq heq) hne
      | cons b m =>
          simp only [List.flatMap_cons, List.cons_append, List.append_assoc, List.cons.injEq,
            true_and, List.append_cancel_left_eq] at heq
          obtain ⟨hab, hrest⟩ := hapart a (by simp) b (by simp) _ _
            (noDigit_further hsep hclose l x) (noDigit_further hsep hclose m y) heq
          have hapart' : Apart text R l m :=
            fun c hc d hd => hapart c (by simp [hc]) d (by simp [hd])
          obtain ⟨hlm, rfl⟩ := ih hapart' hrest
          exact ⟨.cons hab hlm, rfl⟩

/-- **A closed list is known from what begins with it**, if its items are. -/
theorem closed_list_inj (hsep : sep.isDigit = false) (hclose : close.isDigit = false)
    (hne : sep ≠ close) {l m : List α} {x y : List Char} (hapart : Apart text R l m)
    (hl : ∀ a ∈ l, ∀ u v, text a ++ u ≠ close :: v)
    (hm : ∀ b ∈ m, ∀ u v, text b ++ u ≠ close :: v)
    (heq : (sep :: gap).intercalate (l.map text) ++ close :: x
      = (sep :: gap).intercalate (m.map text) ++ close :: y) :
    List.Forall₂ R l m ∧ x = y := by
  cases l with
  | nil =>
      cases m with
      | nil => exact ⟨.nil, List.tail_eq_of_cons_eq heq⟩
      | cons b m =>
          rw [intercalate_map_cons, List.append_assoc] at heq
          exact absurd heq.symm (hm b (by simp) _ _)
  | cons a l =>
      cases m with
      | nil =>
          rw [intercalate_map_cons, List.append_assoc] at heq
          exact absurd heq (hl a (by simp) _ _)
      | cons b m =>
          rw [intercalate_map_cons, intercalate_map_cons] at heq
          have hfurther : ((a :: l).flatMap fun b => (sep :: gap) ++ text b) ++ close :: x
              = ((b :: m).flatMap fun b => (sep :: gap) ++ text b) ++ close :: y := by
            simpa only [List.flatMap_cons, List.append_assoc] using congrArg ((sep :: gap) ++ ·) heq
          exact further_inj hsep hclose hne hapart hfurther

end Lists

end Bindery.Text
