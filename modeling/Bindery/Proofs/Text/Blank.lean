/-
Text without the blanks around it, and without regard to case.

To trim a text is to part it into blanks, what is kept, and blanks.  More blanks at either
end change nothing, and a text without blanks is kept whole.  Case is that of the letters
from `A` to `Z` alone: two characters are the same letter if they are equal or the one is
the small form of the other.  A letter is no blank in either case, so a text may be
trimmed first and folded then, or the other way round.
-/
import Bindery.Text.Blank
import Mathlib.Data.List.Forall2
import Mathlib.Data.List.TakeWhile

namespace Bindery.Text

/-! ### Blanks around a text -/

/-- Characters that are blank throughout. -/
def Blanks (cs : List Char) : Prop :=
  ∀ c ∈ cs, isBlank c = true

instance (cs : List Char) : Decidable (Blanks cs) :=
  decidable_of_iff (cs.all isBlank = true) List.all_eq_true

/-- **Blanks at either end are trimmed.** -/
theorem trimBlanks_padded {left right : List Char} (hleft : Blanks left) (hright : Blanks right)
    (cs : List Char) : trimBlanks (left ++ cs ++ right) = trimBlanks cs := by
  have hback : Blanks right.reverse := fun c hc => hright c (List.mem_reverse.mp hc)
  unfold trimBlanks
  rw [List.append_assoc, List.dropWhile_append_of_pos hleft, List.dropWhile_append]
  split
  · rename_i hnone
    rw [List.isEmpty_iff.mp hnone, List.dropWhile_eq_nil_iff.mpr hright]
  · rw [List.reverse_append, List.dropWhile_append_of_pos hback]

/-- **A text is what is trimmed of it with blanks at either end.** -/
theorem eq_padded_trimBlanks (cs : List Char) :
    ∃ left right, Blanks left ∧ Blanks right ∧ cs = left ++ trimBlanks cs ++ right := by
  have hblanks (ds : List Char) : Blanks (ds.takeWhile isBlank) :=
    fun c hc => List.mem_takeWhile_imp hc
  have hback (ds : List Char) : ds = (ds.reverse.dropWhile isBlank).reverse
      ++ (ds.reverse.takeWhile isBlank).reverse := by
    rw [← List.reverse_append, List.takeWhile_append_dropWhile, List.reverse_reverse]
  refine ⟨cs.takeWhile isBlank, ((cs.dropWhile isBlank).reverse.takeWhile isBlank).reverse,
    hblanks cs, fun c hc => hblanks _ c (List.mem_reverse.mp hc), ?_⟩
  unfold trimBlanks
  rw [List.append_assoc, ← hback, List.takeWhile_append_dropWhile]

theorem trimBlanks_of_solid {cs : List Char} (h : ∀ c ∈ cs, isBlank c = false) :
    trimBlanks cs = cs := by
  have hkept {ds : List Char} (hds : ∀ c ∈ ds, isBlank c = false) : ds.dropWhile isBlank = ds := by
    cases ds with
    | nil => rfl
    | cons d ds => rw [List.dropWhile_cons_of_neg (by simp [hds d])]
  unfold trimBlanks
  rw [hkept h, hkept fun c hc => h c (List.mem_reverse.mp hc), List.reverse_reverse]

/-! ### Case -/

/-- The second character is the small form of the first, a letter from `A` to `Z`. -/
structure Capital (c d : Char) : Prop where
  first : 'A'.toNat ≤ c.toNat
  last : c.toNat ≤ 'Z'.toNat
  small : d.toNat = c.toNat + 32

/-- Two characters are the same up to the case of the letters from `A` to `Z`. -/
def SameLetter (c d : Char) : Prop :=
  c = d ∨ Capital c d ∨ Capital d c

/-- A capital letter is folded to its small form, and what is none is left as it is. -/
theorem toLower_cases (c : Char) :
    Capital c c.toLower ∨ c.toLower = c ∧ ∀ d, ¬ Capital c d := by
  unfold Char.toLower
  split
  · rename_i h
    have hfirst : 65 ≤ c.toNat := UInt32.le_iff_toNat_le.mp h.1
    have hlast : c.toNat ≤ 90 := UInt32.le_iff_toNat_le.mp h.2
    refine Or.inl ⟨hfirst, hlast, ?_⟩
    show (c.val + 32).toNat = c.val.toNat + 32
    change c.val.toNat ≤ 90 at hlast
    have hstep : (32 : UInt32).toNat = 32 := rfl
    rw [UInt32.toNat_add, hstep, Nat.mod_eq_of_lt (by omega)]
  · rename_i h
    refine Or.inr ⟨rfl, fun d hd => h ?_⟩
    exact ⟨UInt32.le_iff_toNat_le.mpr hd.first, UInt32.le_iff_toNat_le.mpr hd.last⟩

theorem Capital.toLower_eq {c d : Char} (h : Capital c d) : c.toLower = d := by
  rcases toLower_cases c with hc | ⟨-, hnone⟩
  · exact Char.toNat_inj.mp (by rw [hc.small, h.small])
  · exact absurd h (hnone d)

/-- A small letter is no capital letter. -/
theorem Capital.toLower_small {c d : Char} (h : Capital c d) : d.toLower = d := by
  rcases toLower_cases d with hd | ⟨hsame, -⟩
  · have hsmall := h.small
    have hlast : d.toNat ≤ 90 := hd.last
    have hfirst : 65 ≤ c.toNat := h.first
    omega
  · exact hsame

/-- **Characters are the same up to case if they fold to the same character.** -/
theorem sameLetter_iff {c d : Char} : SameLetter c d ↔ c.toLower = d.toLower := by
  constructor
  · rintro (rfl | h | h)
    · rfl
    · rw [h.toLower_eq, h.toLower_small]
    · rw [h.toLower_eq, h.toLower_small]
  · intro heq
    rcases toLower_cases c with hc | ⟨hc, -⟩ <;> rcases toLower_cases d with hd | ⟨hd, -⟩
    · have hsmall := hc.small
      rw [heq, hd.small] at hsmall
      exact Or.inl (Char.toNat_inj.mp (by omega))
    · rw [heq, hd] at hc
      exact Or.inr (Or.inl hc)
    · rw [← heq, hc] at hd
      exact Or.inr (Or.inr hd)
    · exact Or.inl (by rw [← hc, heq, hd])

theorem forall₂_sameLetter_iff {cs ds : List Char} :
    List.Forall₂ SameLetter cs ds ↔ cs.map Char.toLower = ds.map Char.toLower := by
  have hsame : SameLetter = fun c d => c.toLower = d.toLower := by
    funext c d
    exact propext sameLetter_iff
  rw [← List.forall₂_eq_eq_eq, List.forall₂_map_left_iff, List.forall₂_map_right_iff, hsame]

/-- What stands between the blank controls and the blanks beyond ASCII is not blank. -/
theorem isBlank_eq_false {c : Char} (hlow : 0x21 ≤ c.toNat) (hhigh : c.toNat < 0x80) :
    isBlank c = false := by
  simp [isBlank, CodeRanges.contains, blankRanges]
  omega

/-- A letter is no blank in either case. -/
theorem isBlank_toLower (c : Char) : isBlank c.toLower = isBlank c := by
  rcases toLower_cases c with h | ⟨hsame, -⟩
  · have hfirst : 65 ≤ c.toNat := h.first
    have hlast : c.toNat ≤ 90 := h.last
    have hsmall := h.small
    rw [isBlank_eq_false (by omega) (by omega), isBlank_eq_false (by omega) (by omega)]
  · rw [hsame]

theorem trimBlanks_map_toLower (cs : List Char) :
    trimBlanks (cs.map Char.toLower) = (trimBlanks cs).map Char.toLower := by
  have hblank : isBlank ∘ Char.toLower = isBlank := funext isBlank_toLower
  unfold trimBlanks
  rw [List.dropWhile_map, hblank, ← List.map_reverse, List.dropWhile_map, hblank, List.map_reverse]

end Bindery.Text
