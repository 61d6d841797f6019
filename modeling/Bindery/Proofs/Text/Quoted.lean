/-
A text in the display form says which text it is and where it ends.

The escape of a character can be read back whatever comes after it: `readEscape` takes
one off the front of a text.  No escape begins with a quote, so the quote that closes a
text is the first one met where a character would begin.  Two quoted texts that begin
the same characters are therefore the same text, with the same characters after it.
-/
import Bindery.Text.Quoted

namespace Bindery.Text

/-- The value of a digit to base sixteen. -/
def hexValue (c : Char) : Nat :=
  if c.isDigit then c.toNat - '0'.toNat else c.toNat - 'a'.toNat + 10

/-- Reads the escape of one character back, and gives what comes after it. -/
def readEscape : List Char → Option (Char × List Char)
  | '\\' :: 'n' :: rest => some ('\n', rest)
  | '\\' :: 't' :: rest => some ('\t', rest)
  | '\\' :: 'r' :: rest => some ('\r', rest)
  | '\\' :: '\\' :: rest => some ('\\', rest)
  | '\\' :: '"' :: rest => some ('"', rest)
  | '\\' :: 'x' :: high :: low :: rest =>
    some (Char.ofNat (16 * hexValue high + hexValue low), rest)
  | '\\' :: _ => none
  | c :: rest => some (c, rest)
  | [] => none

theorem hexValue_digitChar : ∀ d, d < 16 → hexValue (Nat.digitChar d) = d := by
  decide

theorem readEscape_controlEscape {c : Char} (hcontrol : isAsciiControl c = true)
    (rest : List Char) : readEscape (controlEscape c ++ rest) = some (c, rest) := by
  have hcode : c.toNat < 256 := by
    simp only [isAsciiControl, Bool.or_eq_true, decide_eq_true_eq, beq_iff_eq] at hcontrol
    omega
  have hhigh := hexValue_digitChar (c.toNat / 16) (by omega)
  have hlow := hexValue_digitChar (c.toNat % 16) (by omega)
  have hchar : Char.ofNat (16 * (c.toNat / 16) + c.toNat % 16) = c := by
    rw [Nat.div_add_mod]
    exact Char.ofNat_toNat c
  simp only [controlEscape, List.cons_append, List.nil_append, readEscape, hhigh, hlow, hchar]

/-- The escape of a character reads back, whatever comes after it. -/
theorem readEscape_displayEscape (c : Char) (rest : List Char) :
    readEscape (displayEscape c ++ rest) = some (c, rest) := by
  by_cases hn : c = '\n'
  · subst hn; rfl
  by_cases ht : c = '\t'
  · subst ht; rfl
  by_cases hr : c = '\r'
  · subst hr; rfl
  by_cases hbackslash : c = '\\'
  · subst hbackslash; rfl
  by_cases hquote : c = '"'
  · subst hquote; rfl
  unfold displayEscape
  rw [if_neg hn, if_neg ht, if_neg hr, if_neg hbackslash, if_neg hquote]
  by_cases hcontrol : isAsciiControl c = true
  · rw [if_pos hcontrol]
    exact readEscape_controlEscape hcontrol rest
  · rw [if_neg hcontrol, List.singleton_append, readEscape.eq_def]
    split <;> simp_all

/-- No escape begins with a quote. -/
theorem displayEscape_ne_quote (c : Char) (x y : List Char) :
    displayEscape c ++ x ≠ '"' :: y := by
  intro hquote
  have hread := readEscape_displayEscape c x
  rw [hquote] at hread
  obtain rfl : '"' = c := congrArg Prod.fst (Option.some.inj hread)
  cases hquote

/-- Escaped characters up to a closing quote are known, and so is what comes after it. -/
theorem escaped_inj : ∀ {cs ds x y : List Char},
    cs.flatMap displayEscape ++ '"' :: x = ds.flatMap displayEscape ++ '"' :: y →
      cs = ds ∧ x = y := by
  intro cs
  induction cs with
  | nil =>
      intro ds x y heq
      cases ds with
      | nil => exact ⟨rfl, List.tail_eq_of_cons_eq heq⟩
      | cons d ds =>
          rw [List.flatMap_cons, List.append_assoc] at heq
          exact absurd heq.symm (displayEscape_ne_quote d _ _)
  | cons c cs ih =>
      intro ds x y heq
      cases ds with
      | nil =>
          rw [List.flatMap_cons, List.append_assoc] at heq
          exact absurd heq (displayEscape_ne_quote c _ _)
      | cons d ds =>
          rw [List.flatMap_cons, List.flatMap_cons, List.append_assoc, List.append_assoc] at heq
          have hread := readEscape_displayEscape c (cs.flatMap displayEscape ++ '"' :: x)
          rw [heq, readEscape_displayEscape] at hread
          obtain ⟨rfl, hrest⟩ := Prod.mk.inj (Option.some.inj hread)
          obtain ⟨rfl, rfl⟩ := ih hrest.symm
          exact ⟨rfl, rfl⟩

/-- **A quoted text is known from what begins with it.** -/
theorem displayQuotedChars_inj {s t : String} {x y : List Char}
    (heq : displayQuotedChars s ++ x = displayQuotedChars t ++ y) : s = t ∧ x = y := by
  unfold displayQuotedChars at heq
  simp only [List.cons_append, List.append_assoc, List.nil_append, List.cons.injEq,
    true_and] at heq
  obtain ⟨hchars, hrest⟩ := escaped_inj heq
  exact ⟨String.toList_inj.mp hchars, hrest⟩

end Bindery.Text
