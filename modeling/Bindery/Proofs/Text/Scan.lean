/-
What can be found in a text by its quotes.

A reader who knows nothing of values can part a text by one rule: a backslash hides the character
after it, and a quote that is not hidden opens quotes or closes them.  The display form of a text
holds against this reader.  Every escape is either one character that the reader takes as it
stands, or a backslash, the character that it hides, and such characters; so inside quotes the
reader takes every escape whole, and meets the closing quote where it was written.

Nothing in an escape is an ASCII control, and what stands in the quotes is the text again when the
escapes are read back one after the other.
-/
import Bindery.Proofs.Text.Quoted

namespace Bindery.Text

/-! ### The reader -/

/-- What a reader has found in a text so far. -/
structure Scan where
  /-- The next character is hidden by a backslash. -/
  hidden : Bool := false
  /-- What stands since the quote that was opened last, if it is not closed. -/
  inside? : Option (List Char) := none
  /-- What stood in the quotes that are closed. -/
  stretches : List (List Char) := []
  /-- What stood outside of quotes. -/
  bare : List Char := []
  deriving DecidableEq, Repr

namespace Scan

/-- Takes a character as it stands. -/
def take (s : Scan) (c : Char) : Scan :=
  match s.inside? with
  | some inside => { s with inside? := some (inside ++ [c]) }
  | none => { s with bare := s.bare ++ [c] }

/-- Opens quotes, or closes those that are open. -/
def turn (s : Scan) : Scan :=
  match s.inside? with
  | some inside => { s with inside? := none, stretches := s.stretches ++ [inside] }
  | none => { s with inside? := some [] }

/-- Reads a character. -/
def read (s : Scan) (c : Char) : Scan :=
  if s.hidden then { s.take c with hidden := false }
  else if c = '\\' then { s.take c with hidden := true }
  else if c = '"' then s.turn
  else s.take c

end Scan

/-- What a reader finds in a text. -/
def scan (text : List Char) : Scan :=
  text.foldl Scan.read {}

/-- A character that a reader takes as it stands, and that ends no line. -/
structure Plain (c : Char) : Prop where
  not_quote : c ≠ '"'
  not_backslash : c ≠ '\\'
  not_control : isAsciiControl c = false

instance (c : Char) : Decidable (Plain c) :=
  decidable_of_iff (c ≠ '"' ∧ c ≠ '\\' ∧ isAsciiControl c = false)
    ⟨fun h => ⟨h.1, h.2.1, h.2.2⟩, fun h => ⟨h.not_quote, h.not_backslash, h.not_control⟩⟩

/-! ### Plain characters -/

-- Said of the list, since `decide` would go through all characters for a statement about `c ∈ text`.
theorem plain_of_all {text : List Char} (hall : (text.all fun c => decide (Plain c)) = true) :
    ∀ c ∈ text, Plain c := by
  simpa using hall

theorem read_of_plain {s : Scan} {c : Char} (hshown : s.hidden = false) (hplain : Plain c) :
    s.read c = s.take c := by
  simp [Scan.read, hshown, hplain.not_quote, hplain.not_backslash]

section Plain

variable {text : List Char} (hplain : ∀ c ∈ text, Plain c)
include hplain

/-- Outside of quotes a reader takes plain characters as they stand. -/
theorem foldl_read_bare (stretches : List (List Char)) (bare : List Char) :
    text.foldl Scan.read ⟨false, none, stretches, bare⟩ = ⟨false, none, stretches, bare ++ text⟩ := by
  induction text generalizing bare with
  | nil => simp
  | cons c text ih =>
      have hread : Scan.read ⟨false, none, stretches, bare⟩ c
          = ⟨false, none, stretches, bare ++ [c]⟩ := read_of_plain rfl (hplain c List.mem_cons_self)
      rw [List.foldl_cons, hread, ih fun d hd => hplain d (List.mem_cons_of_mem c hd)]
      simp

/-- Inside quotes a reader does so too. -/
theorem foldl_read_inside (inside : List Char) (stretches : List (List Char)) (bare : List Char) :
    text.foldl Scan.read ⟨false, some inside, stretches, bare⟩
      = ⟨false, some (inside ++ text), stretches, bare⟩ := by
  induction text generalizing inside with
  | nil => simp
  | cons c text ih =>
      have hread : Scan.read ⟨false, some inside, stretches, bare⟩ c
          = ⟨false, some (inside ++ [c]), stretches, bare⟩ :=
        read_of_plain rfl (hplain c List.mem_cons_self)
      rw [List.foldl_cons, hread, ih fun d hd => hplain d (List.mem_cons_of_mem c hd)]
      simp

end Plain

theorem plain_of_isDigit {c : Char} (hdigit : c.isDigit = true) : Plain c := by
  have hrange : 48 ≤ c.toNat ∧ c.toNat ≤ 57 := by
    simp only [Char.isDigit, ge_iff_le, Bool.and_eq_true, decide_eq_true_eq,
      UInt32.le_iff_toNat_le] at hdigit
    exact hdigit
  refine ⟨?_, ?_, ?_⟩
  · rintro rfl
    cases hdigit
  · rintro rfl
    cases hdigit
  · simp only [isAsciiControl, Bool.or_eq_false_iff, decide_eq_false_iff_not, beq_eq_false_iff_ne]
    omega

/-! ### Escapes -/

theorem plain_digitChar : ∀ d, d < 16 → Plain (Nat.digitChar d) := by
  decide

/-- An escape is a plain character, or a backslash with one that it hides and plain ones. -/
theorem displayEscape_cases (c : Char) :
    (displayEscape c = [c] ∧ Plain c) ∨
      ∃ d rest, displayEscape c = '\\' :: d :: rest ∧ isAsciiControl d = false ∧
        ∀ e ∈ rest, Plain e := by
  unfold displayEscape
  by_cases hn : c = '\n'
  · exact .inr ⟨'n', [], by simp [hn], rfl, by simp⟩
  by_cases ht : c = '\t'
  · exact .inr ⟨'t', [], by simp [ht], rfl, by simp⟩
  by_cases hr : c = '\r'
  · exact .inr ⟨'r', [], by simp [hr], rfl, by simp⟩
  by_cases hbackslash : c = '\\'
  · exact .inr ⟨'\\', [], by simp [hbackslash], rfl, by simp⟩
  by_cases hquote : c = '"'
  · exact .inr ⟨'"', [], by simp [hquote], rfl, by simp⟩
  rw [if_neg hn, if_neg ht, if_neg hr, if_neg hbackslash, if_neg hquote]
  by_cases hcontrol : isAsciiControl c = true
  · have hcode : c.toNat < 256 := by
      simp only [isAsciiControl, Bool.or_eq_true, decide_eq_true_eq, beq_iff_eq] at hcontrol
      omega
    refine .inr ⟨'x', [Nat.digitChar (c.toNat / 16), Nat.digitChar (c.toNat % 16)], ?_, rfl, ?_⟩
    · rw [if_pos hcontrol, controlEscape]
    · intro e he
      rcases (List.mem_cons.mp he).imp_right List.mem_singleton.mp with rfl | rfl
      · exact plain_digitChar _ (by omega)
      · exact plain_digitChar _ (by omega)
  · rw [if_neg hcontrol]
    exact .inl ⟨rfl, hquote, hbackslash, Bool.eq_false_iff.mpr hcontrol⟩

/-- No escape has an ASCII control in it. -/
theorem not_control_of_mem_displayEscape {c d : Char} (hd : d ∈ displayEscape c) :
    isAsciiControl d = false := by
  rcases displayEscape_cases c with ⟨hescape, hplain⟩ | ⟨e, rest, hescape, he, hrest⟩
  · rw [hescape] at hd
    cases List.mem_singleton.mp hd
    exact hplain.not_control
  · rw [hescape] at hd
    rcases List.mem_cons.mp hd with rfl | hd
    · rfl
    rcases List.mem_cons.mp hd with rfl | hd
    · exact he
    · exact (hrest d hd).not_control

/-- Inside quotes a reader takes an escape whole. -/
theorem foldl_read_escape (c : Char) (inside : List Char) (stretches : List (List Char))
    (bare : List Char) :
    (displayEscape c).foldl Scan.read ⟨false, some inside, stretches, bare⟩
      = ⟨false, some (inside ++ displayEscape c), stretches, bare⟩ := by
  rcases displayEscape_cases c with ⟨hescape, hplain⟩ | ⟨d, rest, hescape, -, hrest⟩
  · rw [hescape]
    exact foldl_read_inside (by simpa using hplain) inside stretches bare
  · rw [hescape, List.foldl_cons, List.foldl_cons]
    have hhides : Scan.read ⟨false, some inside, stretches, bare⟩ '\\'
        = ⟨true, some (inside ++ ['\\']), stretches, bare⟩ := rfl
    have htakes : Scan.read ⟨true, some (inside ++ ['\\']), stretches, bare⟩ d
        = ⟨false, some (inside ++ ['\\'] ++ [d]), stretches, bare⟩ := rfl
    rw [hhides, htakes, foldl_read_inside hrest]
    simp

/-! ### Quoted texts -/

/-- What stands in the quotes of a text. -/
def escaped (text : List Char) : List Char :=
  text.flatMap displayEscape

/-- **A reader finds a quoted text as one stretch**, whatever the text is. -/
theorem foldl_read_quoted (s : String) (stretches : List (List Char)) (bare : List Char) :
    (displayQuotedChars s).foldl Scan.read ⟨false, none, stretches, bare⟩
      = ⟨false, none, stretches ++ [escaped s.toList], bare⟩ := by
  have hinside (text inside : List Char) :
      (text.flatMap displayEscape).foldl Scan.read ⟨false, some inside, stretches, bare⟩
        = ⟨false, some (inside ++ escaped text), stretches, bare⟩ := by
    induction text generalizing inside with
    | nil => simp [escaped]
    | cons c text ih =>
        rw [List.flatMap_cons, List.foldl_append, foldl_read_escape, ih]
        simp [escaped]
  have hopens : Scan.read ⟨false, none, stretches, bare⟩ '"'
      = ⟨false, some [], stretches, bare⟩ := rfl
  have hcloses (inside : List Char) : Scan.read ⟨false, some inside, stretches, bare⟩ '"'
      = ⟨false, none, stretches ++ [inside], bare⟩ := rfl
  unfold displayQuotedChars
  rw [List.cons_append, List.foldl_cons, hopens, List.foldl_append, hinside, List.foldl_cons,
    hcloses]
  rfl

theorem not_control_of_mem_displayQuotedChars {s : String} {d : Char}
    (hd : d ∈ displayQuotedChars s) : isAsciiControl d = false := by
  simp only [displayQuotedChars, List.cons_append, List.mem_cons, List.mem_append,
    List.mem_flatMap, List.not_mem_nil, or_false] at hd
  rcases hd with rfl | ⟨c, -, hd⟩ | rfl
  · rfl
  · exact not_control_of_mem_displayEscape hd
  · rfl

/-! ### Reading back -/

/-- What is left after an escape is shorter. -/
theorem length_of_readEscape {text rest : List Char} {c : Char}
    (hread : readEscape text = some (c, rest)) : rest.length < text.length := by
  rw [readEscape.eq_def] at hread
  split at hread <;> cases hread <;> simp only [List.length_cons] <;> omega

/-- The text of which the escapes stand in quotes, if they are escapes throughout. -/
def unescape (text : List Char) : Option (List Char) :=
  match hread : readEscape text with
  | some (c, rest) =>
    have := length_of_readEscape hread
    (unescape rest).map (c :: ·)
  | none => if text = [] then some [] else none
termination_by text.length

/-- What stands in the quotes of a text reads back as the text. -/
theorem unescape_escaped (text : List Char) : unescape (escaped text) = some text := by
  induction text with
  | nil => rw [unescape]; rfl
  | cons c text ih =>
      have hread : readEscape (escaped (c :: text)) = some (c, escaped text) := by
        rw [escaped, List.flatMap_cons]
        exact readEscape_displayEscape c _
      rw [unescape]
      split
      · rename_i d rest hsome
        rw [hread] at hsome
        cases hsome
        rw [ih]
        rfl
      · rename_i hnone
        rw [hread] at hnone
        cases hnone

end Bindery.Text
