/-
What the environment decides.

A flag is on if it is one of four words, in any case and with blanks around it, and off if
it is any other text.  The environment decides the debug setting by such a flag, whatever
it was before; it leaves it alone only if there is no flag, because the variable is not
set or its bytes are not text.

What is read as a flag is trimmed and folded, so the words it may be are those that come
to one of the four.  Trimming takes away blanks only, and folding changes nothing but the
letters from `A` to `Z`.  So no character beyond ASCII can be part of the word.
-/
import Bindery.Proofs.Text.Blank
import Bindery.Settings

namespace Bindery.Settings

open Text

/-- A text that turns a flag on: one of the words, in any case, with blanks around it. -/
def TurnsOn (raw : String) : Prop :=
  ∃ left word right, raw.toList = left ++ word ++ right ∧ Blanks left ∧ Blanks right ∧
    ∃ flag ∈ ["1", "true", "yes", "on"], List.Forall₂ SameLetter word flag.toList

theorem mem_flagWords {word : List Char} :
    word ∈ flagWords ↔ ∃ flag ∈ ["1", "true", "yes", "on"], word = flag.toList := by
  simp [flagWords]

/-- The words are written in small letters and digits of ASCII, without blanks. -/
theorem flag_chars : ∀ flag ∈ ["1", "true", "yes", "on"], ∀ c ∈ flag.toList,
    c.toLower = c ∧ isBlank c = false ∧ c.toNat < 0x80 := by
  -- Decided character by character; to decide it as it stands may go through all characters.
  have hall : ["1", "true", "yes", "on"].all fun flag => flag.toList.all fun c =>
      decide (c.toLower = c ∧ isBlank c = false ∧ c.toNat < 0x80) := by
    decide
  simpa only [List.all_eq_true, decide_eq_true_eq] using hall

section Words

variable {word : List Char} {flag : String} (hflag : flag ∈ ["1", "true", "yes", "on"])
include hflag

/-- A word is one of the four up to case if it folds to it. -/
theorem sameLetters_flag_iff :
    List.Forall₂ SameLetter word flag.toList ↔ word.map Char.toLower = flag.toList := by
  have hfolded : flag.toList.map Char.toLower = flag.toList :=
    (List.map_congr_left fun c hc => (flag_chars flag hflag c hc).1).trans (List.map_id _)
  rw [forall₂_sameLetter_iff, hfolded]

/-- A word that folds to one of the four is of ASCII and has no blanks in it. -/
theorem chars_of_folded (hword : word.map Char.toLower = flag.toList) :
    ∀ c ∈ word, isBlank c = false ∧ c.toNat < 0x80 := by
  intro c hc
  have hlower : c.toLower ∈ flag.toList := hword ▸ List.mem_map_of_mem hc
  obtain ⟨-, hsolid, hascii⟩ := flag_chars flag hflag c.toLower hlower
  refine ⟨by rw [← isBlank_toLower, hsolid], ?_⟩
  rcases toLower_cases c with h | ⟨hsame, -⟩
  · exact Nat.lt_of_le_of_lt h.last (by decide)
  · rwa [hsame] at hascii

end Words

/-! ### Flags -/

/-- **A flag is on exactly if its text turns it on.** -/
theorem readFlag_iff (raw : String) : readFlag raw = true ↔ TurnsOn raw := by
  have hread : readFlag raw = true ↔ (trimBlanks raw.toList).map Char.toLower ∈ flagWords := by
    simp [readFlag]
  rw [hread, mem_flagWords]
  constructor
  · rintro ⟨flag, hflag, hword⟩
    obtain ⟨left, right, hleft, hright, hraw⟩ := eq_padded_trimBlanks raw.toList
    exact ⟨left, _, right, hraw, hleft, hright, flag, hflag, (sameLetters_flag_iff hflag).mpr hword⟩
  · rintro ⟨left, word, right, hraw, hleft, hright, flag, hflag, hsame⟩
    have hword := (sameLetters_flag_iff hflag).mp hsame
    refine ⟨flag, hflag, ?_⟩
    rw [hraw, trimBlanks_padded hleft hright,
      trimBlanks_of_solid fun c hc => (chars_of_folded hflag hword c hc).1, hword]

/-- Blanks around a flag make no difference to it. -/
theorem readFlag_padded {left right : String} (hleft : Blanks left.toList)
    (hright : Blanks right.toList) (raw : String) :
    readFlag (left ++ raw ++ right) = readFlag raw := by
  unfold readFlag
  rw [String.toList_append, String.toList_append, trimBlanks_padded hleft hright]

/-- The case of its letters makes no difference to a flag. -/
theorem readFlag_of_sameLetters {raw raw' : String}
    (h : List.Forall₂ SameLetter raw.toList raw'.toList) : readFlag raw = readFlag raw' := by
  unfold readFlag
  rw [← trimBlanks_map_toLower, forall₂_sameLetter_iff.mp h, trimBlanks_map_toLower]

/-- **A flag with a character beyond ASCII that is not blank is off**, whatever it looks like. -/
theorem readFlag_of_beyond_ascii {raw : String} {c : Char} (hc : c ∈ raw.toList)
    (hbeyond : 0x80 ≤ c.toNat) (hsolid : isBlank c = false) : readFlag raw = false := by
  refine Bool.eq_false_iff.mpr fun hon => ?_
  obtain ⟨left, word, right, hraw, hleft, hright, flag, hflag, hsame⟩ := (readFlag_iff raw).mp hon
  rw [hraw, List.mem_append, List.mem_append] at hc
  rcases hc with (hc | hc) | hc
  · rw [hleft c hc] at hsolid
    cases hsolid
  · have hword := (sameLetters_flag_iff hflag).mp hsame
    exact absurd (chars_of_folded hflag hword c hc).2 (Nat.not_lt.mpr hbeyond)
  · rw [hright c hc] at hsolid
    cases hsolid

/-! ### The environment -/

/-- A variable that is text is a flag that decides the debug setting. -/
theorem withVariable_of_valid (settings : Settings) {bytes : ByteArray} (h : bytes.IsValidUTF8) :
    settings.withVariable (some bytes) = settings.withFlag (some (String.fromUTF8 bytes h)) := by
  simp [withVariable, String.fromUTF8?, h]

/-- A variable that is not set, or not text, decides nothing. -/
theorem withVariable_of_invalid (settings : Settings) {bytes? : Option ByteArray}
    (h : ∀ bytes, bytes? = some bytes → ¬ bytes.IsValidUTF8) :
    settings.withVariable bytes? = (settings, []) := by
  cases bytes? with
  | none => rfl
  | some bytes => simp [withVariable, String.fromUTF8?, h bytes rfl, withFlag]

/-- What a flag decides a second time is decided already. -/
theorem withFlag_withFlag (settings : Settings) (raw? : Option String) :
    (settings.withFlag raw?).1.withFlag raw? = settings.withFlag raw? := by
  cases raw? <;> rfl

/--
**The environment decides by exactly the texts that turn a flag on.**  A variable that is not
set, or the bytes of which are not text, changes nothing and is not told of.  Any other one
turns debugging on if its text is one of the four words, up to the case of the letters from
`A` to `Z` and with blanks around it, and off if it is any other text, whatever the settings
were; so to be decided twice is to be decided once.  Flags are read alike with more blanks
around them and in another case, and never as on if there is a character in them that is
neither of ASCII nor blank.
-/
theorem override_accepts_exactly :
    (∀ (settings : Settings) (bytes? : Option ByteArray),
      (∀ bytes, bytes? = some bytes → ¬ bytes.IsValidUTF8) →
        settings.withVariable bytes? = (settings, [])) ∧
    (∀ (settings : Settings) (bytes : ByteArray) (h : bytes.IsValidUTF8),
      (settings.withVariable (some bytes)).1.debug = true ↔
        TurnsOn (String.fromUTF8 bytes h)) ∧
    (∀ (settings : Settings) (bytes? : Option ByteArray),
      (settings.withVariable bytes?).1.withVariable bytes? = settings.withVariable bytes?) ∧
    (∀ raw, readFlag raw = true ↔ TurnsOn raw) ∧
    (∀ left raw right : String, Blanks left.toList → Blanks right.toList →
      readFlag (left ++ raw ++ right) = readFlag raw) ∧
    (∀ raw raw' : String, List.Forall₂ SameLetter raw.toList raw'.toList →
      readFlag raw = readFlag raw') ∧
    (∀ (raw : String) (c : Char), c ∈ raw.toList → 0x80 ≤ c.toNat → isBlank c = false →
      readFlag raw = false) := by
  refine ⟨fun settings _ h => settings.withVariable_of_invalid h, ?decided, ?twice, readFlag_iff,
    fun _ raw _ hleft hright => readFlag_padded hleft hright raw,
    fun _ _ => readFlag_of_sameLetters, fun _ _ => readFlag_of_beyond_ascii⟩
  case decided =>
    intro settings bytes h
    rw [withVariable_of_valid settings h, ← readFlag_iff]
    rfl
  case twice =>
    intro settings bytes?
    exact withFlag_withFlag settings _

/-- A wide blank and a capital letter are accepted; a Cyrillic letter and a lone byte are not. -/
theorem wide_blank_accepted :
    (({} : Settings).withVariable (some "\u2003On\n".toByteArray)).1.debug = true ∧
    readFlag "\u2003On\n" = readFlag "oN" ∧
    readFlag "\u043en" = false ∧
    ({ debug := true } : Settings).withVariable (some ⟨#[0x6F, 0xFF]⟩) = ({ debug := true }, []) := by
  obtain ⟨hinvalid, hvalid, -, -, hpadded, hcase, hbeyond⟩ := override_accepts_exactly
  have hO : Capital 'O' 'o' := ⟨by decide, by decide, by decide⟩
  have hN : Capital 'N' 'n' := ⟨by decide, by decide, by decide⟩
  have hon : TurnsOn "\u2003On\n" :=
    ⟨['\u2003'], ['O', 'n'], ['\n'], by decide, by decide, by decide, "on", by simp,
      .cons (.inr (.inl hO)) (.cons (.inl rfl) .nil)⟩
  refine ⟨(hvalid {} _ (String.isValidUTF8 _)).mpr hon, ?_, ?_, ?_⟩
  · have hsame : List.Forall₂ SameLetter "On".toList "oN".toList :=
      .cons (.inr (.inl hO)) (.cons (.inr (.inr hN)) .nil)
    exact (hpadded "\u2003" "On" "\n" (by decide) (by decide)).trans (hcase "On" "oN" hsame)
  · exact hbeyond _ '\u043e' (by decide) (by decide) (by decide)
  · refine hinvalid _ _ ?_
    rintro _ ⟨⟩
    decide

end Bindery.Settings
