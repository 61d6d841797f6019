/-
What a displayed value is made of.

The display form of a value is a row of pieces: the texts and keys that are printed, each in quotes,
and between them words, numbers, brackets and separators, which stand bare.  What stands bare does
not come from any text, and a reader takes all of it as it stands, since it has no quote, no
backslash and no ASCII control in it.  So what the reader of `Text.scan` finds in quotes is what was
put there, piece by piece.

The pieces of a value follow its display form down to the same depth, and in an acyclic heap that
depth is enough to come by every text and every key that the value reaches.
-/
import Bindery.Heap.Printer
import Bindery.Proofs.Heap.Nesting
import Bindery.Proofs.Text.Scan

namespace Bindery

open Text (Plain displayQuotedChars escaped plain_of_all plain_of_isDigit scan unescape)

/-! ### Numbers are plain -/

theorem plain_of_mem_toDigits {n : Nat} {c : Char} (hc : c ∈ Nat.toDigits 10 n) : Plain c :=
  plain_of_isDigit (Nat.isDigit_of_mem_toDigits (by decide) (by decide) hc)

theorem plain_of_mem_toString {i : Int} {c : Char} (hc : c ∈ (toString i).toList) : Plain c := by
  rw [Int.toString_eq_repr] at hc
  cases i with
  | ofNat n =>
      have hc' : c ∈ Nat.toDigits 10 n := by
        simpa [Int.repr, Nat.repr_eq_ofList_toDigits] using hc
      exact plain_of_mem_toDigits hc'
  | negSucc n =>
      have hc' : c = '-' ∨ c ∈ Nat.toDigits 10 (n + 1) := by
        simpa [Int.repr, Nat.repr_eq_ofList_toDigits] using hc
      rcases hc' with rfl | hc'
      · decide
      · exact plain_of_mem_toDigits hc'

namespace FloatLayout

variable {digits : List Char} (hdigits : ∀ c ∈ digits, Plain c)
include hdigits

theorem plain_positional (exponent : Int) : ∀ c ∈ positional digits exponent, Plain c := by
  have hzeros (n : Nat) : ∀ c ∈ List.replicate n '0', Plain c := by
    intro c hc
    rw [List.eq_of_mem_replicate hc]
    decide
  intro c hc
  unfold positional at hc
  simp only at hc
  split at hc
  · simp only [List.cons_append, List.mem_cons, List.mem_append] at hc
    rcases hc with rfl | rfl | hc | hc
    · decide
    · decide
    · exact hzeros _ c hc
    · exact hdigits c hc
  split at hc
  · simp only [List.mem_append, List.mem_cons, List.not_mem_nil, or_false] at hc
    rcases hc with (hc | hc) | rfl | rfl
    · exact hdigits c hc
    · exact hzeros _ c hc
    · decide
    · decide
  · simp only [List.mem_append, List.mem_cons] at hc
    rcases hc with hc | rfl | hc
    · exact hdigits c (List.mem_of_mem_take hc)
    · decide
    · exact hdigits c (List.mem_of_mem_drop hc)

theorem plain_scientific (place : Int) : ∀ c ∈ scientific digits place, Plain c := by
  intro c hc
  unfold scientific at hc
  simp only [List.mem_append, List.mem_cons] at hc
  rcases hc with (hc | hc) | rfl | hc
  · exact hdigits c (List.mem_of_mem_take hc)
  · split at hc
    · cases hc
    · rcases List.mem_cons.mp hc with rfl | hc
      · decide
      · exact hdigits c (List.mem_of_mem_drop hc)
  · decide
  · exact plain_of_mem_toString hc

end FloatLayout

/-- The text of a number with a point is plain. -/
theorem Binary64.plain_textChars (x : Binary64) : ∀ c ∈ x.textChars, Plain c := by
  have hmagnitude : ∀ c ∈ x.magnitudeChars .ofValues, Plain c := by
    unfold magnitudeChars
    split
    · exact plain_of_all (by decide)
    split
    · exact plain_of_all (by decide)
    cases x.window.shortest? FloatLayout.ofValues.mostDigits with
    | none => exact fun c hc => absurd hc List.not_mem_nil
    | some d =>
        show ∀ c ∈ FloatLayout.decimal .ofValues d, Plain c
        unfold FloatLayout.decimal
        simp only
        split
        · exact FloatLayout.plain_positional (fun c => plain_of_mem_toDigits) _
        · exact FloatLayout.plain_scientific (fun c => plain_of_mem_toDigits) _
  intro c hc
  unfold textChars at hc
  split at hc
  · exact plain_of_all (by decide) c hc
  · rcases List.mem_append.mp hc with hc | hc
    · split at hc
      · cases List.mem_singleton.mp hc
        decide
      · cases hc
    · exact hmagnitude c hc

namespace Heap

theorem plain_intChars (n : Int64) : ∀ c ∈ intChars n, Plain c := by
  intro c hc
  unfold intChars at hc
  split at hc
  · rcases List.mem_cons.mp hc with rfl | hc
    · decide
    · exact plain_of_mem_toDigits hc
  · exact plain_of_mem_toDigits hc

theorem plain_boolChars (b : Bool) : ∀ c ∈ boolChars b, Plain c := by
  cases b
  case false => exact plain_of_all (by decide)
  case true => exact plain_of_all (by decide)

end Heap

/-! ### Pieces -/

/-- A piece of a displayed value. -/
inductive Piece where
  /-- What comes from the value itself. -/
  | bare (chars : List Char)
  /-- What comes from a text or a key, in quotes. -/
  | quoted (text : String)
  deriving DecidableEq, Repr

namespace Piece

/-- A piece as it is displayed. -/
def chars : Piece → List Char
  | bare chars => chars
  | quoted text => displayQuotedChars text

/-- What stands bare of a piece. -/
def bareChars : Piece → List Char
  | bare chars => chars
  | quoted _ => []

/-- The text of which a piece is printed, if it is quoted. -/
def text? : Piece → Option String
  | bare _ => none
  | quoted text => some text

/-- What stands bare of a piece is taken as it stands. -/
def Clear (piece : Piece) : Prop :=
  ∀ c ∈ piece.bareChars, Plain c

/-- Nothing in a piece is an ASCII control. -/
theorem not_control {piece : Piece} (hclear : piece.Clear) {c : Char} (hc : c ∈ piece.chars) :
    Text.isAsciiControl c = false := by
  cases piece with
  | bare chars => exact (hclear c hc).not_control
  | quoted text => exact Text.not_control_of_mem_displayQuotedChars hc

end Piece

/-- The texts that are printed in some pieces, in their order. -/
def Piece.texts (pieces : List Piece) : List String :=
  pieces.filterMap Piece.text?

/-- What stands bare of some pieces. -/
def Piece.outline (pieces : List Piece) : List Char :=
  pieces.flatMap Piece.bareChars

@[simp] theorem Piece.texts_bare (chars : List Char) (pieces : List Piece) :
    texts (.bare chars :: pieces) = texts pieces :=
  List.filterMap_cons_none rfl

@[simp] theorem Piece.texts_quoted (text : String) (pieces : List Piece) :
    texts (.quoted text :: pieces) = text :: texts pieces :=
  List.filterMap_cons_some rfl

@[simp] theorem Piece.outline_bare (chars : List Char) (pieces : List Piece) :
    outline (.bare chars :: pieces) = chars ++ outline pieces := rfl

@[simp] theorem Piece.outline_quoted (text : String) (pieces : List Piece) :
    outline (.quoted text :: pieces) = outline pieces := rfl

theorem Piece.mem_texts {pieces : List Piece} {t : String} :
    t ∈ Piece.texts pieces ↔ Piece.quoted t ∈ pieces := by
  unfold texts
  rw [List.mem_filterMap]
  constructor
  · rintro ⟨piece, hmem, htext⟩
    cases piece <;> cases htext
    exact hmem
  · exact fun hmem => ⟨_, hmem, rfl⟩

/-- **A reader finds the texts of clear pieces in quotes, and all else outside of them.** -/
theorem Piece.foldl_read {pieces : List Piece} (hclear : ∀ piece ∈ pieces, piece.Clear)
    (stretches : List (List Char)) (bare : List Char) :
    (pieces.flatMap Piece.chars).foldl Text.Scan.read ⟨false, none, stretches, bare⟩
      = ⟨false, none, stretches ++ (texts pieces).map fun t => escaped t.toList,
          bare ++ outline pieces⟩ := by
  induction pieces generalizing stretches bare with
  | nil => simp [texts, outline]
  | cons piece pieces ih =>
      have hrest := ih fun p hp => hclear p (List.mem_cons_of_mem _ hp)
      rw [List.flatMap_cons, List.foldl_append]
      cases piece with
      | bare chars =>
          have hfirst : ∀ c ∈ chars, Plain c := hclear _ List.mem_cons_self
          rw [Piece.chars, Text.foldl_read_bare hfirst, hrest]
          simp
      | quoted text =>
          rw [Piece.chars, Text.foldl_read_quoted, hrest]
          simp

/-! ### The pieces of a value -/

namespace Heap

/-- Pieces between two marks. -/
def enclosed (opening : List Char) (inside : List Piece) (closing : List Char) : List Piece :=
  .bare opening :: inside ++ [.bare closing]

/-- The pieces of a value nested at most `depth` deep. -/
def piecesWithin (h : Heap) : (depth : Nat) → Value → List Piece
  | 0 => fun _ => []
  | depth + 1 => fun
    | .undefined => [.bare "undef".toList]
    | .bool b => [.bare (boolChars b)]
    | .int n => [.bare (intChars n)]
    | .float x => [.bare x.textChars]
    | .str s => [.quoted s]
    | .ref r => enclosed "ref(".toList (h.piecesWithin depth (h.referent r)) [')']
    | .sequence s =>
      enclosed ['[']
        ([.bare [' ']].intercalate ((h.items s).toList.map (h.piecesWithin depth))) [']']
    | .mapping m =>
      let pair := fun (p : String × Value) => .quoted p.1 :: .bare [' '] :: h.piecesWithin depth p.2
      enclosed ['%', '\x7b'] ([.bare [',', ' ']].intercalate ((h.pairs m).toList.map pair)) ['\x7d']
    | .callable _ => [.bare "#<callable>".toList]
    | .stream s =>
      [.bare (if (h.lineStream s).closed then "#<stream closed>".toList else "#<stream>".toList)]

/-- The pieces of a displayed value. -/
def pieces (h : Heap) (v : Value) : List Piece :=
  h.piecesWithin h.depthBound v

variable {h : Heap}

theorem flatMap_intercalate (sep : List Piece) (rows : List (List Piece)) :
    (sep.intercalate rows).flatMap Piece.chars
      = (sep.flatMap Piece.chars).intercalate (rows.map (·.flatMap Piece.chars)) := by
  induction rows with
  | nil => simp
  | cons row rows ih =>
      cases rows with
      | nil => simp
      | cons next rows =>
          rw [List.intercalate_cons_cons, List.map_cons, List.map_cons,
            List.intercalate_cons_cons, ← List.map_cons, ← ih]
          simp

/-- What stands in rows with a separator between them is the separator or stands in a row. -/
theorem mem_intercalate {sep piece : Piece} (hne : piece ≠ sep) (rows : List (List Piece)) :
    piece ∈ [sep].intercalate rows ↔ ∃ row ∈ rows, piece ∈ row := by
  induction rows with
  | nil => simp
  | cons row rows ih =>
      cases rows with
      | nil => simp
      | cons next rows =>
          rw [List.intercalate_cons_cons, List.mem_append, ih]
          simp [hne]

/-- The characters of pieces between two marks. -/
theorem flatMap_enclosed (opening : List Char) (inside : List Piece) (closing : List Char) :
    (enclosed opening inside closing).flatMap Piece.chars
      = opening ++ inside.flatMap Piece.chars ++ closing := by
  simp [enclosed, Piece.chars]

theorem mem_enclosed {opening closing : List Char} {inside : List Piece} {piece : Piece} :
    piece ∈ enclosed opening inside closing ↔
      piece = .bare opening ∨ piece ∈ inside ∨ piece = .bare closing := by
  simp [enclosed]

/-- **A value is displayed as its pieces are, one after the other.** -/
theorem displayWithin_eq_pieces (h : Heap) (depth : Nat) (v : Value) :
    h.displayWithin depth v = (h.piecesWithin depth v).flatMap Piece.chars := by
  induction depth generalizing v with
  | zero => rfl
  | succ depth ih =>
      cases v with
      | ref r =>
          rw [piecesWithin, flatMap_enclosed, ← ih]
          simp [displayWithin, wrapped]
      | sequence s =>
          have hitems : (h.items s).toList.map (h.displayWithin depth)
              = ((h.items s).toList.map (h.piecesWithin depth)).map (·.flatMap Piece.chars) := by
            rw [List.map_map]
            exact List.map_congr_left fun item _ => ih item
          rw [piecesWithin, flatMap_enclosed, flatMap_intercalate, ← hitems]
          simp [displayWithin, Piece.chars]
      | mapping m =>
          have hpairs : (h.pairs m).toList.map
                (fun p => displayQuotedChars p.1 ++ ' ' :: h.displayWithin depth p.2)
              = ((h.pairs m).toList.map fun p =>
                  (.quoted p.1 :: .bare [' '] :: h.piecesWithin depth p.2 : List Piece)).map
                (·.flatMap Piece.chars) := by
            rw [List.map_map]
            refine List.map_congr_left fun p _ => ?_
            simp [Piece.chars, ih]
          simp only [piecesWithin]
          rw [flatMap_enclosed, flatMap_intercalate, ← hpairs]
          simp [displayWithin, Piece.chars]
      | _ => exact (List.append_nil _).symm

/-! ### What stands bare -/

theorem clear_bare {chars : List Char} (hplain : ∀ c ∈ chars, Plain c) :
    ∀ piece ∈ [Piece.bare chars], piece.Clear := by
  intro piece hpiece
  cases List.mem_singleton.mp hpiece
  exact hplain

theorem clear_quoted (text : String) : (Piece.quoted text).Clear :=
  fun _ hc => absurd hc List.not_mem_nil

theorem clear_enclosed {opening closing : List Char} {inside : List Piece}
    (hopening : ∀ c ∈ opening, Plain c) (hinside : ∀ piece ∈ inside, piece.Clear)
    (hclosing : ∀ c ∈ closing, Plain c) :
    ∀ piece ∈ enclosed opening inside closing, piece.Clear := by
  intro piece hpiece
  rcases mem_enclosed.mp hpiece with rfl | hpiece | rfl
  · exact hopening
  · exact hinside piece hpiece
  · exact hclosing

theorem clear_intercalate {sep : List Char} {rows : List (List Piece)}
    (hsep : ∀ c ∈ sep, Plain c) (hrows : ∀ row ∈ rows, ∀ piece ∈ row, piece.Clear) :
    ∀ piece ∈ [Piece.bare sep].intercalate rows, piece.Clear := by
  intro piece hpiece
  by_cases hbare : piece = .bare sep
  · rw [hbare]
    exact hsep
  · obtain ⟨row, hrow, hmem⟩ := (mem_intercalate hbare rows).mp hpiece
    exact hrows row hrow piece hmem

/-- **What stands bare in a displayed value is taken as it stands.** -/
theorem clear_piecesWithin (h : Heap) (depth : Nat) (v : Value) :
    ∀ piece ∈ h.piecesWithin depth v, piece.Clear := by
  induction depth generalizing v with
  | zero => exact fun piece hpiece => absurd hpiece List.not_mem_nil
  | succ depth ih =>
      cases v with
      | undefined => exact clear_bare (plain_of_all (by decide))
      | bool b => exact clear_bare (plain_boolChars b)
      | int n => exact clear_bare (plain_intChars n)
      | float x => exact clear_bare x.plain_textChars
      | str s =>
          intro piece hpiece
          cases List.mem_singleton.mp hpiece
          exact clear_quoted s
      | ref r => exact clear_enclosed (plain_of_all (by decide)) (ih _) (plain_of_all (by decide))
      | sequence s =>
          refine clear_enclosed (plain_of_all (by decide)) ?_ (plain_of_all (by decide))
          refine clear_intercalate (plain_of_all (by decide)) ?_
          intro row hrow
          obtain ⟨item, -, rfl⟩ := List.mem_map.mp hrow
          exact ih item
      | mapping m =>
          refine clear_enclosed (plain_of_all (by decide)) ?_ (plain_of_all (by decide))
          refine clear_intercalate (plain_of_all (by decide)) ?_
          intro row hrow piece hpiece
          obtain ⟨p, -, rfl⟩ := List.mem_map.mp hrow
          rcases List.mem_cons.mp hpiece with rfl | hpiece
          · exact clear_quoted p.1
          rcases List.mem_cons.mp hpiece with rfl | hpiece
          · exact clear_bare (plain_of_all (by decide)) _ List.mem_cons_self
          · exact ih p.2 piece hpiece
      | callable c => exact clear_bare (plain_of_all (by decide))
      | stream s => exact clear_bare (by split <;> exact plain_of_all (by decide))

/-! ### What stands in quotes -/

/-- A value is a text, or a mapping that has it as a key. -/
inductive Writes (h : Heap) : Value → String → Prop where
  | text (t : String) : Writes h (.str t) t
  | key {m : Handle .mapping} {key : String} {v : Value} (held : (h.pairs m)[key]? = some v) :
      Writes h (.mapping m) key

theorem not_quoted_undefined (h : Heap) (depth : Nat) (t : String) :
    Piece.quoted t ∉ h.piecesWithin depth .undefined := by
  cases depth with
  | zero => exact List.not_mem_nil
  | succ depth => simp [piecesWithin]

/-- What is quoted in a list is quoted in one of its rows. -/
theorem quoted_mem_list {opening sep closing : List Char} {rows : List (List Piece)} {t : String} :
    Piece.quoted t ∈ enclosed opening ([.bare sep].intercalate rows) closing ↔
      ∃ row ∈ rows, Piece.quoted t ∈ row := by
  simp [mem_enclosed, mem_intercalate]

/-- A text is printed of a value if the value writes it, or if it is printed of what the value contains. -/
theorem quoted_mem_iff {depth : Nat} {v : Value} {t : String} :
    Piece.quoted t ∈ h.piecesWithin (depth + 1) v ↔
      h.Writes v t ∨ ∃ w, h.Contains v w ∧ Piece.quoted t ∈ h.piecesWithin depth w := by
  constructor
  · intro hquoted
    cases v with
    | str s =>
        cases List.mem_singleton.mp hquoted
        exact .inl (.text _)
    | ref r =>
        have hinside : Piece.quoted t ∈ h.piecesWithin depth (h.referent r) := by
          simpa using mem_enclosed.mp hquoted
        rcases h.contains_referent r with hcontains | hundefined
        · exact .inr ⟨_, hcontains, hinside⟩
        · rw [hundefined] at hinside
          exact absurd hinside (h.not_quoted_undefined depth t)
    | sequence s =>
        obtain ⟨row, hrow, hmem⟩ := quoted_mem_list.mp hquoted
        obtain ⟨item, hitem, rfl⟩ := List.mem_map.mp hrow
        exact .inr ⟨item, .item (Array.mem_toList_iff.mp hitem), hmem⟩
    | mapping m =>
        obtain ⟨row, hrow, hmem⟩ := quoted_mem_list.mp hquoted
        obtain ⟨p, hp, rfl⟩ := List.mem_map.mp hrow
        have hheld := Std.ExtTreeMap.mem_toList_iff_getElem?_eq_some.mp hp
        rcases List.mem_cons.mp hmem with hkey | hmem
        · cases hkey
          exact .inl (.key hheld)
        · exact .inr ⟨p.2, .value hheld, by simpa using hmem⟩
    | _ => cases List.mem_singleton.mp hquoted
  · rintro (hwrites | ⟨w, hcontains, hquoted⟩)
    · cases hwrites with
      | text t => exact List.mem_singleton.mpr rfl
      | @key m _ held hheld =>
          have hpair : (t, held) ∈ (h.pairs m).toList :=
            Std.ExtTreeMap.mem_toList_iff_getElem?_eq_some.mpr hheld
          exact quoted_mem_list.mpr ⟨_, List.mem_map_of_mem hpair, List.mem_cons_self⟩
    · cases hcontains with
      | referent hnamed => exact mem_enclosed.mpr (.inr (.inl hquoted))
      | item hheld =>
          exact quoted_mem_list.mpr ⟨_, List.mem_map_of_mem (Array.mem_toList_iff.mpr hheld), hquoted⟩
      | @value m key _ hheld =>
          have hpair : (key, w) ∈ (h.pairs m).toList :=
            Std.ExtTreeMap.mem_toList_iff_getElem?_eq_some.mpr hheld
          exact quoted_mem_list.mpr ⟨_, List.mem_map_of_mem hpair,
            List.mem_cons_of_mem _ (List.mem_cons_of_mem _ hquoted)⟩

/-- To a depth at which a value is nested, all that it reaches is printed of it. -/
theorem quoted_mem_iff_reaches {depth : Nat} {v : Value} {t : String}
    (hnested : h.NestedWithin depth v) :
    Piece.quoted t ∈ h.piecesWithin depth v ↔ ∃ w, h.Reaches v w ∧ h.Writes w t := by
  induction depth generalizing v with
  | zero => exact hnested.elim
  | succ depth ih =>
      rw [quoted_mem_iff]
      constructor
      · rintro (hwrites | ⟨w, hcontains, hquoted⟩)
        · exact ⟨v, .refl, hwrites⟩
        · obtain ⟨u, hreaches, hwrites⟩ := (ih (hnested w hcontains)).mp hquoted
          exact ⟨u, .head hcontains hreaches, hwrites⟩
      · rintro ⟨w, hreaches, hwrites⟩
        rcases Relation.ReflTransGen.cases_head hreaches with rfl | ⟨u, hcontains, hrest⟩
        · exact .inl hwrites
        · exact .inr ⟨u, hcontains, (ih (hnested u hcontains)).mpr ⟨w, hrest, hwrites⟩⟩

/-- The texts and keys that are printed of a value, in their order. -/
def texts (h : Heap) (v : Value) : List String :=
  Piece.texts (h.pieces v)

/-- What is displayed of a value outside of quotes. -/
def outline (h : Heap) (v : Value) : List Char :=
  Piece.outline (h.pieces v)

theorem toList_display (h : Heap) (v : Value) :
    (h.display v).toList = (h.pieces v).flatMap Piece.chars := by
  rw [display, String.toList_ofList, displayWithin_eq_pieces]
  rfl

end Heap

/--
**No text can break out of a line or of its quotes.**  In an acyclic heap, whatever texts a value
has in it and whatever keys, its display form is made of pieces that are quoted texts or stand
bare, and has no ASCII control in it.  A reader for whom a backslash hides the next character finds
in quotes, one stretch for each, the texts and keys that are printed, in their order; outside of
quotes the reader finds what stands bare, which has no quote and no backslash in it, and at the end
no quotes are open.  What stands in the quotes reads back as those texts and keys, and they are the
texts that the value reaches and the keys of the mappings that it reaches.
-/
theorem display_unforgeable {h : Heap} (acyclic : h.Acyclic) (v : Value) :
    (h.display v).toList = (h.pieces v).flatMap Piece.chars ∧
    (∀ c ∈ (h.display v).toList, 0x20 ≤ c.toNat ∧ c.toNat ≠ 0x7F) ∧
    scan (h.display v).toList = {
      stretches := (h.texts v).map fun t => escaped t.toList
      bare := h.outline v } ∧
    (scan (h.display v).toList).stretches.map unescape
      = (h.texts v).map (fun t => some t.toList) ∧
    (∀ c ∈ h.outline v, c ≠ '"' ∧ c ≠ '\\') ∧
    ∀ t, t ∈ h.texts v ↔ ∃ w, h.Reaches v w ∧ h.Writes w t := by
  have hclear : ∀ piece ∈ h.pieces v, piece.Clear := h.clear_piecesWithin h.depthBound v
  have hscan : scan (h.display v).toList = {
      stretches := (h.texts v).map fun t => escaped t.toList
      bare := h.outline v } := by
    rw [scan, h.toList_display v]
    exact Piece.foldl_read hclear [] []
  refine ⟨h.toList_display v, ?_, hscan, ?_, ?_, ?_⟩
  · intro c hc
    rw [h.toList_display v] at hc
    obtain ⟨piece, hpiece, hmem⟩ := List.mem_flatMap.mp hc
    have hcontrol := Piece.not_control (hclear piece hpiece) hmem
    simpa [Text.isAsciiControl] using hcontrol
  · rw [hscan, List.map_map]
    exact List.map_congr_left fun t _ => Text.unescape_escaped t.toList
  · intro c hc
    obtain ⟨piece, hpiece, hmem⟩ := List.mem_flatMap.mp hc
    have hplain := hclear piece hpiece c hmem
    exact ⟨hplain.not_quote, hplain.not_backslash⟩
  · intro t
    rw [Heap.texts, Piece.mem_texts]
    exact Heap.quoted_mem_iff_reaches (acyclic.nestedWithin v)

/-- A sequence of one text, which has the marks of a list in it and a break of line. -/
def Heap.withMarks : Heap :=
  { sequences := #[#[.str "a\" [\n] \\\"b"]] }

/-- The marks in a text stay in its quotes. -/
theorem display_of_marks :
    Heap.withMarks.Acyclic ∧
      (scan (Heap.withMarks.display (.sequence ⟨0⟩)).toList).stretches.map unescape
        = [some "a\" [\n] \\\"b".toList] ∧
      (scan (Heap.withMarks.display (.sequence ⟨0⟩)).toList).bare = ['[', ']'] := by
  have acyclic : Heap.withMarks.Acyclic := by
    refine Heap.acyclic_of_flat fun v w hcontains => ?_
    have hw : w = .str "a\" [\n] \\\"b" := by
      simpa [Heap.withMarks] using hcontains.held
    rw [hw]
    rfl
  obtain ⟨-, -, hscan, hback, -⟩ := display_unforgeable acyclic (.sequence ⟨0⟩)
  refine ⟨acyclic, hback, ?_⟩
  rw [hscan]
  rfl

end Bindery
