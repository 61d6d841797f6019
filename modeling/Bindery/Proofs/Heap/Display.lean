/-
The display form tells values apart as far as equality does.

Two values are equal exactly when they are displayed alike, as long as no number with a
point, no callable and no stream lies in either: all else that a value is made of can be
read off its text.  This is unique readability.  The first character of a text gives the
type of the value, and from then on every part says where it ends: words are fixed,
numbers end where the digits do, quoted texts at their quote, and lists at their mark.

The induction is on the depth to which both values are displayed, with anything that does
not begin with a digit allowed to come after them, since that is how items of a list
stand.  What is read off is agreement on the ground of identity, which in an acyclic heap
is equality.
-/
import Bindery.Heap.Printer
import Bindery.Proofs.Heap.Equality
import Bindery.Proofs.Text.Delimited
import Bindery.Proofs.Text.Quoted

namespace Bindery

open Text (NoDigit noDigit_cons noDigit_nil displayQuotedChars)

namespace Value

/-- A value whose text says all of it, but for the values in it. -/
def isLegible : Value → Bool
  | float _ | callable _ | stream _ => false
  | _ => true

/-- A value is a floating point number. -/
def isFloat : Value → Bool
  | float _ => true
  | _ => false

theorem isFloat_of_isLegible {v : Value} (hlegible : v.isLegible = true) : v.isFloat = false := by
  cases v with
  | float _ => cases hlegible
  | _ => rfl

end Value

namespace Heap

variable {h : Heap} {a b : Value}

/-! ### Values that are equal are displayed alike -/

theorem map_eq_of_forall₂ {α β : Type} {f : α → β} {l m : List α}
    (hpairs : List.Forall₂ (fun v w => f v = f w) l m) : l.map f = m.map f := by
  induction hpairs with
  | nil => rfl
  | cons hvw _ ih => rw [List.map_cons, List.map_cons, hvw, ih]

/-- Values that agree are displayed alike to any depth, if no number with a point is there. -/
theorem displayWithin_of_agree (hagree : h.Agree Same a b) :
    h.Throughout (fun v => v.isFloat = false) a →
      ∀ depth, h.displayWithin depth a = h.displayWithin depth b := by
  induction hagree with
  | @base a b hsame =>
      intro hfree depth
      rcases Value.same_cases hsame with rfl | ⟨x, y, rfl, -⟩
      · rfl
      · cases hfree.self
  | refs _ ih =>
      intro hfree depth
      cases depth with
      | zero => rfl
      | succ depth => simp only [displayWithin, ih (hfree.referent rfl) depth]
  | @sequences s t hsize _ ih =>
      intro hfree depth
      cases depth with
      | zero => rfl
      | succ depth =>
          have hitems : List.Forall₂ (fun v w => h.displayWithin depth v = h.displayWithin depth w)
              (h.items s).toList (h.items t).toList := by
            refine forall₂_toList_array.mpr ⟨hsize, ?_⟩
            intro i v w hv hw
            exact ih i v w hv hw (hfree.of_contains (.item (Array.mem_of_getElem? hv))) depth
          simp only [displayWithin, map_eq_of_forall₂ hitems]
  | @mappings m n hkeys _ ih =>
      intro hfree depth
      cases depth with
      | zero => rfl
      | succ depth =>
          have hpairs := (Dict.forall₂_toList (h.pairs m)
            (R := fun v w => h.displayWithin depth v = h.displayWithin depth w)).mpr
            ⟨hkeys, fun key v w hv hw => ih key v w hv hw (hfree.of_contains (.value hv)) depth⟩
          have htexts := hpairs.imp fun p q hpq =>
            show displayQuotedChars p.1 ++ ' ' :: h.displayWithin depth p.2
                = displayQuotedChars q.1 ++ ' ' :: h.displayWithin depth q.2 by rw [hpq.1, hpq.2]
          simp only [displayWithin, map_eq_of_forall₂ htexts]

/-! ### Words and whole numbers -/

theorem boolChars_inj {v w : Bool} {x y : List Char} (heq : boolChars v ++ x = boolChars w ++ y) :
    v = w ∧ x = y := by
  cases v with
  | false =>
      cases w with
      | false => exact ⟨rfl, List.append_cancel_left heq⟩
      | true => cases List.head_eq_of_cons_eq heq
  | true =>
      cases w with
      | false => cases List.head_eq_of_cons_eq heq
      | true => exact ⟨rfl, List.append_cancel_left heq⟩

theorem toDigits_eq_cons (n : Nat) :
    ∃ d ds, Nat.toDigits 10 n = d :: ds ∧ d.isDigit = true := by
  cases hdigits : Nat.toDigits 10 n with
  | nil => exact absurd hdigits Nat.toDigits_ne_nil
  | cons d ds =>
      refine ⟨d, ds, rfl, ?_⟩
      exact Nat.isDigit_of_mem_toDigits (b := 10) (n := n) (by decide) (by decide) (by simp [hdigits])

theorem toDigits_ne_minus (n : Nat) (x y : List Char) : Nat.toDigits 10 n ++ x ≠ '-' :: y := by
  intro heq
  obtain ⟨d, ds, hdigits, hdigit⟩ := toDigits_eq_cons n
  rw [hdigits] at heq
  rw [List.head_eq_of_cons_eq heq] at hdigit
  cases hdigit

/-- A whole number is known from its sign and its size. -/
theorem eq_of_natAbs {m n : Int64} (hsign : m < 0 ↔ n < 0)
    (habs : m.toInt.natAbs = n.toInt.natAbs) : m = n := by
  rw [Int64.lt_iff_toInt_lt, Int64.lt_iff_toInt_lt, Int64.toInt_zero] at hsign
  refine Int64.toInt_inj.mp ?_
  omega

theorem intChars_inj {m n : Int64} {x y : List Char} (hx : NoDigit x) (hy : NoDigit y)
    (heq : intChars m ++ x = intChars n ++ y) : m = n ∧ x = y := by
  unfold intChars at heq
  by_cases hm : m < 0
  · by_cases hn : n < 0
    · rw [if_pos hm, if_pos hn, List.cons_append, List.cons_append, List.cons.injEq] at heq
      obtain ⟨habs, hrest⟩ := Text.toDigits_append_inj hx hy heq.2
      exact ⟨eq_of_natAbs (iff_of_true hm hn) habs, hrest⟩
    · rw [if_pos hm, if_neg hn] at heq
      exact absurd heq.symm (toDigits_ne_minus _ _ _)
  · by_cases hn : n < 0
    · rw [if_neg hm, if_pos hn] at heq
      exact absurd heq (toDigits_ne_minus _ _ _)
    · rw [if_neg hm, if_neg hn] at heq
      obtain ⟨habs, hrest⟩ := Text.toDigits_append_inj hx hy heq
      exact ⟨eq_of_natAbs (iff_of_false hm hn) habs, hrest⟩

/-! ### The first character -/

/-- The type of the values whose text begins with a character. -/
def typeOfLead (c : Char) : Option String :=
  if c.isDigit || c == '-' then some "int"
  else match c with
    | 'u' => some "undef"
    | 't' | 'f' => some "bool"
    | '"' => some "string"
    | 'r' => some "ref"
    | '[' => some "sequence"
    | '%' => some "mapping"
    | _ => none

theorem lead_intChars (n : Int64) :
    ∃ c rest, intChars n = c :: rest ∧ typeOfLead c = some "int" := by
  unfold intChars
  by_cases hn : n < 0
  · rw [if_pos hn]
    exact ⟨'-', _, rfl, rfl⟩
  · rw [if_neg hn]
    obtain ⟨d, ds, hdigits, hdigit⟩ := toDigits_eq_cons n.toInt.natAbs
    exact ⟨d, ds, hdigits, by simp [typeOfLead, hdigit]⟩

/-- The text of a legible value begins with a character of its type. -/
theorem lead_displayWithin (hlegible : a.isLegible = true) (depth : Nat) :
    ∃ c rest, h.displayWithin (depth + 1) a = c :: rest ∧ typeOfLead c = some a.typeName := by
  cases a with
  | undefined => exact ⟨'u', _, rfl, rfl⟩
  | bool b =>
      cases b with
      | false => exact ⟨'f', _, rfl, rfl⟩
      | true => exact ⟨'t', _, rfl, rfl⟩
  | int n => exact lead_intChars n
  | str s => exact ⟨'"', _, rfl, rfl⟩
  | ref r => exact ⟨'r', _, rfl, rfl⟩
  | sequence s => exact ⟨'[', _, rfl, rfl⟩
  | mapping m => exact ⟨'%', _, rfl, rfl⟩
  | float _ => cases hlegible
  | callable _ => cases hlegible
  | stream _ => cases hlegible

/-- Values that are displayed alike are of one type, whatever comes after their texts. -/
theorem typeName_eq_of_display {depth : Nat} {x y : List Char} (ha : a.isLegible = true)
    (hb : b.isLegible = true)
    (heq : h.displayWithin (depth + 1) a ++ x = h.displayWithin (depth + 1) b ++ y) :
    a.typeName = b.typeName := by
  obtain ⟨c, _, htext, hlead⟩ := lead_displayWithin (h := h) ha depth
  obtain ⟨c', _, htext', hlead'⟩ := lead_displayWithin (h := h) hb depth
  rw [htext, htext'] at heq
  rw [List.head_eq_of_cons_eq heq, hlead'] at hlead
  exact (Option.some.inj hlead).symm

/-- The text of a legible value does not begin with a mark that begins no value. -/
theorem displayWithin_ne_cons {depth : Nat} {c : Char} (hnested : h.NestedWithin depth a)
    (ha : a.isLegible = true) (hc : typeOfLead c = none) (x y : List Char) :
    h.displayWithin depth a ++ x ≠ c :: y := by
  intro heq
  cases depth with
  | zero => exact hnested
  | succ depth =>
      obtain ⟨c', _, htext, hlead⟩ := lead_displayWithin (h := h) ha depth
      rw [htext] at heq
      rw [List.head_eq_of_cons_eq heq, hc] at hlead
      cases hlead

/-! ### Values that are displayed alike are equal -/

/-- All that lies in a value is legible, and so is the value. -/
abbrev Legible (h : Heap) : Value → Prop :=
  h.Throughout fun v => v.isLegible = true

/-- Values nested within a depth are known from the texts that begin with them. -/
def Readable (h : Heap) (depth : Nat) : Prop :=
  ∀ a b x y, h.NestedWithin depth a → h.NestedWithin depth b → h.Legible a → h.Legible b →
    NoDigit x → NoDigit y → h.displayWithin depth a ++ x = h.displayWithin depth b ++ y →
      h.Agree Same a b ∧ x = y

section Contents

variable {depth : Nat} {x y : List Char} (readable : h.Readable depth)
include readable

theorem refs_inj {r s : Handle .ref} (hr : h.NestedWithin (depth + 1) (.ref r))
    (hs : h.NestedWithin (depth + 1) (.ref s)) (hlr : h.Legible (.ref r))
    (hls : h.Legible (.ref s))
    (heq : h.displayWithin (depth + 1) (.ref r) ++ x
      = h.displayWithin (depth + 1) (.ref s) ++ y) :
    h.Agree Same (.ref r) (.ref s) ∧ x = y := by
  simp only [displayWithin, wrapped, List.append_assoc, List.cons_append, List.nil_append,
    List.append_cancel_left_eq, List.cons.injEq, true_and] at heq
  rcases hr.referents hs with ⟨hr, hs⟩ | ⟨hr, hs⟩
  · obtain ⟨hagree, hrest⟩ := readable _ _ _ _ hr hs (hlr.referent rfl) (hls.referent rfl)
      (noDigit_cons rfl x) (noDigit_cons rfl y) heq
    exact ⟨.refs hagree, List.tail_eq_of_cons_eq hrest⟩
  · rw [hr, hs] at heq
    refine ⟨.refs ?_, List.tail_eq_of_cons_eq (List.append_cancel_left heq)⟩
    rw [hr, hs]
    exact .base rfl

theorem sequences_inj {s t : Handle .sequence} (hs : h.NestedWithin (depth + 1) (.sequence s))
    (ht : h.NestedWithin (depth + 1) (.sequence t)) (hls : h.Legible (.sequence s))
    (hlt : h.Legible (.sequence t))
    (heq : h.displayWithin (depth + 1) (.sequence s) ++ x
      = h.displayWithin (depth + 1) (.sequence t) ++ y) :
    h.Agree Same (.sequence s) (.sequence t) ∧ x = y := by
  have hitem : ∀ {u : Handle .sequence}, h.NestedWithin (depth + 1) (.sequence u) →
      h.Legible (.sequence u) → ∀ v ∈ (h.items u).toList, h.NestedWithin depth v ∧ h.Legible v := by
    intro u hu hlu v hv
    have hcontains : h.Contains (.sequence u) v := .item (Array.mem_toList_iff.mp hv)
    exact ⟨hu v hcontains, hlu.of_contains hcontains⟩
  have hmark : ∀ {u : Handle .sequence}, h.NestedWithin (depth + 1) (.sequence u) →
      h.Legible (.sequence u) → ∀ v ∈ (h.items u).toList, ∀ z w,
        h.displayWithin depth v ++ z ≠ ']' :: w := by
    intro u hu hlu v hv
    obtain ⟨hnested, hlegible⟩ := hitem hu hlu v hv
    exact displayWithin_ne_cons hnested hlegible.self rfl
  have hapart : Text.Apart (h.displayWithin depth) (h.Agree Same) (h.items s).toList
      (h.items t).toList := by
    intro v hv w hw z z'
    obtain ⟨hnv, hlv⟩ := hitem hs hls v hv
    obtain ⟨hnw, hlw⟩ := hitem ht hlt w hw
    exact readable v w z z' hnv hnw hlv hlw
  simp only [displayWithin, List.append_assoc, List.cons_append, List.nil_append,
    List.cons.injEq, true_and] at heq
  obtain ⟨hitems, hrest⟩ :=
    Text.closed_list_inj rfl rfl (by decide) hapart (hmark hs hls) (hmark ht hlt) heq
  obtain ⟨hsize, hitems⟩ := forall₂_toList_array.mp hitems
  exact ⟨.sequences hsize hitems, hrest⟩

theorem mappings_inj {m n : Handle .mapping} (hm : h.NestedWithin (depth + 1) (.mapping m))
    (hn : h.NestedWithin (depth + 1) (.mapping n)) (hlm : h.Legible (.mapping m))
    (hln : h.Legible (.mapping n))
    (heq : h.displayWithin (depth + 1) (.mapping m) ++ x
      = h.displayWithin (depth + 1) (.mapping n) ++ y) :
    h.Agree Same (.mapping m) (.mapping n) ∧ x = y := by
  have hvalue : ∀ {u : Handle .mapping}, h.NestedWithin (depth + 1) (.mapping u) →
      h.Legible (.mapping u) → ∀ p ∈ (h.pairs u).toList,
        h.NestedWithin depth p.2 ∧ h.Legible p.2 := by
    intro u hu hlu p hp
    have hcontains : h.Contains (.mapping u) p.2 :=
      .value (Std.ExtTreeMap.mem_toList_iff_getElem?_eq_some.mp hp)
    exact ⟨hu _ hcontains, hlu.of_contains hcontains⟩
  have hmark : ∀ p : String × Value, ∀ z w,
      displayQuotedChars p.1 ++ ' ' :: h.displayWithin depth p.2 ++ z ≠ '\x7d' :: w := by
    intro p z w hquoted
    cases List.head_eq_of_cons_eq hquoted
  have hapart : Text.Apart (fun p => displayQuotedChars p.1 ++ ' ' :: h.displayWithin depth p.2)
      (fun p q => p.1 = q.1 ∧ h.Agree Same p.2 q.2) (h.pairs m).toList (h.pairs n).toList := by
    intro p hp q hq z z' hz hz' htext
    obtain ⟨hnp, hlp⟩ := hvalue hm hlm p hp
    obtain ⟨hnq, hlq⟩ := hvalue hn hln q hq
    rw [List.append_assoc, List.append_assoc] at htext
    obtain ⟨hkey, hrest⟩ := Text.displayQuotedChars_inj htext
    obtain ⟨hagree, hrest⟩ := readable _ _ z z' hnp hnq hlp hlq hz hz'
      (List.tail_eq_of_cons_eq hrest)
    exact ⟨⟨hkey, hagree⟩, hrest⟩
  simp only [displayWithin, List.append_assoc, List.cons_append, List.nil_append,
    List.cons.injEq, true_and] at heq
  obtain ⟨hpairs, hrest⟩ := Text.closed_list_inj rfl rfl (by decide) hapart
    (fun p _ => hmark p) (fun p _ => hmark p) heq
  obtain ⟨hkeys, hvalues⟩ := (Dict.forall₂_toList _ (R := h.Agree Same)).mp hpairs
  exact ⟨.mappings hkeys hvalues, hrest⟩

end Contents

/-- **Legible values are known from the texts that begin with them.** -/
theorem readable (h : Heap) : ∀ depth, h.Readable depth := by
  intro depth
  induction depth with
  | zero => intro a b x y hnested; exact hnested.elim
  | succ depth ih =>
      intro a b x y hna hnb hla hlb hx hy heq
      have htype := typeName_eq_of_display hla.self hlb.self heq
      cases a with
      | undefined =>
          cases b <;> simp [Value.typeName] at htype
          exact ⟨.base rfl, List.append_cancel_left heq⟩
      | bool v =>
          cases b <;> simp [Value.typeName] at htype
          obtain ⟨rfl, hrest⟩ := boolChars_inj heq
          exact ⟨.base (Value.same_self _), hrest⟩
      | int v =>
          cases b <;> simp [Value.typeName] at htype
          obtain ⟨rfl, hrest⟩ := intChars_inj hx hy heq
          exact ⟨.base (Value.same_self _), hrest⟩
      | str v =>
          cases b <;> simp [Value.typeName] at htype
          obtain ⟨rfl, hrest⟩ := Text.displayQuotedChars_inj heq
          exact ⟨.base (Value.same_self _), hrest⟩
      | ref r =>
          cases b <;> simp [Value.typeName] at htype
          exact refs_inj ih hna hnb hla hlb heq
      | sequence s =>
          cases b <;> simp [Value.typeName] at htype
          exact sequences_inj ih hna hnb hla hlb heq
      | mapping m =>
          cases b <;> simp [Value.typeName] at htype
          exact mappings_inj ih hna hnb hla hlb heq
      | float _ => cases hla.self
      | callable _ => cases hla.self
      | stream _ => cases hla.self

end Heap

/--
**Values are displayed alike exactly when they are equal**, in an acyclic heap and where
no floating point number, no callable and no stream lies in either of the two.  Where
callables and streams do, but no floating point number, values that are equal are still
displayed alike.
-/
theorem display_eq_iff_equal {h : Heap} (acyclic : h.Acyclic) (a b : Value) :
    (h.Throughout (fun v => v.isLegible = true) a →
      h.Throughout (fun v => v.isLegible = true) b →
        (h.display a = h.display b ↔ h.equal a b = true)) ∧
    (h.Throughout (fun v => v.isFloat = false) a → h.equal a b = true →
      h.display a = h.display b) := by
  have halike : h.Throughout (fun v => v.isFloat = false) a → h.equal a b = true →
      h.display a = h.display b := by
    intro hfree hequal
    have hagree := (Heap.equal_iff_agree acyclic).mp hequal
    exact congrArg String.ofList (Heap.displayWithin_of_agree hagree hfree _)
  refine ⟨?_, halike⟩
  intro ha hb
  constructor
  · intro hdisplay
    have hchars := String.ofList_injective hdisplay
    obtain ⟨hagree, -⟩ := h.readable _ a b [] [] (acyclic.nestedWithin a) (acyclic.nestedWithin b)
      ha hb noDigit_nil noDigit_nil (by rw [hchars])
    exact (Heap.equal_iff_agree acyclic).mpr hagree
  · have hfloat : h.Throughout (fun v => v.isFloat = false) a := by
      intro v hreaches
      exact Value.isFloat_of_isLegible (ha v hreaches)
    exact halike hfloat

/-- Two sequences of the same texts, and one whose only text has the marks of a list in it. -/
def Heap.withForgery : Heap :=
  { sequences := #[#[.str "a", .str "b"], #[.str "a", .str "b"], #[.str "a\" \"b"]] }

/-- Two references to one callable. -/
def Heap.withSharedCallable : Heap :=
  { refs := #[.callable ⟨0⟩, .callable ⟨0⟩], callables := #[.builtin .sum] }

/-- What holds the same is displayed alike, callables too, and no text passes for two. -/
theorem display_of_forgery :
    (Heap.withForgery.Acyclic ∧
      Heap.withForgery.display (.sequence ⟨0⟩) = Heap.withForgery.display (.sequence ⟨1⟩) ∧
      Heap.withForgery.display (.sequence ⟨0⟩) ≠ Heap.withForgery.display (.sequence ⟨2⟩)) ∧
    Heap.withSharedCallable.Acyclic ∧
      Heap.withSharedCallable.display (.ref ⟨0⟩) = Heap.withSharedCallable.display (.ref ⟨1⟩) := by
  have hstring : ∀ v w, Heap.withForgery.Contains v w → ∃ text, w = .str text := by
    intro v w hcontains
    have hall : ∀ items ∈ Heap.withForgery.sequences, ∀ w ∈ items, ∃ text, w = .str text := by
      simp [Heap.withForgery]
    obtain hrefs | ⟨items, hitems, hw⟩ | ⟨pairs, hpairs, -⟩ := hcontains.held
    · simp [Heap.withForgery] at hrefs
    · exact hall items hitems w hw
    · simp [Heap.withForgery] at hpairs
  have hcallable : ∀ v w, Heap.withSharedCallable.Contains v w → w = .callable ⟨0⟩ := by
    intro v w hcontains
    simpa [Heap.withSharedCallable] using hcontains.held
  have acyclic : Heap.withForgery.Acyclic := by
    refine Heap.acyclic_of_flat ?_
    intro v w hcontains
    obtain ⟨_, rfl⟩ := hstring v w hcontains
    rfl
  have acyclic' : Heap.withSharedCallable.Acyclic := by
    refine Heap.acyclic_of_flat ?_
    intro v w hcontains
    rw [hcallable v w hcontains]
    rfl
  have hlegible : ∀ s, Heap.withForgery.Legible (.sequence s) := by
    intro s
    refine Heap.Throughout.of_step ?_ rfl
    intro v w hcontains _
    obtain ⟨_, rfl⟩ := hstring v w hcontains
    rfl
  have hfree : Heap.withSharedCallable.Throughout (fun v => v.isFloat = false) (.ref ⟨0⟩) := by
    refine Heap.Throughout.of_step ?_ rfl
    intro v w hcontains _
    rw [hcallable v w hcontains]
    rfl
  refine ⟨⟨acyclic, ?_, ?_⟩, acyclic', ?_⟩
  · exact ((display_eq_iff_equal acyclic _ _).1 (hlegible _) (hlegible _)).mpr (by decide)
  · intro halike
    have hequal := ((display_eq_iff_equal acyclic _ _).1 (hlegible _) (hlegible _)).mp halike
    exact absurd hequal (by decide)
  · exact (display_eq_iff_equal acyclic' _ _).2 hfree (by decide)

end Bindery
