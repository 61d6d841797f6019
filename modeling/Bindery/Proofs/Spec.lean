/-
Reading a spec undoes writing it.

A spec that reads is the written form of what it reads as, so no two specs read as the
same.  The other way round fails for one family of names.  A stream has no tag, so the
name of a stream that begins with a tag character would be taken for a name of another
kind; and an empty name is never read.  What can be addressed is what is left, and that
is exactly what reading gives.

Two families of texts make up the rest.  A text without a name, which is the empty text
or a tag alone, is refused and carried whole by the error.  And the written form of a
stream whose name begins with a tag reads as the other kind, with that one tag taken off.
-/
import Bindery.Spec

namespace Bindery

namespace Kind

/-- A kind has the tag that is written in front of its names, or none is written. -/
theorem toList_tagText (kind : Kind) : kind.tagText.toList = kind.tag?.toList := by
  cases kind <;> rfl

/-- The tag characters are four. -/
theorem ofTag?_eq_none_iff {c : Char} : ofTag? c = none ↔ c ∉ ['$', '@', '%', '&'] := by
  have htags : ofTag? c = none ↔ ∀ kind : Kind, kind.tag? ≠ some c := by
    simp [Option.eq_none_iff_forall_ne_some, ofTag?_eq_some_iff]
  rw [htags]
  constructor
  · intro h hc
    simp only [List.mem_cons, List.not_mem_nil, or_false] at hc
    rcases hc with rfl | rfl | rfl | rfl
    · exact h .scalar rfl
    · exact h .sequence rfl
    · exact h .mapping rfl
    · exact h .callable rfl
  · intro hc kind htag
    cases kind <;> simp only [tag?, Option.some.injEq, reduceCtorEq] at htag <;> subst htag <;>
      simp at hc

/-- A kind without a tag is a stream. -/
theorem tag?_eq_none_iff {kind : Kind} : kind.tag? = none ↔ kind = stream := by
  cases kind <;> simp [tag?]

end Kind

namespace Spec

/-- A text does not begin with a tag character. -/
def Untagged (name : String) : Prop :=
  ∀ c, name.toList.head? = some c → Kind.ofTag? c = none

/-- A spec can be addressed: it names something, and a stream by no tag. -/
structure Addressable (spec : Spec) : Prop where
  named : spec.name ≠ ""
  untagged : spec.kind = .stream → Untagged spec.name

theorem toList_text (spec : Spec) : spec.text.toList = spec.kind.tag?.toList ++ spec.name.toList := by
  rw [text, String.toList_append, Kind.toList_tagText]

/-- The written form of a stream is its name. -/
theorem text_stream (name : String) : Spec.text ⟨name, .stream⟩ = name :=
  String.toList_inj.mp (toList_text _)

/-- A text that begins with a tag is of the kind of that tag, if anything follows the tag. -/
theorem parse_of_tag {written : String} {c : Char} {rest : List Char} {kind : Kind}
    (hwritten : written.toList = c :: rest) (htag : Kind.ofTag? c = some kind) :
    parse written =
      if rest = [] then .error (.invalidSpec written) else .ok ⟨String.ofList rest, kind⟩ := by
  simp [parse, hwritten, htag]

/-- A text that begins with any other character is the name of a stream. -/
theorem parse_of_plain {written : String} {c : Char} {rest : List Char}
    (hwritten : written.toList = c :: rest) (hplain : Kind.ofTag? c = none) :
    parse written = .ok ⟨written, .stream⟩ := by
  simp [parse, hwritten, hplain]

/-- What a spec reads as can be addressed, and is written as that spec. -/
theorem of_parse {written : String} {spec : Spec} (h : parse written = .ok spec) :
    written = spec.text ∧ spec.Addressable := by
  cases hwritten : written.toList with
  | nil => simp [parse, hwritten] at h
  | cons first rest =>
      cases htag : Kind.ofTag? first with
      | none =>
          rw [parse_of_plain hwritten htag] at h
          cases h
          refine ⟨(text_stream written).symm, ?_, ?_⟩
          · intro hempty
            simp [show written = "" from hempty] at hwritten
          · intro _ c hc
            obtain rfl : first = c := by simpa [hwritten] using hc
            exact htag
      | some kind =>
          have hkind : kind.tag? = some first := Kind.ofTag?_eq_some_iff.mp htag
          rw [parse_of_tag hwritten htag] at h
          by_cases hrest : rest = []
          · rw [if_pos hrest] at h
            cases h
          · rw [if_neg hrest] at h
            cases h
            refine ⟨?_, ?_, ?_⟩
            · apply String.toList_inj.mp
              simp [toList_text, hkind, hwritten]
            · intro hempty
              exact hrest (by simpa using congrArg String.toList hempty)
            · intro hstream
              rw [show kind = .stream from hstream] at hkind
              cases hkind

/-- What can be addressed is read back from its written form. -/
theorem parse_text {spec : Spec} (h : spec.Addressable) : parse spec.text = .ok spec := by
  obtain ⟨name, kind⟩ := spec
  have hne : name.toList ≠ [] := fun hnil => h.named (String.toList_inj.mp hnil)
  cases htag : kind.tag? with
  | some c =>
      have hwritten : (Spec.text ⟨name, kind⟩).toList = c :: name.toList := by
        simp [toList_text, htag]
      rw [parse_of_tag hwritten (Kind.ofTag?_eq_some_iff.mpr htag), if_neg hne, String.ofList_toList]
  | none =>
      obtain rfl : kind = .stream := Kind.tag?_eq_none_iff.mp htag
      rw [text_stream]
      cases hchars : name.toList with
      | nil => exact absurd hchars hne
      | cons c rest => exact parse_of_plain hchars (h.untagged rfl c (by simp [hchars]))

/-- **A text reads as a spec exactly when it is the written form of one that can be addressed.** -/
theorem parse_eq_ok_iff {written : String} {spec : Spec} :
    parse written = .ok spec ↔ written = spec.text ∧ spec.Addressable := by
  constructor
  · exact of_parse
  · intro h
    rw [h.1]
    exact parse_text h.2

/-! ### Texts without a name, and streams under a tag -/

/-- A text names nothing: it is empty, or a tag character alone. -/
def Unnamed (written : String) : Prop :=
  written = "" ∨ written ∈ ["$", "@", "%", "&"]

/-- A text begins with a tag character. -/
def Tagged (name : String) : Prop :=
  ∃ c ∈ ['$', '@', '%', '&'], name.toList.head? = some c

theorem untagged_iff_not_tagged {name : String} : Untagged name ↔ ¬ Tagged name := by
  simp only [Untagged, Kind.ofTag?_eq_none_iff]
  constructor
  · rintro h ⟨c, hc, hhead⟩
    exact h c hhead hc
  · intro h c hhead hc
    exact h ⟨c, hc, hhead⟩

theorem unnamed_iff {written : String} :
    Unnamed written ↔
      written.toList = [] ∨ ∃ c, Kind.ofTag? c ≠ none ∧ written.toList = [c] := by
  have htags (c : Char) : Kind.ofTag? c ≠ none ↔ c = '$' ∨ c = '@' ∨ c = '%' ∨ c = '&' := by
    rw [Ne, Kind.ofTag?_eq_none_iff, Decidable.not_not]
    simp
  simp only [Unnamed, ← String.toList_inj, List.mem_cons, List.not_mem_nil, or_false, htags]
  simp

/-- Exactly the texts without a name are refused, and the error carries the text. -/
theorem parse_eq_error_iff {written : String} {error : BindError} :
    parse written = .error error ↔ Unnamed written ∧ error = .invalidSpec written := by
  rw [unnamed_iff]
  cases hwritten : written.toList with
  | nil => simp [parse, hwritten, eq_comm]
  | cons c rest =>
      cases htag : Kind.ofTag? c with
      | none =>
          rw [parse_of_plain hwritten htag]
          constructor
          · intro h
            cases h
          · rintro ⟨hnil | ⟨t, ht, hone⟩, -⟩
            · cases hnil
            · cases hone
              exact absurd htag ht
      | some kind =>
          rw [parse_of_tag hwritten htag]
          by_cases hrest : rest = []
          · simp [hrest, htag, eq_comm]
          · simp [hrest]

/-- What reads as one spec is one text. -/
theorem parse_injective {written other : String} {spec : Spec} (h : parse written = .ok spec)
    (hother : parse other = .ok spec) : written = other :=
  (of_parse h).1.trans (of_parse hother).1.symm

/--
The written form of a stream whose name begins with a tag is never read as that stream:
the tag is taken off, and what is left is a name of the kind of the tag.
-/
theorem parse_text_of_tagged {name : String} (h : Tagged name) :
    ∃ c rest kind, name.toList = c :: rest ∧ kind.tag? = some c ∧
      parse (Spec.text ⟨name, .stream⟩) =
        if rest = [] then .error (.invalidSpec name) else .ok ⟨String.ofList rest, kind⟩ := by
  obtain ⟨c, hc, hhead⟩ := h
  obtain ⟨rest, hname⟩ : ∃ rest, name.toList = c :: rest := List.head?_eq_some_iff.mp hhead
  cases htag : Kind.ofTag? c with
  | none => exact absurd hc (Kind.ofTag?_eq_none_iff.mp htag)
  | some kind =>
      refine ⟨c, rest, kind, hname, Kind.ofTag?_eq_some_iff.mp htag, ?_⟩
      rw [text_stream]
      exact parse_of_tag hname htag

/--
**Specs that are accepted and names that can be addressed are in bijection.**  Only a text
without a name is refused, whole.  What any other text reads as has a name, under no tag
if it is a stream, and is written as that text; and every such name is read back from what
is written for it, so different texts address different bindings.  A stream whose name
begins with a tag has no spec: what is written for it names nothing, or what the rest of
the name names as the kind of the tag.
-/
theorem parse_inverts_text :
    (∀ written error, parse written = .error error ↔
      Unnamed written ∧ error = .invalidSpec written) ∧
    (∀ written spec, parse written = .ok spec →
      spec.name ≠ "" ∧ (spec.kind = .stream → ¬ Tagged spec.name) ∧ spec.text = written) ∧
    (∀ spec : Spec, spec.name ≠ "" → spec.kind ≠ .stream ∨ ¬ Tagged spec.name →
      parse spec.text = .ok spec) ∧
    (∀ name, Tagged name → ∃ c rest kind, name.toList = c :: rest ∧ kind.tag? = some c ∧
      parse (text ⟨name, .stream⟩) ≠ .ok ⟨name, .stream⟩ ∧
      (rest = [] → parse (text ⟨name, .stream⟩) = .error (.invalidSpec name)) ∧
      (rest ≠ [] → parse (text ⟨name, .stream⟩) = .ok ⟨String.ofList rest, kind⟩)) ∧
    (∀ written other spec otherSpec, parse written = .ok spec → parse other = .ok otherSpec →
      written ≠ other → spec ≠ otherSpec) := by
  refine ⟨fun written error => parse_eq_error_iff, ?read, ?written, ?tagged, ?distinct⟩
  case read =>
    intro written spec h
    obtain ⟨htext, hnamed, huntagged⟩ := of_parse h
    exact ⟨hnamed, fun hstream => untagged_iff_not_tagged.mp (huntagged hstream), htext.symm⟩
  case written =>
    intro spec hnamed hkind
    refine parse_text ⟨hnamed, fun hstream => untagged_iff_not_tagged.mpr ?_⟩
    rcases hkind with hne | hplain
    · exact absurd hstream hne
    · exact hplain
  case tagged =>
    intro name h
    obtain ⟨c, rest, kind, hname, htag, hparse⟩ := parse_text_of_tagged h
    refine ⟨c, rest, kind, hname, htag, ?_, ?_, ?_⟩
    · intro hread
      exact untagged_iff_not_tagged.mp ((of_parse hread).2.untagged rfl) h
    · intro hrest
      rw [hparse, if_pos hrest]
    · intro hrest
      rw [hparse, if_neg hrest]
  case distinct =>
    intro written other spec otherSpec h hother hne hspec
    exact hne (parse_injective h (hspec ▸ hother))

/-- One tag is taken off `$@n`, and the stream `@n` has no spec of its own. -/
theorem doubly_tagged_read :
    text ⟨"@n", .scalar⟩ = "$@n" ∧ parse (text ⟨"@n", .scalar⟩) = .ok ⟨"@n", .scalar⟩ ∧
      parse (text ⟨"@n", .stream⟩) ≠ .ok ⟨"@n", .stream⟩ := by
  obtain ⟨-, hread, hwritten, htagged, -⟩ := parse_inverts_text
  have hparse : parse "$@n" = .ok ⟨"@n", .scalar⟩ := rfl
  obtain ⟨c, rest, kind, -, -, hnever, -⟩ := htagged "@n" ⟨'@', by simp, rfl⟩
  exact ⟨(hread _ _ hparse).2.2, hwritten ⟨"@n", .scalar⟩ (by decide) (.inl (by decide)), hnever⟩

end Spec

end Bindery
