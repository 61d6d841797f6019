/-
Qualified names tell definitions apart.

A qualified name is taken apart at its last qualifier.  That gives back the namespace and
the bare name if no qualifier is found further on: none within the bare name, and none
that overlaps the one in between, which takes a bare name that begins with a colon.  The
identifier of the namespace may be any text at all, with qualifiers in it or a colon at
its end.

Both conditions are needed.  What comes before a later qualifier can as well be counted to
the namespace, and so can a colon at the beginning of the bare name.
-/
import Bindery.Spec

namespace Bindery

/-- A bare name that is never taken apart: it has no qualifier in it and no colon in front. -/
structure Unqualified (name : String) : Prop where
  noQualifier : ¬ qualifier.toList <:+: name.toList
  noColon : name.toList.head? ≠ some ':'

theorem toList_qualify (ident name : String) :
    (qualify ident name).toList = ident.toList ++ (qualifier.toList ++ name.toList) := by
  simp [qualify]

/-- In a qualifier with an unqualified name after it no qualifier is found but the first. -/
theorem Unqualified.eq_nil_of_qualifier {name : String} (h : Unqualified name)
    {skipped rest : List Char}
    (heq : qualifier.toList ++ name.toList = skipped ++ (qualifier.toList ++ rest)) :
    skipped = [] := by
  have hqualifier : qualifier.toList = [':', ':'] := rfl
  rw [hqualifier] at heq
  match skipped with
  | [] => rfl
  | [c] =>
      -- The two overlap in one colon, and the second colon is the name's.
      obtain ⟨-, hname⟩ : ':' = c ∧ name.toList = ':' :: rest := by simpa using heq
      exact absurd (by rw [hname]; rfl) h.noColon
  | c :: d :: skipped =>
      obtain ⟨-, -, hname⟩ :
          ':' = c ∧ ':' = d ∧ name.toList = skipped ++ ':' :: ':' :: rest := by simpa using heq
      exact absurd ⟨skipped, rest, by simp [hname, hqualifier]⟩ h.noQualifier

/-- **Qualified names of unqualified names tell namespaces and names apart.** -/
theorem Unqualified.qualify_inj {ident ident' name name' : String} (h : Unqualified name)
    (h' : Unqualified name') (heq : qualify ident name = qualify ident' name') :
    ident = ident' ∧ name = name' := by
  have hchars := congrArg String.toList heq
  rw [toList_qualify, toList_qualify] at hchars
  have hident : ident.toList = ident'.toList := by
    rcases List.append_eq_append_iff.mp hchars with ⟨more, hmore, hrest⟩ | ⟨more, hmore, hrest⟩
    · rw [hmore, h.eq_nil_of_qualifier hrest, List.append_nil]
    · rw [hmore, h'.eq_nil_of_qualifier hrest, List.append_nil]
  rw [hident] at hchars
  have hname := List.append_cancel_left (List.append_cancel_left hchars)
  exact ⟨String.toList_inj.mp hident, String.toList_inj.mp hname⟩

/-- **Any other bare name is taken for one of a namespace with a longer identifier.** -/
theorem qualify_of_not_unqualified {name : String} (h : ¬ Unqualified name) (ident : String) :
    ∃ ident' name', ident.length < ident'.length ∧
      qualify ident' name' = qualify ident name := by
  by_cases hqualifier : qualifier.toList <:+: name.toList
  · obtain ⟨before, after, hname⟩ := hqualifier
    refine ⟨qualify ident (String.ofList before), String.ofList after, ?_, ?_⟩
    · rw [← String.length_toList, ← String.length_toList, toList_qualify]
      simp [qualifier]
    · apply String.toList_inj.mp
      rw [toList_qualify, toList_qualify, toList_qualify, ← hname]
      simp
  · have hcolon : name.toList.head? = some ':' :=
      Decidable.byContradiction fun hne => h ⟨hqualifier, hne⟩
    obtain ⟨rest, hname⟩ := List.head?_eq_some_iff.mp hcolon
    refine ⟨ident ++ ":", String.ofList rest, ?_, ?_⟩
    · rw [← String.length_toList, ← String.length_toList]
      simp
    · apply String.toList_inj.mp
      rw [toList_qualify, toList_qualify, hname]
      simp [qualifier]

end Bindery
