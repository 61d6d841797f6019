/-
What a removal binds again.

A removal reads the siblings that count, takes the entry away and binds the siblings again, one
after the other in slot order.  Of a name without a stub it reads what the slots hold, so what it
leaves is the table before, rebuilt from some of the siblings: from all of them if they fit their
kinds, and else from those whose slots come before the first that does not fit.
-/
import Bindery.Proofs.Namespace.Apart

namespace Bindery

namespace SymbolTable

variable (table : SymbolTable)

/-- The table in which a name is bound by some specs only, to what their slots held. -/
def rebuilt (name : String) (specs : List Spec) : SymbolTable :=
  SymbolTable.boundAll (table.erase name) (specs.filterMap fun q => (table.held q).map (q, ·))

/-- The table in which a name is bound by the siblings of a spec only. -/
def without (spec : Spec) : SymbolTable :=
  table.rebuilt spec.name (table.siblingsOf spec)

/-- What the other slots of a name hold fits their kinds. -/
def SiblingsFit (spec : Spec) : Prop :=
  ∀ kind value, kind ≠ spec.kind → table.held ⟨spec.name, kind⟩ = some value →
    value.fits kind = true

/-- The first sibling of a spec, in slot order, that does not fit its kind. -/
structure FirstMisfit (spec : Spec) (kind : Kind) (value : Value) : Prop where
  sibling : kind ≠ spec.kind
  held : table.held ⟨spec.name, kind⟩ = some value
  misfit : value.fits kind = false
  first : ∀ j v, j ≠ spec.kind → j.index < kind.index → table.held ⟨spec.name, j⟩ = some v →
    v.fits j = true

variable {table}

/-! ### Siblings -/

/-- A name has no stub if one of its slots holds a value. -/
theorem isStub_of_held {name : String} {kind : Kind} {value : Value}
    (hheld : table.held ⟨name, kind⟩ = some value) : table.isStub name = false := by
  refine Bool.eq_false_iff.mpr fun hstub => ?_
  simp [held, slots_eq_of_isStub table hstub] at hheld

/-- What does not fit its kind counts. -/
theorem has_of_misfit {name : String} {kind : Kind} {value : Value}
    (hheld : table.held ⟨name, kind⟩ = some value) (hmisfit : value.fits kind = false) :
    table.has ⟨name, kind⟩ = true := by
  refine (table.has_iff_held (isStub_of_held hheld)).mpr ⟨value, hheld, ?_⟩
  rintro rfl
  cases value <;> first | rfl | cases hmisfit

theorem held_of_mem_siblingsOf {spec p : Spec} (hstub : table.isStub spec.name = false)
    (hp : p ∈ table.siblingsOf spec) : ∃ value, table.held p = some value := by
  obtain ⟨hname, -, hhas⟩ := table.mem_siblingsOf.mp hp
  obtain ⟨value, hheld, -⟩ := (table.has_iff_held (hname ▸ hstub)).mp hhas
  exact ⟨value, hheld⟩

theorem SiblingsFit.of_mem {spec : Spec} (hfits : table.SiblingsFit spec) :
    ∀ q ∈ table.siblingsOf spec, ∀ value, table.held q = some value →
      value.fits q.kind = true := by
  intro q hq value hvalue
  obtain ⟨hname, hkind, -⟩ := table.mem_siblingsOf.mp hq
  exact hfits q.kind value hkind (by rw [← hname]; exact hvalue)

theorem name_of_mem_siblingsOf {spec p : Spec} (hp : p ∈ table.siblingsOf spec) :
    p.name = spec.name :=
  (table.mem_siblingsOf.mp hp).1

theorem siblingsOf_ascending (table : SymbolTable) (spec : Spec) :
    (table.siblingsOf spec).Pairwise fun p q => p.kind.index < q.kind.index := by
  have hall : Kind.all.Pairwise fun j k => j.index < k.index := by decide
  unfold siblingsOf
  refine List.Pairwise.filter _ (List.pairwise_map.mpr ?_)
  exact hall.filter _

/-- Tables that count the same siblings of a spec have the same siblings of it. -/
theorem siblingsOf_congr {table' : SymbolTable} {spec : Spec}
    (hhas : ∀ p : Spec, p.name = spec.name → p.kind ≠ spec.kind → table'.has p = table.has p) :
    table'.siblingsOf spec = table.siblingsOf spec := by
  unfold siblingsOf
  refine List.filter_congr fun p hp => ?_
  obtain ⟨kind, hkind, rfl⟩ := List.mem_map.mp hp
  exact hhas _ rfl (Kind.mem_siblings.mp hkind)

/-- A sibling parts those whose slots come before its own from the later ones. -/
theorem siblingsOf_parted {spec p : Spec} (hp : p ∈ table.siblingsOf spec) :
    ∃ later, table.siblingsOf spec
      = ((table.siblingsOf spec).filter fun q => q.kind.index < p.kind.index) ++ p :: later := by
  obtain ⟨before, later, heq⟩ := List.append_of_mem hp
  have hascending := table.siblingsOf_ascending spec
  rw [heq] at hascending
  obtain ⟨-, hlater, hbefore⟩ := List.pairwise_append.mp hascending
  have hkept : before.filter (fun q => q.kind.index < p.kind.index) = before :=
    List.filter_eq_self.mpr fun q hq => decide_eq_true (hbefore q hq p (by simp))
  have hleft : (p :: later).filter (fun q => q.kind.index < p.kind.index) = [] := by
    refine List.filter_eq_nil_iff.mpr fun q hq => ?_
    rcases List.mem_cons.mp hq with rfl | hq
    · simp
    · simpa using Nat.le_of_lt ((List.pairwise_cons.mp hlater).1 q hq)
  refine ⟨later, ?_⟩
  rw [heq, List.filter_append, hkept, hleft, List.append_nil]

/-- Either all siblings fit their kinds, or there is a first that does not. -/
theorem siblings_fit_or_first_misfit (table : SymbolTable) (spec : Spec) :
    table.SiblingsFit spec ∨ ∃ kind value, table.FirstMisfit spec kind value := by
  by_cases hall : table.SiblingsFit spec
  · exact Or.inl hall
  · -- of the kinds that do not fit, one has the least index
    unfold SiblingsFit at hall
    push Not at hall
    obtain ⟨kind, value, hkind, hheld, hmisfit⟩ := hall
    refine Or.inr ?_
    induction hindex : kind.index using Nat.strongRecOn generalizing kind value with
    | ind i ih =>
        by_cases hearlier : ∃ j v, j ≠ spec.kind ∧ j.index < kind.index ∧
            table.held ⟨spec.name, j⟩ = some v ∧ v.fits j ≠ true
        · obtain ⟨j, v, hj, hlt, hv, hnot⟩ := hearlier
          exact ih j.index (hindex ▸ hlt) j v hj hv hnot rfl
        · refine ⟨kind, value, hkind, hheld, Bool.eq_false_iff.mpr hmisfit, ?_⟩
          intro j v hj hlt hv
          by_contra hnot
          exact hearlier ⟨j, v, hj, hlt, hv, hnot⟩

/-! ### Tables that are rebuilt -/

variable {name : String} {specs : List Spec}

/-- What specs hold fits where each of them holds what fits. -/
theorem pairs_fit
    (hfits : ∀ q ∈ specs, ∀ value, table.held q = some value → value.fits q.kind = true) :
    ∀ pair ∈ specs.filterMap fun q => (table.held q).map (q, ·),
      pair.2.fits pair.1.kind = true := by
  intro pair hpair
  obtain ⟨q, hq, hmap⟩ := List.mem_filterMap.mp hpair
  obtain ⟨value, hvalue, rfl⟩ := Option.map_eq_some_iff.mp hmap
  exact hfits q hq value hvalue

theorem getElem?_boundAll_of_ne {pairs : List (Spec × Value)} {other : String}
    (hne : ∀ pair ∈ pairs, other ≠ pair.1.name) :
    (table.boundAll pairs)[other]? = table[other]? := by
  induction pairs generalizing table with
  | nil => rfl
  | cons pair rest ih =>
      show (boundAll (table.bound pair.1 (some pair.2)) rest)[other]? = _
      rw [ih fun q hq => hne q (by simp [hq]), getElem?_bound_of_ne _ (hne pair (by simp))]

section Names

variable (hnames : ∀ q ∈ specs, q.name = name)
include hnames

/-- To rebuild a name leaves the entries of the others. -/
theorem getElem?_rebuilt_of_ne {other : String} (hne : other ≠ name) :
    (table.rebuilt name specs)[other]? = table[other]? := by
  have hpairs : ∀ pair ∈ specs.filterMap fun q => (table.held q).map (q, ·),
      other ≠ pair.1.name := by
    intro pair hpair
    obtain ⟨q, hq, hmap⟩ := List.mem_filterMap.mp hpair
    obtain ⟨value, -, rfl⟩ := Option.map_eq_some_iff.mp hmap
    exact hnames q hq ▸ hne
  rw [rebuilt, getElem?_boundAll_of_ne hpairs, Dict.getElem?_erase, if_neg hne]

/-- The slots of a name that is rebuilt hold what they held, if they are among the specs. -/
theorem held_rebuilt (p : Spec) :
    (table.rebuilt name specs).held p
      = if p.name = name then if p ∈ specs then table.held p else none else table.held p := by
  rw [rebuilt, held_boundAll, held_erase]
  by_cases hname : p.name = name
  · simp [hname]
  · have hp : p ∉ specs := fun hmem => hname (hnames p hmem)
    simp [hname, hp]

/-- A name that is rebuilt has slots, or no entry if there was nothing to rebuild it from. -/
theorem getElem?_rebuilt (hheld : ∀ q ∈ specs, ∃ value, table.held q = some value) :
    (table.rebuilt name specs)[name]?
      = if specs = [] then none
        else some (.bindings ((table.rebuilt name specs).slots name)) := by
  rcases List.eq_nil_or_concat specs with rfl | ⟨init, last, rfl⟩
  · show (table.erase name)[name]? = none
    rw [Dict.getElem?_erase, if_pos rfl]
  · obtain ⟨value, hvalue⟩ := hheld last (by simp)
    obtain rfl : last.name = name := hnames last (by simp)
    have hlast : table.rebuilt last.name (init.concat last)
        = (table.rebuilt last.name init).bound last (some value) := by
      simp [rebuilt, boundAll, List.filterMap_append, hvalue]
    rw [if_neg (by simp), hlast, bound, Dict.getElem?_insert, if_pos rfl, slots_insert, if_pos rfl]

theorem isStub_rebuilt (hheld : ∀ q ∈ specs, ∃ value, table.held q = some value) :
    (table.rebuilt name specs).isStub name = false := by
  rw [isStub, getElem?_rebuilt hnames hheld]
  by_cases hnil : specs = []
  · simp [hnil]
  · simp [hnil, Entry.isStub]

end Names

/-- Where only one name differs, there is no difference once it is erased. -/
theorem erase_congr {table' : SymbolTable}
    (hothers : ∀ other, other ≠ name → table'[other]? = table[other]?) :
    table'.erase name = table.erase name := by
  apply Std.ExtTreeMap.ext_getElem?
  intro other
  rw [Dict.getElem?_erase, Dict.getElem?_erase]
  by_cases hother : other = name
  · rw [if_pos hother, if_pos hother]
  · rw [if_neg hother, if_neg hother, hothers other hother]

/-- What is rebuilt depends on the other names and on what the specs hold. -/
theorem rebuilt_congr {table' : SymbolTable}
    (hothers : ∀ other, other ≠ name → table'[other]? = table[other]?)
    (hheld : ∀ q ∈ specs, table'.held q = table.held q) :
    table'.rebuilt name specs = table.rebuilt name specs := by
  rw [rebuilt, rebuilt, erase_congr hothers, List.filterMap_congr fun q hq => by rw [hheld q hq]]

/-! ### Tables without what a spec addresses -/

section Without

variable {spec : Spec} (hstub : table.isStub spec.name = false)
include hstub

theorem isStub_without : (table.without spec).isStub spec.name = false :=
  isStub_rebuilt (fun _ => name_of_mem_siblingsOf) fun _ => held_of_mem_siblingsOf hstub

omit hstub in
/-- Without what a spec addresses, the slots of its name hold what counts among its siblings. -/
theorem held_without (p : Spec) :
    (table.without spec).held p =
      if p.name = spec.name then
        if p.kind ≠ spec.kind ∧ table.has p = true then table.held p else none
      else table.held p := by
  rw [without, held_rebuilt fun _ => name_of_mem_siblingsOf]
  by_cases hname : p.name = spec.name
  · simp only [hname, mem_siblingsOf, if_pos, true_and]
  · rw [if_neg hname, if_neg hname]

/-- Without what a spec addresses, all else counts that counted, and nothing more. -/
theorem has_without (p : Spec) : (table.without spec).has p = (table.has p && p != spec) := by
  by_cases hname : p.name = spec.name
  · have hspec : p ≠ spec ↔ p.kind ≠ spec.kind := by
      refine not_congr ⟨fun heq => heq ▸ rfl, fun hkind => ?_⟩
      cases p
      cases spec
      simp_all
    apply Bool.eq_iff_iff.mpr
    rw [has_iff_held _ (hname ▸ isStub_without hstub), held_without, if_pos hname,
      Bool.and_eq_true, bne_iff_ne, hspec]
    by_cases hkept : p.kind ≠ spec.kind ∧ table.has p = true
    · rw [if_pos hkept]
      exact iff_of_true ((table.has_iff_held (hname ▸ hstub)).mp hkept.2) hkept.symm
    · rw [if_neg hkept]
      exact iff_of_false (by simp) fun hboth => hkept hboth.symm
  · have hspec : p ≠ spec := fun heq => hname (heq ▸ rfl)
    rw [bne_iff_ne.mpr hspec, Bool.and_true, has, without,
      getElem?_rebuilt_of_ne (fun _ => name_of_mem_siblingsOf) hname]
    rfl

/-- Without siblings that count, the name is unbound. -/
theorem getElem?_without_of_alone
    (halone : ∀ kind, kind ≠ spec.kind → table.has ⟨spec.name, kind⟩ = false) :
    (table.without spec)[spec.name]? = none := by
  have hnil : table.siblingsOf spec = [] := by
    refine List.eq_nil_iff_forall_not_mem.mpr fun p hmem => ?_
    obtain ⟨hname, hkind, hhas⟩ := table.mem_siblingsOf.mp hmem
    have hnot := halone p.kind hkind
    rw [← hname, hhas] at hnot
    cases hnot
  have hentry := getElem?_rebuilt (fun _ => name_of_mem_siblingsOf)
    fun _ => held_of_mem_siblingsOf hstub
  rwa [if_pos hnil] at hentry

/-- With a sibling that counts, the name has slots, and those that count are filled. -/
theorem getElem?_without_of_sibling {sibling : Kind} (hsibling : sibling ≠ spec.kind)
    (hhas : table.has ⟨spec.name, sibling⟩ = true) :
    ∃ slots, (table.without spec)[spec.name]? = some (.bindings slots) ∧
      (∀ kind, slots.contains kind = true ↔
        kind ≠ spec.kind ∧ table.has ⟨spec.name, kind⟩ = true) ∧
      ∀ kind value, slots.get kind = some value → table.held ⟨spec.name, kind⟩ = some value := by
  have hmem : (⟨spec.name, sibling⟩ : Spec) ∈ table.siblingsOf spec :=
    table.mem_siblingsOf.mpr ⟨rfl, hsibling, hhas⟩
  have hentry := getElem?_rebuilt (fun _ => name_of_mem_siblingsOf)
    fun _ => held_of_mem_siblingsOf hstub
  rw [if_neg (List.ne_nil_of_mem hmem)] at hentry
  have hslots (kind : Kind) : ((table.without spec).slots spec.name).get kind
      = if kind ≠ spec.kind ∧ table.has ⟨spec.name, kind⟩ = true
        then table.held ⟨spec.name, kind⟩ else none := by
    show (table.without spec).held ⟨spec.name, kind⟩ = _
    rw [held_without, if_pos rfl]
  refine ⟨(table.without spec).slots spec.name, hentry, ?_, ?_⟩
  · intro kind
    rw [Slots.contains, hslots]
    by_cases hkept : kind ≠ spec.kind ∧ table.has ⟨spec.name, kind⟩ = true
    · obtain ⟨value, hheld, -⟩ :=
        (@has_iff_held table ⟨spec.name, kind⟩ hstub).mp hkept.2
      rw [if_pos hkept, hheld]
      exact iff_of_true rfl hkept
    · rw [if_neg hkept]
      exact iff_of_false (by simp) hkept
  · intro kind value hvalue
    rw [hslots] at hvalue
    split at hvalue
    · exact hvalue
    · cases hvalue

/-- What is taken away once is taken away. -/
theorem without_without : (table.without spec).without spec = table.without spec := by
  have hsame : (table.without spec).siblingsOf spec = table.siblingsOf spec := by
    refine siblingsOf_congr fun p hname hkind => ?_
    have hspec : p ≠ spec := fun heq => hkind (heq ▸ rfl)
    rw [has_without hstub, bne_iff_ne.mpr hspec, Bool.and_true]
  show (table.without spec).rebuilt spec.name ((table.without spec).siblingsOf spec) = _
  rw [hsame]
  refine rebuilt_congr ?_ ?_
  · intro other hother
    exact getElem?_rebuilt_of_ne (fun _ => name_of_mem_siblingsOf) hother
  · intro q hq
    obtain ⟨hname, hkind, hhas⟩ := table.mem_siblingsOf.mp hq
    rw [held_without, if_pos hname, if_pos ⟨hkind, hhas⟩]

end Without

end SymbolTable

/-! ### What a removal leaves -/

namespace Scope

variable (s : Scope)

theorem qualify_place (spec : Spec) (given? : Option Value) (origin : Origin) (name : String) :
    (s.place spec given? origin).qualify name = s.qualify name := by
  rw [qualify, space_place]
  rfl

theorem qualify_emptied (spec : Spec) (name : String) :
    (s.emptied spec).qualify name = s.qualify name := by
  obtain ⟨heap, hheap⟩ := s.readAll_scope (s.table.readings (s.table.siblingsOf spec))
  show Bindery.qualify (s.keep spec).2.space.ident name = _
  rw [keep, hheap]
  rfl

/-- Bindings are made again up to the first that does not fit. -/
theorem renew_misfit {before later : List (Spec × Value)} {name : String} {kind : Kind}
    {value : Value} (hfits : ∀ pair ∈ before, pair.2.fits pair.1.kind = true)
    (hmisfit : value.fits kind = false) :
    ∃ t, s.renew (before ++ (⟨name, kind⟩, value) :: later)
        = .error (.typeMismatch (s.qualify name) kind value.typeName) t ∧
      t.table = s.table.boundAll before := by
  induction before generalizing s with
  | nil =>
      refine ⟨s, ?_, rfl⟩
      show s.renew ((⟨name, kind⟩, value) :: later) = _
      rw [renew, if_neg (by simp [hmisfit])]
  | cons pair rest ih =>
      obtain ⟨t, ht, htable⟩ := ih (s.place pair.1 (some pair.2) .renewal)
        fun q hq => hfits q (by simp [hq])
      refine ⟨t, ?_, ?_⟩
      · rw [List.cons_append, renew, if_pos (hfits pair (by simp)), ht, qualify_place]
      · rw [htable, table_place]
        rfl

variable {s} {text : String} {spec : Spec}

/-- Of a name without a stub a removal keeps what the slots of the siblings hold. -/
theorem keep_of_no_stub (hstub : s.table.isStub spec.name = false) :
    s.keep spec
      = ((s.table.siblingsOf spec).filterMap fun q => (s.table.held q).map (q, ·), s) := by
  unfold keep
  rw [← readAll_held]
  congr 1
  unfold SymbolTable.readings
  rw [List.map_filterMap]
  refine List.filterMap_congr fun q hq => ?_
  rw [s.table.reading?_eq_held (SymbolTable.name_of_mem_siblingsOf hq ▸ hstub), Option.map_map,
    Option.map_map]
  rfl

/-- **If all siblings fit, a removal leaves the table without what its spec addresses.** -/
theorem remove_of_fits (hp : Spec.parse text = .ok spec)
    (hstub : s.table.isStub spec.name = false) (hfits : s.table.SiblingsFit spec) :
    Step.result ⟨s, .remove text⟩ = .ok .done ∧
      (Step.after ⟨s, .remove text⟩).table = s.table.without spec := by
  have hkept : ∀ pair ∈ (s.keep spec).1, pair.2.fits pair.1.kind = true := by
    rw [keep_of_no_stub hstub]
    exact SymbolTable.pairs_fit hfits.of_mem
  obtain ⟨hdone, htable⟩ := remove_of_kept_fits hp hkept
  refine ⟨hdone, ?_⟩
  rw [htable, keep_of_no_stub hstub]
  rfl

/-- **A removal stops at the first sibling that does not fit**, and leaves those before it. -/
theorem remove_of_misfit (hp : Spec.parse text = .ok spec) {kind : Kind} {value : Value}
    (hfirst : s.table.FirstMisfit spec kind value) :
    Step.result ⟨s, .remove text⟩
        = .error (.typeMismatch (s.qualify spec.name) kind value.typeName) ∧
      (Step.after ⟨s, .remove text⟩).table = s.table.rebuilt spec.name
        ((s.table.siblingsOf spec).filter fun q => q.kind.index < kind.index) := by
  have hstub : s.table.isStub spec.name = false :=
    SymbolTable.isStub_of_held hfirst.held
  have hcounts : s.table.has ⟨spec.name, kind⟩ = true :=
    SymbolTable.has_of_misfit hfirst.held hfirst.misfit
  have hmem : (⟨spec.name, kind⟩ : Spec) ∈ s.table.siblingsOf spec :=
    s.table.mem_siblingsOf.mpr ⟨rfl, hfirst.sibling, hcounts⟩
  obtain ⟨later, hparted⟩ := SymbolTable.siblingsOf_parted hmem
  have hkeep : (s.keep spec).1
      = (((s.table.siblingsOf spec).filter fun q => q.kind.index < kind.index).filterMap
          fun q => (s.table.held q).map (q, ·))
        ++ (⟨spec.name, kind⟩, value) :: later.filterMap fun q => (s.table.held q).map (q, ·) := by
    rw [keep_of_no_stub hstub]
    conv => lhs; rw [hparted]
    rw [List.filterMap_append, List.filterMap_cons_some (by rw [hfirst.held]; rfl)]
  have hfits : ∀ q ∈ (s.table.siblingsOf spec).filter fun q => q.kind.index < kind.index,
      ∀ v, s.table.held q = some v → v.fits q.kind = true := by
    intro q hq v hv
    obtain ⟨hsibling, hlt⟩ := List.mem_filter.mp hq
    obtain ⟨hname, hkind, -⟩ := s.table.mem_siblingsOf.mp hsibling
    exact hfirst.first q.kind v hkind (of_decide_eq_true hlt) (by rw [← hname]; exact hv)
  obtain ⟨t, ht, htable⟩ := (s.emptied spec).renew_misfit (SymbolTable.pairs_fit hfits)
    hfirst.misfit
  have hrun : (Scope.remove text).run s
      = .error (.typeMismatch (s.qualify spec.name) kind value.typeName) t := by
    rw [remove_run, hp]
    show (s.emptied spec).renew (s.keep spec).1 = _
    rw [hkeep, ht, qualify_emptied]
  rw [Step.result_remove, Step.after_remove, hrun]
  refine ⟨rfl, ?_⟩
  show t.table = _
  rw [htable, table_emptied]
  rfl

end Scope

end Bindery
