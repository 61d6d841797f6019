/-
What is asked of one name leaves the others alone.

An operation is asked of the name in its spec, of a name alone, or of no name at all.
The table gives every other name the entry it had, whatever comes of the operation: a
removal that stops halfway has still only bound its own name again.  What only reads
leaves the whole table as it is.
-/
import Bindery.Proofs.Namespace.Run

namespace Bindery

namespace Operation

variable {V : Type}

/-- Whether an operation only reads. -/
def isRead : Operation V → Bool
  | has _ | find _ | names _ | bindings _ => true
  | _ => false

/-- The text by which an operation addresses a binding, if it addresses one. -/
def address? : Operation V → Option String
  | add text _ _ | has text | find text | vivify text | remove text => some text
  | removeAll _ | names _ | bindings _ => none

/-- The name that an operation is asked of, if its spec reads and it is asked of one. -/
def name? : Operation V → Option String
  | add text _ _ | has text | find text | vivify text | remove text =>
    (Spec.parse text).toOption.map Spec.name
  | removeAll name => some name
  | names _ | bindings _ => none

end Operation

namespace Scope

variable {s : Scope}

/-! ### The table after an operation -/

theorem table_after_read {operation : Operation Value} (hread : operation.isRead = true) :
    (Step.after ⟨s, operation⟩).table = s.table := by
  cases operation with
  | has text =>
      rw [Step.after_has, has_run]
      cases Spec.parse text <;> rfl
  | find text =>
      rw [Step.after_find, find_run]
      cases Spec.parse text with
      | error e => rfl
      | ok spec =>
          obtain ⟨heap, hheap⟩ := s.lookup_scope spec
          show (s.lookup spec).2.table = s.table
          rw [hheap]
          rfl
  | names kind? => rfl
  | bindings kind =>
      obtain ⟨heap, hheap⟩ := s.readAll_scope (s.table.readings (s.table.specsOf kind))
      show (s.readAll (s.table.readings (s.table.specsOf kind))).2.table = s.table
      rw [hheap]
      rfl
  | _ => cases hread

/-- A removal that has taken the entry away has changed nothing else in the table. -/
theorem table_emptied (spec : Spec) : (s.emptied spec).table = s.table.erase spec.name := by
  obtain ⟨heap, hheap⟩ := s.readAll_scope (s.table.readings (s.table.siblingsOf spec))
  show (s.readAll (s.table.readings (s.table.siblingsOf spec))).2.table.erase spec.name = _
  rw [hheap]
  rfl

/-- A removal whose siblings fit as they are read succeeds, and binds them all again. -/
theorem remove_of_kept_fits {text : String} {spec : Spec} (hp : Spec.parse text = .ok spec)
    (hkept : ∀ pair ∈ (s.keep spec).1, pair.2.fits pair.1.kind = true) :
    Step.result ⟨s, .remove text⟩ = .ok .done ∧
      (Step.after ⟨s, .remove text⟩).table
        = SymbolTable.boundAll (s.table.erase spec.name) (s.keep spec).1 := by
  obtain ⟨t, ht, htable⟩ := (s.emptied spec).renew_ok hkept
  rw [Step.result_remove, Step.after_remove, remove_run, hp]
  simp only [ht]
  refine ⟨rfl, ?_⟩
  show t.table = _
  rw [htable, table_emptied]

/-- A vivifying read that finds nothing binds the empty value and answers it. -/
theorem vivify_binds {text : String} {spec : Spec} {value : Value}
    (hp : Spec.parse text = .ok spec) (habsent : s.table.reading? spec = none)
    (hmade : (s.newEmpty spec.kind).1 = some value) :
    Step.result ⟨s, .vivify text⟩ = .ok (.value (some value)) ∧
      (Step.after ⟨s, .vivify text⟩).table = s.table.bound spec (some value) := by
  rw [Step.result_vivify, Step.after_vivify, s.vivify_run_absent hp habsent hmade]
  refine ⟨rfl, ?_⟩
  show ((s.vivifying spec).place spec (some value) (.caller {})).table = _
  rw [table_place, valueFor_some]
  rfl

/-! ### Other names -/

theorem getElem?_bind_of_ne {spec : Spec} {name : String} (hne : name ≠ spec.name)
    (value? : Option Value) (origin : Origin) :
    (left ((Scope.bind spec value? origin).run s)).table[name]? = s.table[name]? := by
  by_cases hfit : ∀ v, value? = some v → v.fits spec.kind = true
  · rw [bind_run _ _ hfit]
    show (s.place spec value? origin).table[name]? = _
    rw [table_place, SymbolTable.getElem?_bound_of_ne _ hne]
  · obtain ⟨e, he⟩ := s.bind_refused origin hfit
    rw [he]
    rfl

theorem getElem?_renew_of_ne {name : String} {pairs : List (Spec × Value)}
    (hne : ∀ pair ∈ pairs, name ≠ pair.1.name) :
    (left (s.renew pairs)).table[name]? = s.table[name]? := by
  induction pairs generalizing s with
  | nil => rfl
  | cons pair rest ih =>
      rw [renew]
      by_cases hfit : pair.2.fits pair.1.kind = true
      · rw [if_pos hfit, ih fun q hq => hne q (by simp [hq]), table_place,
          SymbolTable.getElem?_bound_of_ne _ (hne pair (by simp))]
      · rw [if_neg hfit]
        rfl

theorem getElem?_remove_of_ne {text name : String} {spec : Spec} (hp : Spec.parse text = .ok spec)
    (hne : name ≠ spec.name) :
    (left ((Scope.remove text).run s)).table[name]? = s.table[name]? := by
  have hsiblings : ∀ pair ∈ (s.keep spec).1, name ≠ pair.1.name := by
    intro pair hpair
    rw [((SymbolTable.mem_siblingsOf _).mp (s.fst_mem_of_readAll hpair)).1]
    exact hne
  rw [remove_run, hp]
  show (left ((s.emptied spec).renew (s.keep spec).1)).table[name]? = _
  rw [getElem?_renew_of_ne hsiblings, table_emptied, Dict.getElem?_erase, if_neg hne]

theorem getElem?_vivify_of_ne {text name : String} {spec : Spec} (hp : Spec.parse text = .ok spec)
    (hne : name ≠ spec.name) :
    (left ((Scope.vivify text).run s)).table[name]? = s.table[name]? := by
  cases hr : s.table.reading? spec with
  | some reading =>
      rw [vivify_run, hp]
      simp only [hr]
      rfl
  | none =>
      cases hmade : (s.newEmpty spec.kind).1 with
      | none =>
          rw [vivify_run, hp]
          simp only [hr, hmade]
          rfl
      | some value =>
          rw [s.vivify_run_absent hp hr hmade]
          show ((s.vivifying spec).place spec (some value) (.caller {})).table[name]? = _
          rw [table_place, SymbolTable.getElem?_bound_of_ne _ hne]
          rfl

theorem parse_of_name {text name : String}
    (h : (Spec.parse text).toOption.map Spec.name = some name) :
    ∃ spec, Spec.parse text = .ok spec ∧ spec.name = name := by
  cases hp : Spec.parse text with
  | error e => simp [hp, Except.toOption] at h
  | ok spec => exact ⟨spec, rfl, by simpa [hp, Except.toOption] using h⟩

theorem parse_of_no_name {text : String} (h : (Spec.parse text).toOption.map Spec.name = none) :
    ∃ e, Spec.parse text = .error e := by
  cases hp : Spec.parse text with
  | error e => exact ⟨e, rfl⟩
  | ok spec => simp [hp, Except.toOption] at h

/-- What is asked of one name leaves the entries of the others, even if it fails halfway. -/
theorem getElem?_after_of_ne {operation : Operation Value} {name other : String}
    (haddressed : operation.name? = some other) (hne : name ≠ other) :
    (Step.after ⟨s, operation⟩).table[name]? = s.table[name]? := by
  cases operation with
  | add text value? hint =>
      obtain ⟨spec, hp, rfl⟩ := parse_of_name haddressed
      rw [Step.after_add, add_run, hp]
      exact getElem?_bind_of_ne hne value? _
  | has text => rw [table_after_read rfl]
  | find text => rw [table_after_read rfl]
  | vivify text =>
      obtain ⟨spec, hp, rfl⟩ := parse_of_name haddressed
      rw [Step.after_vivify]
      exact getElem?_vivify_of_ne hp hne
  | remove text =>
      obtain ⟨spec, hp, rfl⟩ := parse_of_name haddressed
      rw [Step.after_remove]
      exact getElem?_remove_of_ne hp hne
  | removeAll removed =>
      obtain rfl : removed = other := by simpa [Operation.name?] using haddressed
      show (s.table.erase removed)[name]? = _
      rw [Dict.getElem?_erase, if_neg hne]
  | names kind? => cases haddressed
  | bindings kind => cases haddressed

/-- Nothing is done by way of a text that does not read. -/
theorem perform_of_unread {operation : Operation Value} {text : String} {e : BindError}
    (haddress : operation.address? = some text) (hp : Spec.parse text = .error e) :
    operation.perform.run s = .error e s := by
  cases operation with
  | add written value? hint =>
      cases haddress
      rw [Operation.perform, EStateM.run_bind, add_run, hp]
  | has written =>
      cases haddress
      rw [Operation.perform, EStateM.run_bind, has_run, hp]
  | find written =>
      cases haddress
      rw [Operation.perform, EStateM.run_bind, find_run, hp]
  | vivify written =>
      cases haddress
      rw [Operation.perform, EStateM.run_bind, vivify_run, hp]
  | remove written =>
      cases haddress
      rw [Operation.perform, EStateM.run_bind, remove_run, hp]
  | removeAll name => cases haddress
  | names kind? => cases haddress
  | bindings kind => cases haddress

/-- What is asked of no name only reads, or is refused for a text that does not read. -/
theorem read_or_refused_of_no_name {operation : Operation Value} (hnone : operation.name? = none) :
    operation.isRead = true ∨ ∃ e, operation.perform.run s = .error e s := by
  cases operation with
  | add text value? hint =>
      obtain ⟨e, hp⟩ := parse_of_no_name hnone
      exact Or.inr ⟨e, perform_of_unread rfl hp⟩
  | vivify text =>
      obtain ⟨e, hp⟩ := parse_of_no_name hnone
      exact Or.inr ⟨e, perform_of_unread rfl hp⟩
  | remove text =>
      obtain ⟨e, hp⟩ := parse_of_no_name hnone
      exact Or.inr ⟨e, perform_of_unread rfl hp⟩
  | removeAll removed => cases hnone
  | _ => exact Or.inl rfl

/-- What is asked of no name leaves the whole table. -/
theorem table_after_of_no_name {operation : Operation Value} (hnone : operation.name? = none) :
    (Step.after ⟨s, operation⟩).table = s.table := by
  obtain hread | ⟨e, hrefused⟩ := read_or_refused_of_no_name (s := s) hnone
  · exact table_after_read hread
  · show (left (operation.perform.run s)).table = s.table
    rw [hrefused]
    rfl

end Scope

end Bindery
