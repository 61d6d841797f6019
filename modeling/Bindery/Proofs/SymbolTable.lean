/-
A table seen slot by slot.

`held` is what a slot holds, and holds nothing where the name is unbound or has a
stub.  Together with which names have a stub it says all that reading a table can
tell, so what binding and erasing do is said of these two.

`bound` is the table after a name is bound: the one change that every way of binding
comes down to.  A value fills one slot and no other, and makes a stub give way;
without a value the name is only given an entry, if it has none.
-/
import Bindery.Proofs.Dict
import Bindery.SymbolTable

namespace Bindery.SymbolTable

variable (table : SymbolTable)

/-- What the slot holds that a spec addresses. -/
def held (spec : Spec) : Option Value :=
  (table.slots spec.name).get spec.kind

/-- The table after a spec was bound to a value, or declared without one. -/
def bound (spec : Spec) : Option Value → SymbolTable
  | none => if table.contains spec.name then table else table.insert spec.name (.bindings {})
  | some value =>
    table.insert spec.name (.bindings ((table.slots spec.name).set spec.kind value))

/-- The table after several specs were bound to values one after the other. -/
def boundAll (pairs : List (Spec × Value)) : SymbolTable :=
  pairs.foldl (fun table pair => table.bound pair.1 (some pair.2)) table

/-! ### Slots after a change -/

theorem slots_insert (name : String) (slots : Slots) (other : String) :
    SymbolTable.slots (table.insert name (.bindings slots)) other
      = if other = name then slots else table.slots other := by
  unfold SymbolTable.slots
  rw [Dict.getElem?_insert]
  split
  · rfl
  · rfl

theorem isStub_insert (name : String) (slots : Slots) (other : String) :
    SymbolTable.isStub (table.insert name (.bindings slots)) other
      = if other = name then false else table.isStub other := by
  unfold isStub
  rw [Dict.getElem?_insert]
  split
  · rfl
  · rfl

/-- Nothing is held under a name that is unbound. -/
theorem slots_eq_of_unbound {name : String} (h : table.contains name = false) :
    table.slots name = {} := by
  rw [Dict.contains_eq, Option.isSome_eq_false_iff, Option.isNone_iff_eq_none] at h
  simp [SymbolTable.slots, h]

/-- Nothing is held under a name that has a stub. -/
theorem slots_eq_of_isStub {name : String} (h : table.isStub name = true) :
    table.slots name = {} := by
  obtain ⟨entry, he, hs⟩ := (Option.any_eq_true _ _).mp h
  cases entry with
  | bindings slots => simp [Entry.isStub] at hs
  | stub raw => simp [SymbolTable.slots, he, Entry.slots?]

/-- A name with a stub is not changed by a declaration. -/
theorem bound_none_of_isStub {spec : Spec} (h : table.isStub spec.name = true) :
    table.bound spec none = table := by
  obtain ⟨entry, he, -⟩ := (Option.any_eq_true _ _).mp h
  rw [bound, if_pos]
  rw [Dict.contains_eq, he]
  rfl

/-- Tables that agree apart from one name agree once that name has an entry. -/
theorem insert_eq_of_agree {table table' : SymbolTable} {name : String}
    (h : ∀ other, other ≠ name → table'[other]? = table[other]?) (entry : Entry) :
    table'.insert name entry = table.insert name entry := by
  apply Std.ExtTreeMap.ext_getElem?
  intro other
  rw [Dict.getElem?_insert, Dict.getElem?_insert]
  split
  · rfl
  · rename_i hne
    exact h other hne

/-- A table in which a name without a stub got the slots it had is one where it was declared. -/
theorem eq_bound_none {table table' : SymbolTable} {spec : Spec}
    (hname : table'[spec.name]? = some (.bindings (table.slots spec.name)))
    (hother : ∀ other, other ≠ spec.name → table'[other]? = table[other]?)
    (hstub : table.isStub spec.name = false) : table' = table.bound spec none := by
  apply Std.ExtTreeMap.ext_getElem?
  intro other
  rw [bound]
  by_cases hne : other = spec.name
  · subst hne
    rw [hname]
    cases he : table[spec.name]? with
    | none =>
        have hc : table.contains spec.name = false := by rw [Dict.contains_eq, he]; rfl
        rw [hc, if_neg Bool.false_ne_true, Dict.getElem?_insert, if_pos rfl,
          slots_eq_of_unbound table hc]
    | some entry =>
        have hc : table.contains spec.name = true := by rw [Dict.contains_eq, he]; rfl
        rw [hc, if_pos rfl, he]
        cases entry with
        | bindings slots => simp [SymbolTable.slots, he, Entry.slots?]
        | stub raw => simp [isStub, he, Entry.isStub] at hstub
  · rw [hother other hne]
    split
    · rfl
    · rw [Dict.getElem?_insert, if_neg hne]

/-- A value fills the slot it is bound to, and the others hold what they held. -/
theorem held_bound_some (spec : Spec) (value : Value) (p : Spec) :
    (table.bound spec (some value)).held p = if p = spec then some value else table.held p := by
  unfold held bound
  rw [slots_insert]
  by_cases hn : p.name = spec.name
  · rw [if_pos hn, Slots.get_set, ← hn]
    by_cases hk : p.kind = spec.kind
    · rw [if_pos hk, if_pos (by cases p; cases spec; simp_all)]
    · rw [if_neg hk, if_neg (fun h => hk (congrArg Spec.kind h))]
  · rw [if_neg hn, if_neg (fun h => hn (congrArg Spec.name h))]

/-- To declare a name fills no slot and empties none. -/
theorem held_bound_none (spec p : Spec) : (table.bound spec none).held p = table.held p := by
  unfold held
  rw [bound]
  split
  · rfl
  · rename_i h
    rw [slots_insert]
    split
    · rename_i hn
      rw [hn, slots_eq_of_unbound table (Bool.eq_false_iff.mpr h)]
    · rfl

/--
Where each spec of a list is bound to the value that `value?` gives for it, the slots
of those specs hold these values, and the others what they held.
-/
theorem held_boundAll (specs : List Spec) (value? : Spec → Option Value) (p : Spec) :
    (table.boundAll (specs.filterMap fun q => (value? q).map (q, ·))).held p
      = if p ∈ specs then (value? p).or (table.held p) else table.held p := by
  induction specs generalizing table with
  | nil => rfl
  | cons q rest ih =>
      cases hv : value? q with
      | none =>
          rw [List.filterMap_cons_none (by simp [hv]), ih]
          by_cases hp : p = q
          · simp [hp, hv]
          · simp [hp]
      | some value =>
          rw [List.filterMap_cons_some (b := (q, value)) (by simp [hv])]
          show (boundAll (table.bound q (some value)) _).held p = _
          rw [ih, held_bound_some]
          by_cases hp : p = q
          · simp [hp, hv]
          · simp [hp]

theorem isStub_bound_some (spec : Spec) (value : Value) (name : String) :
    (table.bound spec (some value)).isStub name
      = if name = spec.name then false else table.isStub name :=
  isStub_insert table spec.name _ name

theorem isStub_bound_none (spec : Spec) (name : String) :
    (table.bound spec none).isStub name = table.isStub name := by
  rw [bound]
  split
  · rfl
  · rename_i h
    rw [isStub_insert]
    split
    · rename_i hn
      rw [Dict.contains_eq, Option.not_isSome_iff_eq_none] at h
      simp [isStub, hn, h]
    · rfl

theorem held_erase (name : String) (p : Spec) :
    SymbolTable.held (table.erase name) p = if p.name = name then none else table.held p := by
  unfold held SymbolTable.slots
  rw [Dict.getElem?_erase]
  split
  · simp
  · rfl

theorem isStub_erase (name other : String) :
    SymbolTable.isStub (table.erase name) other
      = if other = name then false else table.isStub other := by
  unfold isStub
  rw [Dict.getElem?_erase]
  split
  · rfl
  · rfl

/-! ### Entries after a change -/

/-- To bind a name leaves the entries of the others. -/
theorem getElem?_bound_of_ne {spec : Spec} {name : String} (hne : name ≠ spec.name)
    (value? : Option Value) : (table.bound spec value?)[name]? = table[name]? := by
  cases value? with
  | none =>
      rw [bound]
      by_cases hbound : table.contains spec.name = true
      · rw [if_pos hbound]
      · rw [if_neg hbound, Dict.getElem?_insert, if_neg hne]
  | some value => rw [bound, Dict.getElem?_insert, if_neg hne]

/-- To bind a name makes no stub. -/
theorem stub_of_bound {spec : Spec} {value? : Option Value} {name : String} {raw : Value}
    (hstub : (table.bound spec value?)[name]? = some (.stub raw)) :
    table[name]? = some (.stub raw) := by
  by_cases hname : name = spec.name
  · cases value? with
    | none =>
        rw [bound] at hstub
        by_cases hbound : table.contains spec.name = true
        · rwa [if_pos hbound] at hstub
        · rw [if_neg hbound, Dict.getElem?_insert, if_pos hname] at hstub
          cases hstub
    | some value =>
        rw [bound, Dict.getElem?_insert, if_pos hname] at hstub
        cases hstub
  · rwa [getElem?_bound_of_ne table hname] at hstub

/-- To erase a name makes no stub. -/
theorem stub_of_erase {erased name : String} {raw : Value}
    (hstub : (table.erase erased)[name]? = some (.stub raw)) : table[name]? = some (.stub raw) := by
  rw [Dict.getElem?_erase] at hstub
  by_cases hname : name = erased
  · rw [if_pos hname] at hstub
    cases hstub
  · rwa [if_neg hname] at hstub

/-! ### What is read from a table -/

/-- Of a name without a stub, what is read is what is held. -/
theorem reading?_eq_held {spec : Spec} (h : table.isStub spec.name = false) :
    table.reading? spec = (table.held spec).map .held := by
  unfold reading? held SymbolTable.slots
  unfold isStub at h
  cases he : table[spec.name]? with
  | none => simp
  | some entry =>
      cases entry with
      | bindings slots => rfl
      | stub raw => simp [he, Entry.isStub] at h

/-- Of a name with a stub, only the callable is read. -/
theorem reading?_of_stub {spec : Spec} {raw : Value} (h : table[spec.name]? = some (.stub raw)) :
    table.reading? spec = if spec.kind = .callable then some (.declared raw) else none := by
  simp [reading?, h, Entry.reading?]

/-- Of a name with a stub, only the callable counts. -/
theorem has_of_stub {spec : Spec} {raw : Value} (h : table[spec.name]? = some (.stub raw)) :
    table.has spec = (spec.kind == .callable) := by
  simp [has, h, Entry.has]

/-- Of a name without a stub, what counts is what is held and, for a scalar, defined. -/
theorem has_iff_held {spec : Spec} (h : table.isStub spec.name = false) :
    table.has spec = true ↔
      ∃ value, table.held spec = some value ∧ (spec.kind = .scalar → value.isDefined = true) := by
  unfold has held SymbolTable.slots
  unfold isStub at h
  cases he : table[spec.name]? with
  | none => simp
  | some entry =>
      cases entry with
      | bindings slots => simpa [Entry.has, Entry.slots?] using Slots.hasDefined_iff
      | stub raw => simp [he, Entry.isStub] at h

/-- What is found of some specs is found of one of them. -/
theorem mem_of_mem_readings {specs : List Spec} {pair : Spec × Reading}
    (hpair : pair ∈ table.readings specs) : pair.1 ∈ specs := by
  obtain ⟨spec, hmem, hspec⟩ := List.mem_filterMap.mp hpair
  obtain ⟨reading, -, rfl⟩ := Option.map_eq_some_iff.mp hspec
  exact hmem

theorem reading?_of_mem_readings {specs : List Spec} {pair : Spec × Reading}
    (hpair : pair ∈ table.readings specs) : table.reading? pair.1 = some pair.2 := by
  obtain ⟨spec, -, hspec⟩ := List.mem_filterMap.mp hpair
  obtain ⟨reading, hreading, rfl⟩ := Option.map_eq_some_iff.mp hspec
  exact hreading

/-- What is found is what a slot holds, or what a stub declares. -/
theorem reading?_eq_some {spec : Spec} {reading : Reading} (h : table.reading? spec = some reading) :
    (∃ slots value, table[spec.name]? = some (.bindings slots) ∧
      slots.get spec.kind = some value ∧ reading = .held value) ∨
    ∃ raw, table[spec.name]? = some (.stub raw) ∧ spec.kind = .callable ∧
      reading = .declared raw := by
  obtain ⟨entry, hentry, hreading⟩ := Option.bind_eq_some_iff.mp h
  cases entry with
  | bindings slots =>
      obtain ⟨value, hvalue, rfl⟩ := Option.map_eq_some_iff.mp hreading
      exact Or.inl ⟨slots, value, hentry, hvalue, rfl⟩
  | stub raw =>
      by_cases hkind : spec.kind = .callable
      · obtain rfl : .declared raw = reading := by simpa [Entry.reading?, hkind] using hreading
        exact Or.inr ⟨raw, hentry, hkind, rfl⟩
      · simp [Entry.reading?, hkind] at hreading

/-- The siblings of a spec address the other bindings of its name that count. -/
theorem mem_siblingsOf {spec p : Spec} :
    p ∈ table.siblingsOf spec ↔
      p.name = spec.name ∧ p.kind ≠ spec.kind ∧ table.has p = true := by
  unfold siblingsOf
  rw [List.mem_filter, List.mem_map]
  constructor
  · intro hsibling
    obtain ⟨⟨kind, hkind, rfl⟩, hhas⟩ := hsibling
    exact ⟨rfl, Kind.mem_siblings.mp hkind, hhas⟩
  · intro hsibling
    obtain ⟨hname, hkind, hhas⟩ := hsibling
    exact ⟨⟨p.kind, Kind.mem_siblings.mpr hkind, by rw [← hname]⟩, hhas⟩

end Bindery.SymbolTable
