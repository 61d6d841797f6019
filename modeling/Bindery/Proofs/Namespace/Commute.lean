/-
Requests that do not concern each other can be asked in either order.

Two requests are independent if they are asked of different names, or bind one name as different
kinds.  In either order each gets the same answer, or is refused for the same reason, and the
namespace comes to hold the same.  Only the cells that the two make are numbered otherwise: if
both make a sequence, whichever comes first gets the lower number.  The pairing that undoes this
leaves the cells that were there as they are.

For different names each request is compared with itself, asked before the other and after it:
what it looks at is the same, and only the heap has grown.  For one name under different kinds
this does not help, since each binds over what the other leaves.  But then the cells that are
made are of different sorts, so that nothing is numbered otherwise, and it is the table that has
to be looked at: whether a stub gives way, is kept, or was not there, the slots that are filled
are different ones.
-/
import Bindery.Proofs.Namespace.Emission
import Bindery.Proofs.Namespace.Paired

namespace Bindery

/-! ### Independent requests -/

/-- The name that a request is asked of, if its spec reads and it is asked of one. -/
def Request.name? : Request → Option String
  | .operation asked => asked.name?
  | .edit change => some change.name
  | .replace _ => none

/-- A request is asked of one name, or of none because its spec does not read. -/
def Request.IsOfOne : Request → Prop
  | .operation (.names _) | .operation (.bindings _) | .replace _ => False
  | _ => True

theorem Request.IsOfOne.within {request : Request} (h : request.IsOfOne) :
    request.Within fun name => request.name? = some name := by
  cases request with
  | operation asked =>
      cases asked with
      | names kind? => exact h.elim
      | bindings kind => exact h.elim
      | _ => exact fun name hname => hname
  | edit change => rfl
  | replace table => exact h.elim

/-- Two requests are asked of different names, or bind one name as different kinds. -/
inductive Request.Independent : Request → Request → Prop where
  | names {request request' : Request} (one : request.IsOfOne) (one' : request'.IsOfOne)
      (apart : ∀ name, request.name? = some name → request'.name? ≠ some name) :
      Independent request request'
  | kinds {text text' : String} {spec spec' : Spec} (reads : Spec.parse text = .ok spec)
      (reads' : Spec.parse text' = .ok spec') (name : spec.name = spec'.name)
      (apart : spec.kind ≠ spec'.kind) (value? value?' : Option Value) (hint hint' : RangeHint) :
      Independent (.operation (.add text value? hint)) (.operation (.add text' value?' hint'))

/-! ### The same but for the names of new cells -/

/--
Two scopes that come of one are the same but for the names of the cells made since.  All cells
of the one are paired with all of the other, one to one, the old ones with themselves, and the
tables and the cells hold the same, of paired values.
-/
structure Scope.SameButFor (p : Pairing) (old s t : Scope) : Prop where
  oneToOne : p.OneToOne
  there : ∀ cell i j, p cell i j → i < s.world.heap.count cell ∧ j < t.world.heap.count cell
  old : ∀ cell i, i < old.world.heap.count cell → p cell i i
  all : ∀ cell i, i < s.world.heap.count cell → ∃ j, p cell i j
  all' : ∀ cell j, j < t.world.heap.count cell → ∃ i, p cell i j
  table : Dict.Rel (Entry.Paired p) s.table t.table
  content : ∀ cell i j, p cell i j →
    (s.world.heap.content cell i).Paired p (t.world.heap.content cell j)

/--
Asked in either order, two requests get the same answers or are refused for the same reasons, and
what is left behind is the same but for the names of the cells the two make.
-/
def Request.SameEitherWay (request : Request) (s : Scope) (request' : Request) : Prop :=
  ∃ p : Pairing,
    Scope.SameButFor p s (Asked.after ⟨Asked.after ⟨s, request⟩, request'⟩)
      (Asked.after ⟨Asked.after ⟨s, request'⟩, request⟩) ∧
    Answer.Paired p (Asked.result ⟨s, request⟩)
      (Asked.result ⟨Asked.after ⟨s, request'⟩, request⟩) ∧
    Answer.Paired p (Asked.result ⟨Asked.after ⟨s, request⟩, request'⟩)
      (Asked.result ⟨s, request'⟩)

/--
Two requests commute on a scope.  They come to the same in either order, and if neither of the
two changes a debugger, to the same debuggers and registries.
-/
structure Request.Commute (request : Request) (s : Scope) (request' : Request) : Prop where
  same : request.SameEitherWay s request'
  debugging :
    (Asked.after ⟨s, request⟩).world.debugging.debuggers = s.world.debugging.debuggers →
    (Asked.after ⟨s, request'⟩).world.debugging.debuggers = s.world.debugging.debuggers →
    (Asked.after ⟨Asked.after ⟨s, request⟩, request'⟩).world.debugging
      = (Asked.after ⟨Asked.after ⟨s, request'⟩, request⟩).world.debugging

/-! ### The same request of a namespace that has moved on -/

/-- The cells of a heap are paired with themselves. -/
def Pairing.known (h : Heap) : Pairing := fun cell i j => i = j ∧ i < h.count cell

theorem Value.paired_known {h : Heap} {v : Value} (hhas : h.Has v) : v.Paired (.known h) v :=
  .self fun cell i hi => ⟨rfl, hhas cell i hi⟩

/--
A scope comes of another and has the same under some names.  Cells may have come to be, but no
references, and other names may stand for anything.
-/
structure Scope.Since (on : String → Prop) (s t : Scope) : Prop where
  closed : t.Closed
  extended : s.world.heap.Extends t.world.heap
  refs : t.world.heap.refs = s.world.heap.refs
  ident : t.space.ident = s.space.ident
  table : ∀ name : String, on name → t.table[name]? = s.table[name]?

theorem Scope.Since.refl {on : String → Prop} {s : Scope} (hs : s.Closed) : s.Since on s where
  closed := hs
  extended := .refl _
  refs := rfl
  ident := rfl
  table _ _ := rfl

namespace Asked

variable {s t t' : Scope} {request : Request} {on : String → Prop}

/-- A request leaves a scope that comes of the one before and has the same under other names. -/
theorem since {other : String → Prop} (hs : s.Closed)
    (hgiven : ∀ v, request.Gives v → s.world.heap.Has v) (hwithin : request.Within other)
    (hdisjoint : ∀ name, on name → ¬ other name) : s.Since on (after ⟨s, request⟩) where
  closed := (Asked.closed hs hgiven).1
  extended := Asked.extends ⟨s, request⟩
  refs := (Asked.makes ⟨s, request⟩ hwithin).refs
  ident := by rw [space_after]
  table name hname := getElem?_after ⟨s, request⟩ hwithin (hdisjoint name hname)

/-- What a request makes of two scopes that come of one is the same but for the cells it makes. -/
theorem moved (ht : s.Since on t) (ht' : s.Since on t') (hs : s.Closed)
    (hgiven : ∀ v, request.Gives v → s.world.heap.Has v) (hwithin : request.Within on) :
    (∀ cell, (after ⟨t, request⟩).world.heap.count cell + t'.world.heap.count cell
      = (after ⟨t', request⟩).world.heap.count cell + t.world.heap.count cell) ∧
    Answer.Paired
      ((Pairing.known s.world.heap).during t.world.heap t'.world.heap (after ⟨t, request⟩).world.heap)
      (result ⟨t, request⟩) (result ⟨t', request⟩) ∧
    (after ⟨t, request⟩).table.Paired
      ((Pairing.known s.world.heap).during t.world.heap t'.world.heap (after ⟨t, request⟩).world.heap)
      on (after ⟨t', request⟩).table := by
  have htable : t.table.Paired (.known s.world.heap) on t'.table := by
    intro name hname
    rw [ht.table name hname, ht'.table name hname]
    exact SymbolTable.paired_self (fun v hv => Value.paired_known (hs.table v hv)) name hname
  exact Asked.paired ht.closed ht'.closed (fun v hv => (hgiven v hv).grow ht.extended.toGrows)
    (fun v hv => (hgiven v hv).grow ht'.extended.toGrows) (ht.ident.trans ht'.ident.symm) htable
    (Request.paired_self fun v hv => Value.paired_known (hgiven v hv)) hwithin

/--
The cells that a request of one name makes of two scopes that come of one hold the same, and all
that stands in them was there to begin with.
-/
theorem content_moved (ht : s.Since on t) (ht' : s.Since on t') (hs : s.Closed)
    (hwithin : request.Within on) (hone : ∀ a b, on a → on b → a = b) {cell : Cell} {i j : Nat}
    (hfresh : t.world.heap.count cell ≤ i) (hmade : i < (after ⟨t, request⟩).world.heap.count cell)
    (hfresh' : t'.world.heap.count cell ≤ j) (hmade' : j < (after ⟨t', request⟩).world.heap.count cell) :
    (after ⟨t', request⟩).world.heap.content cell j = (after ⟨t, request⟩).world.heap.content cell i ∧
      ∀ v, ((after ⟨t, request⟩).world.heap.content cell i).Holds v → s.world.heap.Has v := by
  have hdeclares {u : Scope} (hu : s.Since on u) {body : Body} (hbody : u.Declares on body) :
      s.Declares on body := by
    obtain ⟨name, raw, hname, hentry, rfl⟩ := hbody
    refine ⟨name, raw, hname, by rw [← hu.table name hname, hentry], ?_⟩
    rw [Heap.stubBody_congr hu.refs, Scope.qualify, Scope.qualify, hu.ident]
  have hcontent := (Asked.makes ⟨t, request⟩ hwithin).content hfresh hmade
  have hcontent' := (Asked.makes ⟨t', request⟩ hwithin).content hfresh' hmade'
  refine ⟨hcontent'.unique hcontent ?_, fun v hv => ?_⟩
  · intro body body' hbody hbody'
    obtain ⟨name, raw, hname, hentry, rfl⟩ := hdeclares ht' hbody
    obtain ⟨name', raw', hname', hentry', rfl⟩ := hdeclares ht hbody'
    obtain rfl := hone name name' hname hname'
    rw [hentry] at hentry'
    cases hentry'
    rfl
  · obtain ⟨_, _, -, -, hbody⟩ := hdeclares ht (hcontent.declares_of_holds hv)
    exact hs.heap.stubBody hbody.symm

end Asked

/-! ### Different names -/

/--
The cells of two orders.  From a heap `h` one request leads to `h₁` and the other to `h₂`.  What
the first makes comes right after the cells of `h` in the one order, and after those of `h₂` in
the other; what the second makes, after those of `h₁` and after those of `h`.
-/
def Pairing.crossed (h h₁ h₂ : Heap) : Pairing := fun cell i j =>
  (i = j ∧ i < h.count cell) ∨
  (∃ k, i = h.count cell + k ∧ j = h₂.count cell + k ∧ i < h₁.count cell) ∨
  ∃ k, i = h₁.count cell + k ∧ j = h.count cell + k ∧ j < h₂.count cell

namespace Pairing

variable {h h₁ h₂ last : Heap}

theorem oneToOne_crossed (hfirst : ∀ cell, h.count cell ≤ h₁.count cell)
    (hsecond : ∀ cell, h.count cell ≤ h₂.count cell) : OneToOne (crossed h h₁ h₂) where
  left {cell i i' j} hp hp' := by
    have h₁' := hfirst cell
    have h₂' := hsecond cell
    rcases hp with ⟨_, _⟩ | ⟨k, _, _, _⟩ | ⟨k, _, _, _⟩ <;>
      rcases hp' with ⟨_, _⟩ | ⟨k', _, _, _⟩ | ⟨k', _, _, _⟩ <;> omega
  right {cell i j j'} hp hp' := by
    have h₁' := hfirst cell
    have h₂' := hsecond cell
    rcases hp with ⟨_, _⟩ | ⟨k, _, _, _⟩ | ⟨k, _, _, _⟩ <;>
      rcases hp' with ⟨_, _⟩ | ⟨k', _, _, _⟩ | ⟨k', _, _, _⟩ <;> omega

/-- All the cells that there are in the end are paired, in either order. -/
theorem crossed_iff_there (hfirst : ∀ cell, h.count cell ≤ h₁.count cell)
    (hsecond : ∀ cell, h.count cell ≤ h₂.count cell) {cell : Cell} {count : Nat}
    (hcount : count + h.count cell = h₁.count cell + h₂.count cell) (i : Nat) :
    ((∃ j, crossed h h₁ h₂ cell i j) ↔ i < count) ∧ ((∃ j, crossed h h₁ h₂ cell j i) ↔ i < count) := by
  have h₁' := hfirst cell
  have h₂' := hsecond cell
  refine ⟨⟨?_, fun hi => ?_⟩, ⟨?_, fun hi => ?_⟩⟩
  · rintro ⟨j, ⟨_, _⟩ | ⟨k, _, _, _⟩ | ⟨k, _, _, _⟩⟩ <;> omega
  · by_cases hold : i < h.count cell
    · exact ⟨i, Or.inl ⟨rfl, hold⟩⟩
    · by_cases hmade : i < h₁.count cell
      · exact ⟨h₂.count cell + (i - h.count cell), Or.inr (Or.inl ⟨i - h.count cell, by omega, rfl, hmade⟩)⟩
      · exact ⟨h.count cell + (i - h₁.count cell),
          Or.inr (Or.inr ⟨i - h₁.count cell, by omega, rfl, by omega⟩)⟩
  · rintro ⟨j, ⟨_, _⟩ | ⟨k, _, _, _⟩ | ⟨k, _, _, _⟩⟩ <;> omega
  · by_cases hold : i < h.count cell
    · exact ⟨i, Or.inl ⟨rfl, hold⟩⟩
    · by_cases hmade : i < h₂.count cell
      · exact ⟨h₁.count cell + (i - h.count cell), Or.inr (Or.inr ⟨i - h.count cell, rfl, by omega, hmade⟩)⟩
      · exact ⟨h.count cell + (i - h₂.count cell),
          Or.inr (Or.inl ⟨i - h₂.count cell, rfl, by omega, by omega⟩)⟩

/-- The cells that the first request makes in either order are paired. -/
theorem crossed_of_first {cell : Cell} {i j : Nat}
    (hpair : (Pairing.known h).during h h₂ h₁ cell i j) : crossed h h₁ h₂ cell i j := by
  rcases hpair with hold | hmade
  · exact Or.inl hold
  · exact Or.inr (Or.inl hmade)

/-- The cells that the second request makes in either order are paired. -/
theorem crossed_of_second {cell : Cell} {i j : Nat}
    (hcount : last.count cell + h.count cell = h₂.count cell + h₁.count cell)
    (hpair : (Pairing.known h).during h₁ h last cell i j) : crossed h h₁ h₂ cell i j := by
  rcases hpair with hold | ⟨k, hi, hj, hlt⟩
  · exact Or.inl hold
  · exact Or.inr (Or.inr ⟨k, hi, hj, by omega⟩)

end Pairing

/-- **Requests of different names commute**, but for the names of the cells they make. -/
theorem Request.same_of_names {s : Scope} (hs : s.Closed) {request request' : Request}
    (hgiven : ∀ v, request.Gives v → s.world.heap.Has v)
    (hgiven' : ∀ v, request'.Gives v → s.world.heap.Has v) (one : request.IsOfOne)
    (one' : request'.IsOfOne)
    (apart : ∀ name, request.name? = some name → request'.name? ≠ some name) :
    request.SameEitherWay s request' := by
  have hunique {asked : Request} (a b : String) (ha : asked.name? = some a)
      (hb : asked.name? = some b) : a = b :=
    Option.some.inj (ha.symm.trans hb)
  have hfirst : s.Since (fun name => request'.name? = some name) (Asked.after ⟨s, request⟩) :=
    Asked.since hs hgiven one.within fun name h' h => apart name h h'
  have hsecond : s.Since (fun name => request.name? = some name) (Asked.after ⟨s, request'⟩) :=
    Asked.since hs hgiven' one'.within apart
  have hlast := Asked.extends ⟨Asked.after ⟨s, request⟩, request'⟩
  have hlast' := Asked.extends ⟨Asked.after ⟨s, request'⟩, request⟩
  obtain ⟨hcount, hanswer, htable⟩ := Asked.moved (.refl hs) hsecond hs hgiven one.within
  obtain ⟨hcount', hanswer', htable'⟩ := Asked.moved hfirst (.refl hs) hs hgiven' one'.within
  have hone := hfirst.extended.count
  have hother := hsecond.extended.count
  let p := Pairing.crossed s.world.heap (Asked.after ⟨s, request⟩).world.heap
    (Asked.after ⟨s, request'⟩).world.heap
  have hself {v : Value} (hv : s.world.heap.Has v) : v.Paired p v :=
    .self fun cell i hi => Or.inl ⟨rfl, hv cell i hi⟩
  refine ⟨p, ⟨Pairing.oneToOne_crossed hone hother, ?_, ?_, ?_, ?_, ?_, ?_⟩, ?_, ?_⟩
  · intro cell i j hpair
    have hcells := hcount cell
    have hcells' := hcount' cell
    exact ⟨(Pairing.crossed_iff_there hone hother (by omega) i).1.mp ⟨j, hpair⟩,
      (Pairing.crossed_iff_there hone hother (by omega) j).2.mp ⟨i, hpair⟩⟩
  · exact fun cell i hi => Or.inl ⟨rfl, hi⟩
  · intro cell i hi
    have hcells' := hcount' cell
    exact (Pairing.crossed_iff_there hone hother (by omega) i).1.mpr hi
  · intro cell j hj
    have hcells := hcount cell
    exact (Pairing.crossed_iff_there hone hother (by omega) j).2.mpr hj
  · -- A name that the one is asked of is left by the other, and the rest by both.
    intro name
    by_cases hname : request.name? = some name
    · rw [Asked.getElem?_after _ one'.within (apart name hname)]
      exact htable.imp (fun v w _ _ hvw => hvw.imp fun _ _ _ _ _ => Pairing.crossed_of_first) name
        hname
    · rw [Asked.getElem?_after ⟨Asked.after ⟨s, request'⟩, request⟩ one.within hname]
      by_cases hname' : request'.name? = some name
      · exact htable'.imp (fun v w _ _ hvw => hvw.imp fun cell _ _ _ _ =>
          Pairing.crossed_of_second (hcount' cell)) name hname'
      · rw [Asked.getElem?_after _ one'.within hname', Asked.getElem?_after _ one.within hname,
          Asked.getElem?_after _ one'.within hname']
        have hrest : s.table.Paired p (fun _ => True) s.table :=
          SymbolTable.paired_self fun v hv => hself (hs.table v hv)
        exact hrest name trivial
  · -- An old cell holds what it held; a new one, what the request that made it put there.
    intro cell i j hpair
    have hcells := hcount cell
    have hcells' := hcount' cell
    rcases hpair with ⟨rfl, hold⟩ | ⟨k, hi, hj, hlt⟩ | ⟨k, hi, hj, hlt⟩
    · rw [(hfirst.extended.trans hlast).content hold, (hsecond.extended.trans hlast').content hold]
      exact Content.paired_self fun v hv => hself (hs.heap v (Heap.holds_of_content hv))
    · obtain ⟨hcontent, hheld⟩ := Asked.content_moved (.refl hs) hsecond hs
        one.within hunique (i := i) (j := j) (by omega) hlt (by omega) (by omega)
      rw [hlast.content hlt, hcontent]
      exact Content.paired_self fun v hv => hself (hheld v hv)
    · obtain ⟨hcontent, hheld⟩ := Asked.content_moved hfirst (.refl hs) hs
        one'.within hunique (i := i) (j := j) (by omega) (by omega) (by omega) hlt
      rw [hlast'.content hlt, hcontent]
      exact Content.paired_self fun v hv => hself (hheld v hv)
  · exact hanswer.imp fun _ _ v w _ _ _ _ hvw => hvw.imp fun _ _ _ _ _ =>
      Pairing.crossed_of_first
  · exact hanswer'.imp fun _ _ v w _ _ _ _ hvw => hvw.imp fun cell _ _ _ _ =>
      Pairing.crossed_of_second (hcount' cell)

/-! ### One name as different kinds -/

/-- Slots of different kinds are filled in either order. -/
theorem Slots.set_comm (slots : Slots) {kind kind' : Kind} (hne : kind ≠ kind') (v w : Value) :
    (slots.set kind v).set kind' w = (slots.set kind' w).set kind v := by
  apply Slots.ext_get
  intro other
  rw [Slots.get_set, Slots.get_set, Slots.get_set, Slots.get_set]
  by_cases hkind : other = kind
  · rw [if_pos hkind, if_pos hkind, if_neg (hkind ▸ hne)]
  · rw [if_neg hkind, if_neg hkind]

namespace SymbolTable

variable (table : SymbolTable) (spec : Spec)

/-- A declaration leaves the slots of its name. -/
theorem slots_bound_none : (table.bound spec none).slots spec.name = table.slots spec.name :=
  Slots.ext_get fun kind => table.held_bound_none spec ⟨spec.name, kind⟩

/-- A declaration gives its name an entry if there is none. -/
theorem getElem?_bound_none :
    (table.bound spec none)[spec.name]? = some (table[spec.name]?.getD (.bindings {})) := by
  rw [bound, Dict.contains_eq]
  cases hentry : table[spec.name]? with
  | none =>
      rw [if_neg (by simp), Dict.getElem?_insert, if_pos rfl]
      rfl
  | some entry =>
      rw [if_pos (by simp), hentry]
      rfl

theorem getElem?_bound_some (value : Value) :
    (table.bound spec (some value))[spec.name]?
      = some (.bindings ((table.slots spec.name).set spec.kind value)) := by
  rw [bound, Dict.getElem?_insert, if_pos rfl]

/--
One name is bound as two kinds in either order.  A stub is kept if the name is only declared, and
has given way in the end if anything is bound.
-/
theorem bound_comm {spec spec' : Spec} (hname : spec.name = spec'.name) (hkind : spec.kind ≠ spec'.kind)
    (value? value?' : Option Value) :
    (table.bound spec value?).bound spec' value?' = (table.bound spec' value?').bound spec value? := by
  obtain ⟨name, kind⟩ := spec
  obtain ⟨name', kind'⟩ := spec'
  obtain rfl : name = name' := hname
  have hdeclared (v : Value) (kind kind' : Kind) :
      ((table.bound ⟨name, kind⟩ (some v)).bound ⟨name, kind'⟩ none)[name]?
        = ((table.bound ⟨name, kind'⟩ none).bound ⟨name, kind⟩ (some v))[name]? := by
    have hdeclare := (table.bound ⟨name, kind⟩ (some v)).getElem?_bound_none ⟨name, kind'⟩
    have hbind := (table.bound ⟨name, kind'⟩ none).getElem?_bound_some ⟨name, kind⟩ v
    have hslots := table.slots_bound_none ⟨name, kind'⟩
    simp only at hdeclare hbind hslots
    rw [hdeclare, hbind, table.getElem?_bound_some ⟨name, kind⟩ v, hslots]
    rfl
  apply Std.ExtTreeMap.ext_getElem?
  intro other
  by_cases hother : other = name
  · subst hother
    cases value? with
    | none =>
        cases value?' with
        | none => rfl
        | some w => exact (hdeclared w kind' kind).symm
    | some v =>
        cases value?' with
        | none => exact hdeclared v kind kind'
        | some w =>
            rw [getElem?_bound_some _ ⟨other, kind'⟩ w, getElem?_bound_some _ ⟨other, kind⟩ v]
            simp only [bound, slots_insert, if_pos]
            rw [Slots.set_comm _ hkind]
  · have hne {k : Kind} : other ≠ (⟨name, k⟩ : Spec).name := hother
    rw [getElem?_bound_of_ne _ hne, getElem?_bound_of_ne _ hne, getElem?_bound_of_ne _ hne,
      getElem?_bound_of_ne _ hne]

end SymbolTable

/-- The empty values of different kinds are in cells of different sorts. -/
theorem Heap.newEmpty_comm (h : Heap) {kind kind' : Kind} (hne : kind ≠ kind') :
    ((h.newEmpty kind').2.newEmpty kind).1 = (h.newEmpty kind).1 ∧
      ((h.newEmpty kind').2.newEmpty kind).2 = ((h.newEmpty kind).2.newEmpty kind').2 := by
  cases kind <;> cases kind' <;> first | exact ⟨rfl, rfl⟩ | exact absurd rfl hne

namespace Scope

variable (s : Scope) {spec spec' : Spec} (value? value?' : Option Value) (origin origin' : Origin)

/-- The value that is bound is the same after the name was bound as another kind. -/
theorem valueFor_place (hkind : spec.kind ≠ spec'.kind) :
    ((s.place spec' value?' origin').valueFor spec.kind value?).1 = (s.valueFor spec.kind value?).1 ∧
      ((s.place spec' value?' origin').valueFor spec.kind value?).2.world.heap
        = ((s.place spec value? origin).valueFor spec'.kind value?').2.world.heap := by
  have hheap := s.heap_place spec value? origin
  have hheap' := s.heap_place spec' value?' origin'
  cases value? with
  | some v =>
      refine ⟨rfl, ?_⟩
      cases value?' with
      | some w => exact hheap'.trans hheap.symm
      | none =>
          show (s.place spec' none origin').world.heap
            = ((s.place spec (some v) origin).world.heap.newEmpty spec'.kind).2
          rw [hheap, hheap']
          rfl
  | none =>
      show ((s.place spec' value?' origin').world.heap.newEmpty spec.kind).1
          = (s.world.heap.newEmpty spec.kind).1 ∧
        ((s.place spec' value?' origin').world.heap.newEmpty spec.kind).2 = _
      rw [hheap']
      cases value?' with
      | some w => exact ⟨rfl, hheap.symm⟩
      | none =>
          refine ⟨(s.world.heap.newEmpty_comm hkind).1, (s.world.heap.newEmpty_comm hkind).2.trans ?_⟩
          show _ = ((s.place spec none origin).world.heap.newEmpty spec'.kind).2
          rw [hheap]
          rfl

/-- **One name is bound as different kinds in either order.** -/
theorem place_comm (hname : spec.name = spec'.name) (hkind : spec.kind ≠ spec'.kind) :
    ((s.place spec value? origin).place spec' value?' origin').table
        = ((s.place spec' value?' origin').place spec value? origin).table ∧
      ((s.place spec value? origin).place spec' value?' origin').world.heap
        = ((s.place spec' value?' origin').place spec value? origin).world.heap := by
  obtain ⟨hvalue, hheap⟩ := s.valueFor_place value? value?' origin origin' hkind
  obtain ⟨hvalue', -⟩ := s.valueFor_place value?' value? origin' origin (Ne.symm hkind)
  refine ⟨?_, ?_⟩
  · rw [table_place, table_place, table_place, table_place, hvalue, hvalue',
      SymbolTable.bound_comm _ hname hkind]
  · rw [heap_place, heap_place, hheap]

end Scope

/-! ### Bindings as requests -/

namespace Asked

variable {text : String} {spec : Spec} (hp : Spec.parse text = .ok spec)
include hp

/-- A value that fits, or none, is bound. -/
theorem add_fit {value? : Option Value} (hint : RangeHint)
    (hfit : ∀ v, value? = some v → v.fits spec.kind = true) (s : Scope) :
    after ⟨s, .operation (.add text value? hint)⟩ = s.place spec value? (.caller hint) ∧
      result ⟨s, .operation (.add text value? hint)⟩ = .ok (.reply .done) := by
  obtain ⟨hresult, hafter⟩ := Step.add_of_fits (s := s) hp value? hint hfit
  rw [after_operation, result_operation, hresult, hafter]
  exact ⟨rfl, rfl⟩

/-- A value that does not fit is refused, and nothing is changed. -/
theorem add_misfit {value : Value} (hint : RangeHint) (hfit : value.fits spec.kind = false) (s : Scope) :
    after ⟨s, .operation (.add text (some value) hint)⟩ = s ∧
      result ⟨s, .operation (.add text (some value) hint)⟩
        = .error (.typeMismatch (s.qualify spec.name) spec.kind value.typeName) := by
  obtain ⟨hresult, hafter⟩ := Step.add_of_misfit (s := s) hp hint hfit
  rw [after_operation, result_operation, hresult, hafter]
  exact ⟨rfl, rfl⟩

/-- Either a binding is made of any scope, or it is refused of all. -/
theorem add_cases (value? : Option Value) (hint : RangeHint) :
    (∀ s, after ⟨s, .operation (.add text value? hint)⟩ = s.place spec value? (.caller hint)) ∨
      ∀ s, after ⟨s, .operation (.add text value? hint)⟩ = s := by
  cases value? with
  | none => exact Or.inl fun s => (add_fit hp hint (by simp) s).1
  | some value =>
      cases hfit : value.fits spec.kind with
      | true => exact Or.inl fun s => (add_fit hp hint (by simpa using hfit) s).1
      | false => exact Or.inr fun s => (add_misfit hp hint hfit s).1

/-- A binding is answered in the same way in namespaces of one identifier. -/
theorem answer_add (p : Pairing) {s t : Scope} (hident : s.space.ident = t.space.ident)
    (value? : Option Value) (hint : RangeHint) :
    Answer.Paired p (result ⟨s, .operation (.add text value? hint)⟩)
      (result ⟨t, .operation (.add text value? hint)⟩) := by
  have hfits (hfit : ∀ v, value? = some v → v.fits spec.kind = true) :
      Answer.Paired p (result ⟨s, .operation (.add text value? hint)⟩)
        (result ⟨t, .operation (.add text value? hint)⟩) := by
    rw [(add_fit hp hint hfit s).2, (add_fit hp hint hfit t).2]
    exact .ok (.reply .done)
  cases value? with
  | none => exact hfits (by simp)
  | some value =>
      cases hfit : value.fits spec.kind with
      | true => exact hfits (by simpa using hfit)
      | false =>
          rw [(add_misfit hp hint hfit s).2, (add_misfit hp hint hfit t).2, Scope.qualify,
            Scope.qualify, hident]
          exact .error _

end Asked

/-- What is left behind is the same but for the names of no cells at all, if it is the same. -/
theorem Scope.SameButFor.of_eq {s t t' : Scope} (ht : t.Closed)
    (hgrown : ∀ cell, s.world.heap.count cell ≤ t.world.heap.count cell) (htable : t.table = t'.table)
    (hheap : t.world.heap = t'.world.heap) : SameButFor (.known t.world.heap) s t t' where
  oneToOne := ⟨fun h h' => h.1.trans h'.1.symm, fun h h' => h.1.symm.trans h'.1⟩
  there cell i j h := ⟨h.2, hheap ▸ h.1 ▸ h.2⟩
  old cell i hi := ⟨rfl, Nat.lt_of_lt_of_le hi (hgrown cell)⟩
  all cell i hi := ⟨i, rfl, hi⟩
  all' cell j hj := ⟨j, rfl, hheap ▸ hj⟩
  table name := by
    rw [← htable]
    have hpaired : t.table.Paired (.known t.world.heap) (fun _ => True) t.table :=
      SymbolTable.paired_self fun v hv => Value.paired_known (ht.table v hv)
    exact hpaired name trivial
  content cell i j h := by
    rw [← hheap, h.1]
    exact Content.paired_self fun v hv => Value.paired_known (ht.heap v (Heap.holds_of_content hv))

/-- **Bindings of one name as different kinds commute.** -/
theorem Request.same_of_kinds {s : Scope} (hs : s.Closed) {text text' : String} {spec spec' : Spec}
    (hp : Spec.parse text = .ok spec) (hp' : Spec.parse text' = .ok spec')
    (hname : spec.name = spec'.name) (hkind : spec.kind ≠ spec'.kind) {value? value?' : Option Value}
    (hgiven : ∀ v, value? = some v → s.world.heap.Has v)
    (hgiven' : ∀ v, value?' = some v → s.world.heap.Has v) (hint hint' : RangeHint)
    {request request' : Request} (hrequest : request = .operation (.add text value? hint))
    (hrequest' : request' = .operation (.add text' value?' hint')) :
    request.SameEitherWay s request' := by
  have hident (asked : Asked) : asked.after.space.ident = asked.before.space.ident := by
    rw [Asked.space_after]
  have hgives (v : Value) (hv : request.Gives v) : s.world.heap.Has v := by
    subst hrequest
    cases hv
    exact hgiven v rfl
  have hgives' (v : Value) (hv : request'.Gives v) : s.world.heap.Has v := by
    subst hrequest'
    cases hv
    exact hgiven' v rfl
  have hfirst := (Asked.extends ⟨s, request⟩).trans
    (Asked.extends ⟨Asked.after ⟨s, request⟩, request'⟩)
  have hclosed : (Asked.after ⟨Asked.after ⟨s, request⟩, request'⟩).Closed :=
    (Asked.closed (Asked.closed hs hgives).1 fun v hv =>
      (hgives' v hv).grow (Asked.extends ⟨s, request⟩).toGrows).1
  have hsame : (Asked.after ⟨Asked.after ⟨s, request⟩, request'⟩).table
        = (Asked.after ⟨Asked.after ⟨s, request'⟩, request⟩).table ∧
      (Asked.after ⟨Asked.after ⟨s, request⟩, request'⟩).world.heap
        = (Asked.after ⟨Asked.after ⟨s, request'⟩, request⟩).world.heap := by
    subst hrequest hrequest'
    rcases Asked.add_cases hp value? hint with hmade | hrefused
    · rcases Asked.add_cases hp' value?' hint' with hmade' | hrefused'
      · rw [hmade, hmade', hmade', hmade]
        exact s.place_comm _ _ _ _ hname hkind
      · rw [hrefused', hrefused']
        exact ⟨rfl, rfl⟩
    · rw [hrefused, hrefused]
      exact ⟨rfl, rfl⟩
  refine ⟨_, .of_eq hclosed hfirst.count hsame.1 hsame.2, ?_, ?_⟩
  · rw [hrequest]
    exact Asked.answer_add hp _ (hident ⟨s, request'⟩).symm value? hint
  · rw [hrequest']
    exact Asked.answer_add hp' _ (hident ⟨s, request⟩) value?' hint'

/-! ### Debuggers and registries -/

theorem Request.name?_of_definition? {request : Request} {name : String} {range : SourceRange}
    (h : request.definition? = some (name, range)) : request.name? = some name := by
  cases request with
  | operation asked =>
      cases asked with
      | add text value? hint =>
          cases value? with
          | none => cases h
          | some value =>
              obtain ⟨spec, hp, hspec⟩ := Option.bind_eq_some_iff.mp h
              split at hspec
              · cases hspec
                show (Spec.parse text).toOption.map Spec.name = _
                rw [hp]
                rfl
              · cases hspec
      | _ => cases h
  | edit change => cases h
  | replace table => cases h

/-- Independent requests do not both give a callable of one name. -/
theorem Request.Independent.definitions_ne {request request' : Request}
    (hindependent : request.Independent request') {name name' : String} {range range' : SourceRange}
    (h : request.definition? = some (name, range)) (h' : request'.definition? = some (name', range')) :
    name ≠ name' := by
  cases hindependent with
  | names one one' apart =>
      rintro rfl
      exact apart name (name?_of_definition? h) (name?_of_definition? h')
  | kinds reads reads' hname hkind value? value?' hint hint' =>
      have hcallable {text : String} {spec : Spec} (hp : Spec.parse text = .ok spec)
          {value? : Option Value} {hint : RangeHint} {found : String × SourceRange}
          (h : (Operation.add text value? hint).definition? = some found) : spec.kind = .callable := by
        cases value? with
        | none => cases h
        | some value =>
            rw [Operation.definition?, hp] at h
            by_contra hkind
            exact absurd (h.symm.trans (if_neg fun hboth => hkind hboth.1)) (by simp)
      exact absurd ((hcallable reads h).trans (hcallable reads' h').symm) hkind

theorem Scope.heard_congr {s t : Scope} (hident : s.space.ident = t.space.ident)
    (hdebugger : s.space.debugger = t.space.debugger)
    (hdebugging : s.world.debugging = t.world.debugging) (definition? : Option (String × SourceRange)) :
    s.heard definition? = t.heard definition? := by
  cases definition? with
  | none => exact hdebugging
  | some definition =>
      unfold Scope.heard Scope.qualify
      rw [hident, hdebugger, hdebugging]

/-- **Independent requests come to the same debuggers and registries**, if these are not changed. -/
theorem Request.Independent.debugging {s : Scope} {request request' : Request}
    (hindependent : request.Independent request')
    (hfirst : (Asked.after ⟨s, request⟩).world.debugging.debuggers = s.world.debugging.debuggers)
    (hsecond : (Asked.after ⟨s, request'⟩).world.debugging.debuggers = s.world.debugging.debuggers) :
    (Asked.after ⟨Asked.after ⟨s, request⟩, request'⟩).world.debugging
      = (Asked.after ⟨Asked.after ⟨s, request'⟩, request⟩).world.debugging := by
  have hident (asked : Asked) : asked.after.space.ident = asked.before.space.ident := by
    rw [Asked.space_after]
  have hdebugger (asked : Asked) : asked.after.space.debugger = asked.before.space.debugger := by
    rw [Asked.space_after]
  have hquiet (asked : Asked) (hnone : asked.request.definition? = none)
      (definition? : Option (String × SourceRange)) :
      asked.after.heard definition? = asked.before.heard definition? := by
    refine Scope.heard_congr (hident asked) (hdebugger asked) ?_ definition?
    rw [Asked.debugging_after, hnone]
    rfl
  rw [Asked.debugging_after ⟨Asked.after ⟨s, request⟩, request'⟩,
    Asked.debugging_after ⟨Asked.after ⟨s, request'⟩, request⟩]
  simp only
  cases hdef : request.definition? with
  | none =>
      rw [hquiet ⟨s, request⟩ hdef]
      exact (Asked.debugging_after ⟨s, request'⟩).symm
  | some definition =>
      cases hdef' : request'.definition? with
      | none =>
          rw [hquiet ⟨s, request'⟩ hdef', ← hdef]
          exact Asked.debugging_after ⟨s, request⟩
      | some definition' =>
          obtain ⟨name, range⟩ := definition
          obtain ⟨name', range'⟩ := definition'
          have hne : s.qualify name ≠ s.qualify name' := fun h =>
            hindependent.definitions_ne hdef hdef' (qualify_injective h)
          have hafter := Asked.debugging_after ⟨s, request⟩
          have hafter' := Asked.debugging_after ⟨s, request'⟩
          rw [hdef] at hafter
          rw [hdef'] at hafter'
          rw [hafter] at hfirst
          rw [hafter'] at hsecond
          unfold Scope.heard Scope.qualify
          rw [hident ⟨s, request⟩, hident ⟨s, request'⟩, hdebugger ⟨s, request⟩,
            hdebugger ⟨s, request'⟩, hafter, hafter']
          exact Debugging.emit_comm _ _ hne hfirst hsecond

/--
**Independent requests commute.**  Whatever a namespace holds, two requests that are asked of
different names, or bind one name as different kinds, can be asked in either order.  Each is
answered in the same way or refused for the same reason, and what is left behind is the same but
for the names of the cells that the two make.  If neither changes a debugger, registries come to
hold the same too.
-/
theorem independent_requests_commute {s : Scope} (hclosed : s.Closed) {request request' : Request}
    (hgiven : ∀ v, request.Gives v → s.world.heap.Has v)
    (hgiven' : ∀ v, request'.Gives v → s.world.heap.Has v)
    (hindependent : request.Independent request') : request.Commute s request' where
  same := by
    cases hindependent with
    | names one one' apart => exact Request.same_of_names hclosed hgiven hgiven' one one' apart
    | kinds reads reads' hname hkind value? value?' hint hint' =>
        refine Request.same_of_kinds hclosed reads reads' hname hkind ?_ ?_ hint hint' rfl rfl
        · rintro v rfl
          exact hgiven v (.add ..)
        · rintro v rfl
          exact hgiven' v (.add ..)
  debugging := hindependent.debugging

/--
Two empty sequences trade handles as they are made in the other order, and two callables are kept
in a registry in either order.
-/
theorem sequences_and_callables_commute :
    let s : Scope := ⟨⟨"main", ∅, ⟨0⟩⟩,
      { heap := { callables := #[.builtin .sum] }
        debugging := ⟨#[.withSink (.registry ⟨0⟩)], #[∅]⟩ }⟩
    let sequence (text : String) : Request := .operation (.vivify text)
    let callable (text : String) : Request := .operation (.add text (some (.callable ⟨0⟩)) {})
    (sequence "@a").Commute s (sequence "@b") ∧
      Asked.result ⟨s, sequence "@a"⟩ = .ok (.reply (.value (some (.sequence ⟨0⟩)))) ∧
      Asked.result ⟨Asked.after ⟨s, sequence "@b"⟩, sequence "@a"⟩
        = .ok (.reply (.value (some (.sequence ⟨1⟩)))) ∧
      (Asked.after ⟨Asked.after ⟨s, callable "&f"⟩, callable "&g"⟩).world.debugging
        = (Asked.after ⟨Asked.after ⟨s, callable "&g"⟩, callable "&f"⟩).world.debugging := by
  intro s sequence callable
  have hbody : ∀ v, Body.builtin .sum = .constant v → Heap.Has {} v := by simp
  have hclosed : s.Closed :=
    ⟨Heap.closed_empty.newCallable hbody, fun v hv => absurd hv SymbolTable.not_stores_empty⟩
  refine ⟨?_, rfl, rfl, ?_⟩
  · refine independent_requests_commute hclosed ?_ ?_ (.names trivial trivial ?_)
    · intro v hv
      cases hv
    · intro v hv
      cases hv
    · intro name hname
      obtain rfl : "a" = name := Option.some.inj hname
      exact fun h => absurd (Option.some.inj h) (by decide)
  · have hgiven (text : String) (v : Value) (hv : (callable text).Gives v) : s.world.heap.Has v := by
      cases hv
      intro cell i hi
      cases hi
      exact Nat.zero_lt_one
    refine (independent_requests_commute hclosed (hgiven "&f") (hgiven "&g")
      (.names trivial trivial ?_)).debugging rfl rfl
    intro name hname
    obtain rfl : "f" = name := Option.some.inj hname
    exact fun h => absurd (Option.some.inj h) (by decide)

end Bindery
