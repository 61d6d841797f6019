/-
What a removal leaves.

A removal takes the whole entry of a name away and binds the siblings again.  If all of them fit
their kinds, this comes to rewriting one entry: what the spec addresses is gone, and so is what
did not count, and every sibling holds what it held.  A stub is read first, and what is left of it
is the callable it was read as.  So a removal from a stub is a removal from the table in which
this callable has taken its place (`SymbolTable.resolved`), and no more has to be said of it.

If a sibling does not fit, the removal stops there, with the entry gone already.  Only an edit can
fill a slot with what does not fit it, but once one has, to remove any other kind of the name loses
the sibling, and every later one with it.
-/
import Bindery.Proofs.Namespace.Declared
import Bindery.Proofs.Namespace.Renewal
import Bindery.Proofs.Namespace.Sending

namespace Bindery

/-! ### Stubs that are resolved -/

namespace SymbolTable

/-- The table in which a callable has taken the place of the stub of a name, if it has one. -/
def resolved (table : SymbolTable) (name : String) (callable : Value) : SymbolTable :=
  if table.isStub name then table.bound ⟨name, .callable⟩ (some callable) else table

variable {table : SymbolTable} {name : String} {callable : Value}

theorem resolved_of_no_stub (hstub : table.isStub name = false) :
    table.resolved name callable = table := by
  rw [resolved, hstub, if_neg Bool.false_ne_true]

theorem isStub_resolved : (table.resolved name callable).isStub name = false := by
  cases hstub : table.isStub name with
  | true => rw [resolved, hstub, if_pos rfl, isStub_bound_some, if_pos rfl]
  | false => rw [resolved_of_no_stub hstub, hstub]

theorem getElem?_resolved_of_ne {other : String} (hne : other ≠ name) :
    (table.resolved name callable)[other]? = table[other]? := by
  unfold resolved
  split
  · rw [getElem?_bound_of_ne _ hne]
  · rfl

/-- The callable of a stub that is resolved is all that is held of its name. -/
theorem held_resolved_of_stub (hstub : table.isStub name = true) (kind : Kind) :
    (table.resolved name callable).held ⟨name, kind⟩
      = if kind = .callable then some callable else none := by
  rw [resolved, hstub, if_pos rfl, held_bound_some]
  by_cases hkind : kind = .callable
  · rw [if_pos (by rw [hkind]), if_pos hkind]
  · have hspec : (⟨name, kind⟩ : Spec) ≠ ⟨name, .callable⟩ := fun heq =>
      hkind (congrArg Spec.kind heq)
    rw [if_neg hspec, if_neg hkind, held, slots_eq_of_isStub table hstub, Slots.get_empty]

/-- To resolve a stub changes nothing of what counts. -/
theorem has_resolved (p : Spec) : (table.resolved name callable).has p = table.has p := by
  by_cases hname : p.name = name
  · cases hstub : table.isStub name with
    | false => rw [resolved_of_no_stub hstub]
    | true =>
        obtain ⟨_, kind⟩ := p
        obtain rfl := hname
        obtain ⟨entry, hentry, hdeclared⟩ := (Option.any_eq_true _ _).mp hstub
        cases entry with
        | bindings slots => cases hdeclared
        | stub raw =>
            apply Bool.eq_iff_iff.mpr
            rw [has_iff_held _ isStub_resolved, has_of_stub table hentry,
              held_resolved_of_stub hstub, beq_iff_eq]
            by_cases hkind : kind = .callable
            · subst hkind
              simp
            · simp [hkind]
  · rw [has, getElem?_resolved_of_ne hname]
    rfl

/-- If all siblings fit and the callable does, they fit where the stub is resolved. -/
theorem SiblingsFit.resolved {spec : Spec} (hfits : table.SiblingsFit spec)
    (hcallable : callable.fits .callable = true) :
    (table.resolved spec.name callable).SiblingsFit spec := by
  intro kind value hkind hheld
  cases hstub : table.isStub spec.name with
  | false =>
      rw [resolved_of_no_stub hstub] at hheld
      exact hfits kind value hkind hheld
  | true =>
      rw [held_resolved_of_stub hstub] at hheld
      split at hheld
      · rename_i hcalled
        cases hheld
        rw [hcalled]
        exact hcallable
      · cases hheld

theorem erase_resolved : (table.resolved name callable).erase name = table.erase name :=
  erase_congr fun _ => getElem?_resolved_of_ne

end SymbolTable

/-! ### Removals that succeed -/

/-- What a removal leaves of a scope in which all siblings of a spec fit their kinds. -/
structure Scope.Removed (s : Scope) (spec : Spec) (after : Scope) : Prop where
  /-- Where no other kind counted, the name is unbound. -/
  unbound : (∀ kind, kind ≠ spec.kind → s.table.has ⟨spec.name, kind⟩ = false) →
    after.table[spec.name]? = none
  /-- Where others counted, theirs are the slots that are filled, with what they held. -/
  filled : ∀ sibling, sibling ≠ spec.kind → s.table.has ⟨spec.name, sibling⟩ = true →
    ∃ slots, after.table[spec.name]? = some (.bindings slots) ∧
      (∀ kind, slots.contains kind = true ↔
        kind ≠ spec.kind ∧ s.table.has ⟨spec.name, kind⟩ = true) ∧
      ∀ old, s.table[spec.name]? = some (.bindings old) →
        ∀ kind value, slots.get kind = some value → old.get kind = some value
  /-- Of a stub a callable is left that answers what the stub answers. -/
  answers : ∀ raw, s.table[spec.name]? = some (.stub raw) → spec.kind ≠ .callable →
    ∃ c, after.table[spec.name]? = some (.bindings (({} : Slots).set .callable (.callable c))) ∧
      after.world.heap.Answers c (s.world.heap.stubAnswer raw (s.qualify spec.name))
  others : ∀ other, other ≠ spec.name → after.table[other]? = s.table[other]?
  counts : ∀ p, after.table.has p = (s.table.has p && p != spec)
  unheard : s.world.Unheard after.world

namespace Scope

variable {s : Scope} {text : String} {spec : Spec}

/-- A removal is not heard, whether it succeeds or fails. -/
theorem unheard_remove : s.world.Unheard (Step.after ⟨s, .remove text⟩).world := by
  refine Step.unheard ?_
  rintro ⟨_, _, _, _, heq, -⟩
  cases heq

/-- What a removal keeps is what the siblings hold where the stub is resolved. -/
theorem keep_resolved (s : Scope) (spec : Spec) :
    ∃ callable : Value, callable.fits .callable = true ∧
      (s.keep spec).1 = ((s.table.resolved spec.name callable).siblingsOf spec).filterMap
        fun q => ((s.table.resolved spec.name callable).held q).map (q, ·) := by
  cases hstub : s.table.isStub spec.name with
  | false =>
      refine ⟨.callable ⟨0⟩, rfl, ?_⟩
      rw [SymbolTable.resolved_of_no_stub hstub, keep_of_no_stub hstub]
  | true =>
      obtain ⟨entry, hentry, hdeclared⟩ := (Option.any_eq_true _ _).mp hstub
      cases entry with
      | bindings slots => cases hdeclared
      | stub raw =>
          refine ⟨(s.read ⟨spec.name, .callable⟩ (.declared raw)).1, rfl, ?_⟩
          rw [SymbolTable.siblingsOf_congr fun p _ _ => SymbolTable.has_resolved p,
            siblingsOf_of_stub hentry spec.kind, keep_of_stub hentry spec.kind]
          by_cases hkind : spec.kind = .callable
          · rw [if_pos hkind, if_pos hkind]
            rfl
          · rw [if_neg hkind, if_neg hkind, List.filterMap_cons_some (by
              rw [SymbolTable.held_resolved_of_stub hstub, if_pos rfl]
              rfl)]
            rfl

section Fits

variable (hp : Spec.parse text = .ok spec) (hfits : s.table.SiblingsFit spec)
include hp hfits

/-- A removal from a stub is one from the table in which the stub is resolved. -/
theorem remove_resolved :
    ∃ callable : Value, callable.fits .callable = true ∧
      Step.result ⟨s, .remove text⟩ = .ok .done ∧
      (Step.after ⟨s, .remove text⟩).table
        = (s.table.resolved spec.name callable).without spec := by
  obtain ⟨callable, hcallable, hkeep⟩ := s.keep_resolved spec
  have hkept : ∀ pair ∈ (s.keep spec).1, pair.2.fits pair.1.kind = true := by
    rw [hkeep]
    exact SymbolTable.pairs_fit (hfits.resolved hcallable).of_mem
  obtain ⟨hdone, htable⟩ := remove_of_kept_fits hp hkept
  refine ⟨callable, hcallable, hdone, ?_⟩
  rw [htable, hkeep, ← SymbolTable.erase_resolved]
  rfl

/-- If all siblings fit, a removal succeeds, and leaves them and nothing else. -/
theorem removed :
    Step.result ⟨s, .remove text⟩ = .ok .done ∧
      s.Removed spec (Step.after ⟨s, .remove text⟩) := by
  obtain ⟨callable, -, hdone, htable⟩ := remove_resolved hp hfits
  have hresolved : (s.table.resolved spec.name callable).isStub spec.name = false :=
    SymbolTable.isStub_resolved
  have hcounts (p : Spec) : (s.table.resolved spec.name callable).has p = s.table.has p :=
    SymbolTable.has_resolved p
  exact ⟨hdone, {
    unbound := by
      intro halone
      rw [htable]
      refine SymbolTable.getElem?_without_of_alone hresolved fun kind hkind => ?_
      rw [hcounts, halone kind hkind]
    filled := by
      intro sibling hkind hhas
      rw [← hcounts] at hhas
      obtain ⟨slots, hslots, hfilled, hsame⟩ :=
        SymbolTable.getElem?_without_of_sibling hresolved hkind hhas
      refine ⟨slots, htable ▸ hslots, fun kind => ?_, ?_⟩
      · rw [hfilled, hcounts]
      · -- slots that were there were no stub, so what is resolved is the table itself
        intro old hold kind value hvalue
        have hstub : s.table.isStub spec.name = false := by
          rw [SymbolTable.isStub, hold]
          rfl
        have hheld := hsame kind value hvalue
        rw [SymbolTable.resolved_of_no_stub hstub] at hheld
        simpa [SymbolTable.held, SymbolTable.slots, hold, Entry.slots?] using hheld
    answers := by
      intro raw hstub hkind
      obtain ⟨value, -, hleft, hshows⟩ := left_shows hstub hp hkind
      obtain ⟨c, rfl, -, -, hbody⟩ := hshows.of_stub hstub
      exact ⟨c, hleft, Heap.answers_of_stubBody hbody⟩
    others := fun other hother =>
      getElem?_after_of_ne (by rw [Operation.name?, hp]; rfl) hother
    counts := by
      intro p
      rw [htable, SymbolTable.has_without hresolved, hcounts]
    unheard := unheard_remove }⟩

/-- What a removal leaves has nothing where the spec addresses, and the same removal keeps it. -/
theorem remove_settles {u : Scope} (hleft : u.table = (Step.after ⟨s, .remove text⟩).table) :
    Step.result ⟨u, .find text⟩ = .ok (.value none) ∧
      Step.result ⟨u, .remove text⟩ = .ok .done ∧
      (Step.after ⟨u, .remove text⟩).table = u.table := by
  obtain ⟨callable, hcallable, -, htable⟩ := remove_resolved hp hfits
  have hresolved : (s.table.resolved spec.name callable).isStub spec.name = false :=
    SymbolTable.isStub_resolved
  have hwithout : u.table = (s.table.resolved spec.name callable).without spec := by
    rw [hleft, htable]
  have hstub : u.table.isStub spec.name = false := by
    rw [hwithout]
    exact SymbolTable.isStub_without hresolved
  have habsent : u.table.reading? spec = none := by
    rw [SymbolTable.reading?_eq_held _ hstub, hwithout, SymbolTable.held_without, if_pos rfl,
      if_neg (by simp)]
    rfl
  have hfits' : u.table.SiblingsFit spec := by
    intro kind value hkind hheld
    rw [hwithout, SymbolTable.held_without, if_pos rfl] at hheld
    split at hheld
    · exact hfits.resolved hcallable kind value hkind hheld
    · cases hheld
  obtain ⟨hdone, hagain⟩ := remove_of_fits hp hstub hfits'
  refine ⟨?_, hdone, ?_⟩
  · rw [Step.result_find, find_run, hp]
    simp only [lookup_eq, habsent]
    rfl
  · rw [hagain, hwithout, SymbolTable.without_without hresolved]

end Fits

/-! ### Removals that stop -/

/-- What a removal leaves of a scope if it stops at a sibling that does not fit its kind. -/
structure Stopped (s : Scope) (spec : Spec) (kind : Kind) (after : Scope) : Prop where
  /-- Siblings are left that come before it, with what they held. -/
  held : ∀ j, after.table.held ⟨spec.name, j⟩ =
    if j ≠ spec.kind ∧ j.index < kind.index ∧ s.table.has ⟨spec.name, j⟩ = true then
      s.table.held ⟨spec.name, j⟩ else none
  /-- If there are none, the name is unbound. -/
  unbound : (∀ j, j ≠ spec.kind → j.index < kind.index → s.table.has ⟨spec.name, j⟩ = false) →
    after.table[spec.name]? = none
  /-- The sibling counted, and no longer does. -/
  lost : s.table.has ⟨spec.name, kind⟩ = true ∧ after.table.has ⟨spec.name, kind⟩ = false
  others : ∀ other, other ≠ spec.name → after.table[other]? = s.table[other]?

/-- **A removal stops at the first sibling that does not fit**, with the entry taken away. -/
theorem stopped (hp : Spec.parse text = .ok spec) {kind : Kind} {value : Value}
    (hfirst : s.table.FirstMisfit spec kind value) :
    Step.result ⟨s, .remove text⟩
        = .error (.typeMismatch (s.qualify spec.name) kind value.typeName) ∧
      s.Stopped spec kind (Step.after ⟨s, .remove text⟩) := by
  obtain ⟨hfails, htable⟩ := remove_of_misfit hp hfirst
  have hstub : s.table.isStub spec.name = false :=
    SymbolTable.isStub_of_held hfirst.held
  have hnames : ∀ q ∈ (s.table.siblingsOf spec).filter fun q => q.kind.index < kind.index,
      q.name = spec.name :=
    fun q hq => SymbolTable.name_of_mem_siblingsOf (List.mem_filter.mp hq).1
  have hvalues : ∀ q ∈ (s.table.siblingsOf spec).filter fun q => q.kind.index < kind.index,
      ∃ value, s.table.held q = some value :=
    fun q hq => SymbolTable.held_of_mem_siblingsOf hstub (List.mem_filter.mp hq).1
  have hheld (j : Kind) : (Step.after ⟨s, .remove text⟩).table.held ⟨spec.name, j⟩ =
      if j ≠ spec.kind ∧ j.index < kind.index ∧ s.table.has ⟨spec.name, j⟩ = true then
        s.table.held ⟨spec.name, j⟩ else none := by
    rw [htable, SymbolTable.held_rebuilt hnames, if_pos rfl]
    refine if_congr ?_ rfl rfl
    rw [List.mem_filter, SymbolTable.mem_siblingsOf, decide_eq_true_eq]
    tauto
  exact ⟨hfails, {
    held := hheld
    unbound := by
      intro halone
      have hnil : (s.table.siblingsOf spec).filter (fun q => q.kind.index < kind.index) = [] := by
        refine List.filter_eq_nil_iff.mpr fun q hq hlt => ?_
        obtain ⟨hname, hsibling, hhas⟩ := s.table.mem_siblingsOf.mp hq
        have hnot := halone q.kind hsibling (of_decide_eq_true hlt)
        rw [← hname, hhas] at hnot
        cases hnot
      rw [htable, SymbolTable.getElem?_rebuilt hnames hvalues, if_pos hnil]
    lost := by
      have hcounted : s.table.has ⟨spec.name, kind⟩ = true :=
        SymbolTable.has_of_misfit hfirst.held hfirst.misfit
      have hnone : (Step.after ⟨s, .remove text⟩).table.held ⟨spec.name, kind⟩ = none := by
        rw [hheld, if_neg (by simp)]
      have hstub' : (Step.after ⟨s, .remove text⟩).table.isStub spec.name = false := by
        rw [htable]
        exact SymbolTable.isStub_rebuilt hnames hvalues
      refine ⟨hcounted, Bool.eq_false_iff.mpr fun hhas => ?_⟩
      obtain ⟨v, hv, -⟩ := (@SymbolTable.has_iff_held _ ⟨spec.name, kind⟩ hstub').mp hhas
      rw [hnone] at hv
      cases hv
    others := fun other hother =>
      getElem?_after_of_ne (by rw [Operation.name?, hp]; rfl) hother }⟩

end Scope

/--
**A removal rewrites one entry.**  If all other slots of a name hold what fits their kinds, to
remove one kind of the name succeeds.  What counted among the other kinds is left, each in its
slot, a stub as a callable that answers what the stub did, and if nothing counted the name is
unbound.  All other entries stay, and nothing is heard.  In whatever becomes of the rest of the
scope, what was removed is not found, and to remove it again leaves the table as it is.
-/
theorem removal_rewrites_one_entry {s : Scope} {text : String} {spec : Spec}
    (hp : Spec.parse text = .ok spec) (hfits : s.table.SiblingsFit spec) :
    Step.result ⟨s, .remove text⟩ = .ok .done ∧
      s.Removed spec (Step.after ⟨s, .remove text⟩) ∧
      ∀ later : Scope, later.table = (Step.after ⟨s, .remove text⟩).table →
        Step.result ⟨later, .find text⟩ = .ok (.value none) ∧
          Step.result ⟨later, .remove text⟩ = .ok .done ∧
          (Step.after ⟨later, .remove text⟩).table = later.table := by
  obtain ⟨hdone, hremoved⟩ := Scope.removed hp hfits
  exact ⟨hdone, hremoved, fun later hlater => Scope.remove_settles hp hfits hlater⟩

/-- What is no mapping is removed from a mapping slot, and the sequence beside it stays. -/
theorem misfit_removed_beside_sequence :
    ∃ s : Scope, s.table["x"]? = some (.bindings ((({} : Slots).set .sequence
        (.sequence ⟨0⟩)).set .mapping (.int 7))) ∧
      Step.result ⟨s, .remove "%x"⟩ = .ok .done ∧
      ∃ slots, (Step.after ⟨s, .remove "%x"⟩).table["x"]? = some (.bindings slots) ∧
        slots.contains .sequence = true ∧ slots.contains .mapping = false := by
  let slots : Slots := (({} : Slots).set .sequence (.sequence ⟨0⟩)).set .mapping (.int 7)
  let s : Scope := ⟨⟨"main", (∅ : SymbolTable).insert "x" (.bindings slots), ⟨0⟩⟩, {}⟩
  have hfits : s.table.SiblingsFit ⟨"x", .mapping⟩ := by
    intro kind value hkind hheld
    cases kind with
    | mapping => exact absurd rfl hkind
    | sequence =>
        cases hheld
        rfl
    | _ => cases hheld
  obtain ⟨hdone, hremoved, -⟩ := @removal_rewrites_one_entry s "%x" ⟨"x", .mapping⟩ rfl
    hfits
  obtain ⟨left, hleft, hfilled, -⟩ := hremoved.filled .sequence (by decide) rfl
  refine ⟨s, rfl, hdone, left, hleft, (hfilled .sequence).mpr ⟨by decide, rfl⟩, ?_⟩
  exact Bool.eq_false_iff.mpr fun hcontains => ((hfilled .mapping).mp hcontains).1 rfl

/--
**A removal stops at the first sibling that does not fit.**  A spec that does not read is refused
before anything happens.  Otherwise a removal fails exactly if some other slot of the name holds
what does not fit its kind, and it fails at the first of these.  Of the name nothing is left then
but the siblings that come before it: this sibling, which counted, and every one that comes after
it are gone.
-/
theorem removal_stops_at_misfit (s : Scope) (text : String) :
    (∀ e, Spec.parse text = .error e →
      Step.result ⟨s, .remove text⟩ = .error e ∧ Step.after ⟨s, .remove text⟩ = s) ∧
    ∀ spec, Spec.parse text = .ok spec →
      ((∃ e, Step.result ⟨s, .remove text⟩ = .error e) ↔
        ∃ kind value, s.table.FirstMisfit spec kind value) ∧
      ∀ kind value, s.table.FirstMisfit spec kind value →
        Step.result ⟨s, .remove text⟩
            = .error (.typeMismatch (s.qualify spec.name) kind value.typeName) ∧
          s.Stopped spec kind (Step.after ⟨s, .remove text⟩) ∧
          (Step.after ⟨s, .remove text⟩).table ≠ s.table := by
  constructor
  · intro e hp
    rw [Step.result_remove, Step.after_remove, Scope.remove_run, hp]
    exact ⟨rfl, rfl⟩
  · intro spec hp
    refine ⟨⟨?_, ?_⟩, ?_⟩
    · intro hfails
      obtain ⟨e, he⟩ := hfails
      rcases SymbolTable.siblings_fit_or_first_misfit s.table spec with hfits | hfirst
      · rw [(Scope.removed hp hfits).1] at he
        cases he
      · exact hfirst
    · intro hmisfit
      obtain ⟨kind, value, hfirst⟩ := hmisfit
      exact ⟨_, (Scope.stopped hp hfirst).1⟩
    · intro kind value hfirst
      obtain ⟨hfails, hstopped⟩ := Scope.stopped hp hfirst
      refine ⟨hfails, hstopped, fun hsame => ?_⟩
      obtain ⟨hbefore, hafter⟩ := hstopped.lost
      rw [hsame, hbefore] at hafter
      cases hafter

/-- To remove a scalar that is not there loses a mapping, if a sequence slot holds no sequence. -/
theorem mapping_lost_by_removal :
    ∃ s : Scope, s.table["n"]? = some (.bindings ((({} : Slots).set .mapping
        (.mapping ⟨0⟩)).set .sequence (.int 7))) ∧
      Step.result ⟨s, .remove "$n"⟩ = .error (.typeMismatch "main::n" .sequence "int") ∧
      (Step.after ⟨s, .remove "$n"⟩).table["n"]? = none := by
  let slots : Slots := (({} : Slots).set .mapping (.mapping ⟨0⟩)).set .sequence (.int 7)
  let s : Scope := ⟨⟨"main", (∅ : SymbolTable).insert "n" (.bindings slots), ⟨0⟩⟩, {}⟩
  have hfirst : s.table.FirstMisfit ⟨"n", .scalar⟩ .sequence (.int 7) := by
    refine ⟨by decide, rfl, rfl, ?_⟩
    intro j v hj hlt
    cases j with
    | scalar => exact absurd rfl hj
    | _ => exact absurd hlt (by decide)
  obtain ⟨-, hstops⟩ := (removal_stops_at_misfit s "$n").2 ⟨"n", .scalar⟩ rfl
  obtain ⟨hfails, hstopped, -⟩ := hstops .sequence (.int 7) hfirst
  refine ⟨s, rfl, hfails, hstopped.unbound ?_⟩
  intro j hj hlt
  cases j with
  | scalar => exact absurd rfl hj
  | _ => exact absurd hlt (by decide)

end Bindery
