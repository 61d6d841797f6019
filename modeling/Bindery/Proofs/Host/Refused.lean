/-
What is refused, and what a refusal leaves.

An operation is refused for one of four causes, and each can be told from the operation and the
table it is asked of (`Scope.Refuses`).  The text that addresses a binding is read first, so where
it names nothing no other cause is looked for.  Then a value that is given has to fit the kind of
the spec, and a read that makes up what is absent has to have something to make up.  All of this is
found out before anything is changed, so such a refusal leaves the scope, with the world it shares,
as it was; and a host that passes the operation on is left as it was too.

The fourth cause is found out too late for that.  A removal has taken the entry away when it comes
to a sibling that does not fit its kind, so this is the one refusal that leaves a trace.
-/
import Bindery.Proofs.Host.Arranged
import Bindery.Proofs.Namespace.Removal
import Bindery.Proofs.Spec

namespace Bindery

/-! ### What a namespace refuses -/

namespace Scope

/-- A scope refuses an operation for a cause. -/
inductive Refuses (s : Scope) : Operation Value → BindError → Prop where
  /-- The text of the operation names nothing. -/
  | unnamed {operation : Operation Value} {text : String} (haddress : operation.address? = some text)
      (hunnamed : Spec.Unnamed text) : Refuses s operation (.invalidSpec text)
  /-- The value that is given does not fit the kind. -/
  | misfit {text : String} {spec : Spec} {value : Value} (hint : RangeHint)
      (hp : Spec.parse text = .ok spec) (hmisfit : value.fits spec.kind = false) :
      Refuses s (.add text (some value) hint)
        (.typeMismatch (s.qualify spec.name) spec.kind value.typeName)
  /-- A callable is to be made up, for a name that has neither a stub nor a callable. -/
  | noDefault {text : String} {spec : Spec} (hp : Spec.parse text = .ok spec)
      (hkind : spec.kind = .callable) (hstub : s.table.isStub spec.name = false)
      (hheld : s.table.held spec = none) :
      Refuses s (.vivify text) (.vivifyUnsupported (s.qualify spec.name))
  /-- A sibling that counts does not fit its kind, and is the first not to. -/
  | sibling {text : String} {spec : Spec} {kind : Kind} {value : Value}
      (hp : Spec.parse text = .ok spec) (hcounts : s.table.has ⟨spec.name, kind⟩ = true)
      (hfirst : s.table.FirstMisfit spec kind value) :
      Refuses s (.remove text) (.typeMismatch (s.qualify spec.name) kind value.typeName)

variable {s : Scope} {operation : Operation Value} {text : String} {spec : Spec} {e : BindError}

/-- Only a callable is ever missing, and only where there is no stub. -/
theorem reading?_eq_none_iff_of_callable (hkind : spec.kind = .callable) :
    s.table.reading? spec = none ↔ s.table.isStub spec.name = false ∧ s.table.held spec = none := by
  cases hstub : s.table.isStub spec.name with
  | false => simp [s.table.reading?_eq_held hstub]
  | true =>
      obtain ⟨entry, hentry, hdeclared⟩ := (Option.any_eq_true _ _).mp hstub
      cases entry with
      | bindings slots => cases hdeclared
      | stub raw => simp [s.table.reading?_of_stub hentry, hkind]

/-- A vivifying read is refused for want of an empty callable, and for nothing else. -/
theorem result_vivify_iff (hp : Spec.parse text = .ok spec) :
    Step.result ⟨s, .vivify text⟩ = .error e ↔
      spec.kind = .callable ∧ s.table.isStub spec.name = false ∧ s.table.held spec = none ∧
        e = .vivifyUnsupported (s.qualify spec.name) := by
  rw [Step.result_vivify, vivify_run, hp]
  simp only
  by_cases hkind : spec.kind = .callable
  · have hnone := s.newEmpty_eq_none_iff.mpr hkind
    rw [hnone]
    cases hreading : s.table.reading? spec with
    | some reading =>
        refine iff_of_false (by rintro ⟨⟩) ?_
        rintro ⟨-, hstub, hheld, -⟩
        rw [(reading?_eq_none_iff_of_callable hkind).mpr ⟨hstub, hheld⟩] at hreading
        cases hreading
    | none =>
        obtain ⟨hstub, hheld⟩ := (reading?_eq_none_iff_of_callable hkind).mp hreading
        simp [hkind, hstub, hheld, answer, Except.map, eq_comm]
  · refine iff_of_false ?_ fun h => hkind h.1
    cases s.table.reading? spec with
    | some reading => rintro ⟨⟩
    | none =>
        cases hmade : (s.newEmpty spec.kind).1 with
        | some value => rintro ⟨⟩
        | none => exact absurd (s.newEmpty_eq_none_iff.mp hmade) hkind

/-- A binding is refused for a value that does not fit, and for nothing else. -/
theorem result_add_error_iff (hp : Spec.parse text = .ok spec) {value? : Option Value}
    {hint : RangeHint} :
    Step.result ⟨s, .add text value? hint⟩ = .error e ↔
      ∃ value, value? = some value ∧ value.fits spec.kind = false ∧
        e = .typeMismatch (s.qualify spec.name) spec.kind value.typeName := by
  by_cases hfit : ∀ v, value? = some v → v.fits spec.kind = true
  · rw [(Step.add_of_fits hp value? hint hfit).1]
    refine iff_of_false (by rintro ⟨⟩) ?_
    rintro ⟨value, hvalue, hmisfit, -⟩
    rw [hfit value hvalue] at hmisfit
    cases hmisfit
  · push Not at hfit
    obtain ⟨value, rfl, hnot⟩ := hfit
    have hmisfit : value.fits spec.kind = false := Bool.eq_false_iff.mpr hnot
    rw [(Step.add_of_misfit hp hint hmisfit).1]
    constructor
    · intro h
      cases h
      exact ⟨value, rfl, hmisfit, rfl⟩
    · rintro ⟨other, hother, -, rfl⟩
      cases hother
      rfl

/-- A removal is refused for a sibling that does not fit, and for nothing else. -/
theorem result_remove_iff (hp : Spec.parse text = .ok spec) :
    Step.result ⟨s, .remove text⟩ = .error e ↔
      ∃ kind value, s.table.FirstMisfit spec kind value ∧
        e = .typeMismatch (s.qualify spec.name) kind value.typeName := by
  constructor
  · intro hfails
    rcases s.table.siblings_fit_or_first_misfit spec with hfits | ⟨kind, value, hfirst⟩
    · rw [(removed hp hfits).1] at hfails
      cases hfails
    · rw [(remove_of_misfit hp hfirst).1] at hfails
      cases hfails
      exact ⟨kind, value, hfirst, rfl⟩
  · rintro ⟨kind, value, hfirst, rfl⟩
    exact (remove_of_misfit hp hfirst).1

/-- An operation on a text that does not read is refused, and leaves everything as it was. -/
theorem refused_unread (haddress : operation.address? = some text)
    (hp : Spec.parse text = .error e) :
    Step.result ⟨s, operation⟩ = .error e ∧ Step.after ⟨s, operation⟩ = s := by
  have hrun := perform_of_unread (s := s) haddress hp
  exact ⟨by rw [Step.result, hrun, answer], by rw [Step.after, hrun, left]⟩

/-- **What a scope refuses has one of the four causes.** -/
theorem refuses_of_result (h : Step.result ⟨s, operation⟩ = .error e) :
    s.Refuses operation e := by
  have hread {text : String} (haddress : operation.address? = some text) :
      (∃ spec, Spec.parse text = .ok spec) ∨ s.Refuses operation e := by
    cases hp : Spec.parse text with
    | ok spec => exact .inl ⟨spec, rfl⟩
    | error e' =>
        rw [(refused_unread haddress hp).1] at h
        cases h
        obtain ⟨hunnamed, rfl⟩ := Spec.parse_eq_error_iff.mp hp
        exact .inr (.unnamed haddress hunnamed)
  cases operation with
  | add text value? hint =>
      obtain ⟨spec, hp⟩ | hrefuses := hread rfl
      · obtain ⟨value, rfl, hmisfit, rfl⟩ := (result_add_error_iff hp).mp h
        exact .misfit hint hp hmisfit
      · exact hrefuses
  | has text =>
      obtain ⟨spec, hp⟩ | hrefuses := hread rfl
      · rw [Step.result_has, has_run, hp] at h
        cases h
      · exact hrefuses
  | find text =>
      obtain ⟨spec, hp⟩ | hrefuses := hread rfl
      · rw [Step.result_find, find_run, hp] at h
        cases h
      · exact hrefuses
  | vivify text =>
      obtain ⟨spec, hp⟩ | hrefuses := hread rfl
      · obtain ⟨hkind, hstub, hheld, rfl⟩ := (result_vivify_iff hp).mp h
        exact .noDefault hp hkind hstub hheld
      · exact hrefuses
  | remove text =>
      obtain ⟨spec, hp⟩ | hrefuses := hread rfl
      · obtain ⟨kind, value, hfirst, rfl⟩ := (result_remove_iff hp).mp h
        exact .sibling hp (SymbolTable.has_of_misfit hfirst.held hfirst.misfit) hfirst
      · exact hrefuses
  | removeAll name => cases h
  | names kind? => cases h
  | bindings kind => cases h

/-- What is refused for a cause fails with it. -/
theorem Refuses.result (h : s.Refuses operation e) : Step.result ⟨s, operation⟩ = .error e := by
  cases h with
  | unnamed haddress hunnamed =>
      exact (refused_unread haddress (Spec.parse_eq_error_iff.mpr ⟨hunnamed, rfl⟩)).1
  | misfit hint hp hmisfit =>
      exact (result_add_error_iff hp).mpr ⟨_, rfl, hmisfit, rfl⟩
  | noDefault hp hkind hstub hheld =>
      exact (result_vivify_iff hp).mpr ⟨hkind, hstub, hheld, rfl⟩
  | sibling hp hcounts hfirst =>
      exact (result_remove_iff hp).mpr ⟨_, _, hfirst, rfl⟩

/-- **A refusal leaves everything as it was**, unless a removal has come to a sibling. -/
theorem Refuses.after (h : s.Refuses operation e)
    (hread : ∀ text, operation = .remove text → e = .invalidSpec text) :
    Step.after ⟨s, operation⟩ = s := by
  cases h with
  | unnamed haddress hunnamed =>
      exact (refused_unread haddress (Spec.parse_eq_error_iff.mpr ⟨hunnamed, rfl⟩)).2
  | misfit hint hp hmisfit => exact (Step.add_of_misfit hp hint hmisfit).2
  | noDefault hp hkind hstub hheld =>
      exact Step.after_vivify_of_error (Refuses.noDefault hp hkind hstub hheld).result
  | sibling hp hcounts hfirst => cases hread _ rfl

end Scope

/-! ### Namespaces that are not made -/

theorem Namespace.make_eq_error_iff {ident : String} {debugger : DebuggerId} {e : BindError} :
    Namespace.make ident debugger = .error e ↔ ident = "" ∧ e = .invalidNamespace ident := by
  unfold Namespace.make
  by_cases hempty : ident = ""
  · rw [if_pos (by simp [hempty])]
    exact ⟨fun h => ⟨hempty, (Except.error.inj h).symm⟩, fun h => congrArg Except.error h.2.symm⟩
  · simp [hempty]

/-- A realm opens every namespace that it keeps, and every other one that has an identifier. -/
theorem Realm.openSpace_eq_error_iff {realm : Realm} {ident : String} {w : World} {e : BindError} :
    realm.openSpace ident w = .error e ↔
      realm.spaces[ident]? = none ∧ ident = "" ∧ e = .invalidNamespace ident := by
  unfold Realm.openSpace
  cases realm.spaces[ident]? with
  | some space => simp
  | none =>
      rw [← @Namespace.make_eq_error_iff ident realm.debugger]
      cases Namespace.make ident realm.debugger <;> simp

/-! ### What a refusal leaves of a host -/

namespace Host

variable {host after : Host} {handle : String} {space : Namespace}

/-- A host in which a namespace is put where it is remains the same. -/
theorem withScope_self (hspace : host.spaceOf? handle = some space) :
    host.withScope handle ⟨space, host.world⟩ = host := by
  unfold Host.spaceOf? at hspace
  obtain ⟨seat, hseat, hat⟩ := Option.bind_eq_some_iff.mp hspace
  show host.withSpace handle space = host
  unfold Host.withSpace
  rw [hseat]
  cases seat with
  | owned held =>
      obtain rfl : held = space := Option.some.inj hat
      simp only [Dict.insert_self hseat]
  | kept name ident =>
      obtain ⟨realm, hrealm, hident⟩ := Option.bind_eq_some_iff.mp hat
      simp only [hrealm, Dict.insert_self hident, Dict.insert_self hrealm]

/-- What an operation on a namespace comes to for its host. -/
theorem onSpace_perform (hspace : host.spaceOf? handle = some space)
    (operation : Operation Value) :
    Host.onSpace handle operation.perform host
      = match Step.result ⟨⟨space, host.world⟩, operation⟩ with
        | .ok reply => .ok reply (host.withScope handle (Step.after ⟨⟨space, host.world⟩, operation⟩))
        | .error e =>
          .error (.refused e)
            (host.withScope handle (Step.after ⟨⟨space, host.world⟩, operation⟩)) := by
  rw [onSpace_run, hspace]
  unfold Step.result Step.after EStateM.run
  simp only
  cases operation.perform ⟨space, host.world⟩ <;> rfl

/-- A namespace is not opened for want of an identifier only, and then nothing happens. -/
theorem openSpace_error_iff {name : String} {realm : Realm} (hrealm : host.realms[name]? = some realm)
    {handle ident : String} {error : HostError} :
    Host.openSpace handle name ident host = .error error after ↔
      realm.spaces[ident]? = none ∧ ident = "" ∧ error = .refused (.invalidNamespace ident) ∧
        after = host := by
  rw [openSpace_run, hrealm]
  simp only
  cases hopened : realm.openSpace ident host.world with
  | ok opened =>
      refine iff_of_false (by rintro ⟨⟩) ?_
      rintro ⟨habsent, hempty, -, -⟩
      rw [Realm.openSpace_eq_error_iff.mpr ⟨habsent, hempty, rfl⟩] at hopened
      cases hopened
  | error e =>
      obtain ⟨habsent, hempty, rfl⟩ := Realm.openSpace_eq_error_iff.mp hopened
      constructor
      · intro h
        cases h
        exact ⟨habsent, hempty, rfl, rfl⟩
      · rintro ⟨-, -, rfl, rfl⟩
        rfl

/--
**Operations are refused exactly for the causes that are told of, and a refusal leaves no trace.**
An operation fails exactly if its scope refuses it, with the cause that it is refused for; a
namespace is made exactly if its identifier is not empty, and a realm opens what it keeps and
what can be made.  Whatever fails then leaves the scope, and the host that it is part of, with
every table, realm, debugger, registry and value, as they were; but not a removal that has come
to a sibling that does not fit.
-/
theorem refusals_exact_and_traceless :
    (∀ (s : Scope) (operation : Operation Value) (e : BindError),
      Step.result ⟨s, operation⟩ = .error e ↔ s.Refuses operation e) ∧
    (∀ (s : Scope) (operation : Operation Value) (e : BindError), s.Refuses operation e →
      (∀ text, operation = .remove text → e = .invalidSpec text) →
        Step.after ⟨s, operation⟩ = s) ∧
    (∀ (ident : String) (debugger : DebuggerId) (e : BindError),
      Namespace.make ident debugger = .error e ↔ ident = "" ∧ e = .invalidNamespace ident) ∧
    (∀ (host : Host) (handle : String) (space : Namespace) (operation : Operation Value)
      (error : HostError) (after : Host), host.spaceOf? handle = some space →
        Host.onSpace handle operation.perform host = .error error after →
          ∃ e, error = .refused e ∧ Scope.Refuses ⟨space, host.world⟩ operation e ∧
            ((∀ text, operation = .remove text → e = .invalidSpec text) → after = host)) ∧
    (∀ (host : Host) (name : String) (realm : Realm) (handle ident : String) (error : HostError)
      (after : Host), host.realms[name]? = some realm →
        (Host.openSpace handle name ident host = .error error after ↔
          realm.spaces[ident]? = none ∧ ident = "" ∧
            error = .refused (.invalidNamespace ident) ∧ after = host)) := by
  refine ⟨fun s operation e => ⟨Scope.refuses_of_result, Scope.Refuses.result⟩,
    fun s operation e => Scope.Refuses.after, fun ident debugger e => Namespace.make_eq_error_iff,
    ?passed, fun host name realm handle ident error after hrealm => openSpace_error_iff hrealm⟩
  case passed =>
    intro host handle space operation error after hspace hfails
    rw [onSpace_perform hspace] at hfails
    cases hresult : Step.result ⟨⟨space, host.world⟩, operation⟩ with
    | ok reply =>
        rw [hresult] at hfails
        cases hfails
    | error e =>
        rw [hresult] at hfails
        cases hfails
        have hrefuses := Scope.refuses_of_result hresult
        refine ⟨e, rfl, hrefuses, fun hread => ?_⟩
        rw [hrefuses.after hread]
        exact withScope_self hspace

/-- A callable that is neither declared nor bound is not made up, and is still not there. -/
theorem absent_callable_refused :
    ∃ host after : Host, host.spaceOf? "main" = some ⟨"main", ∅, ⟨0⟩⟩ ∧
      Host.onSpace "main" (Operation.vivify "&f").perform host
        = .error (.refused (.vivifyUnsupported "main::f")) after ∧ after = host := by
  obtain ⟨-, -, -, hpassed, -⟩ := refusals_exact_and_traceless
  let space : Namespace := ⟨"main", ∅, ⟨0⟩⟩
  let host : Host := { seats := (∅ : Dict Seat).insert "main" (.owned space) }
  have hspace : host.spaceOf? "main" = some space := rfl
  have hrun : Host.onSpace "main" (Operation.vivify "&f").perform host
      = .error (.refused (.vivifyUnsupported "main::f")) host := rfl
  obtain ⟨e, he, -, hsame⟩ := hpassed host "main" space (.vivify "&f") _ _ hspace hrun
  exact ⟨host, host, hspace, hrun, hsame (by rintro text ⟨⟩)⟩

end Host

end Bindery
