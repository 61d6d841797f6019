/-
What a turn is addressed to, and what it leaves alone.

A turn is addressed to a place if something is asked of the namespace there, or if a realm or a
handle is changed so that another namespace is there, or none.  All other places hold what they
held: other namespaces of the same realm, those of other realms, and those that handles hold,
whether they were made so or given up by a realm.

A turn does one of four things.  It arranges realms and handles, it is about debugging, it passes
a request on to one namespace, or it moves nothing.  What is to be known of all turns follows by
these four cases.
-/
import Bindery.Proofs.Host.Asked

namespace Bindery.Host

/-! ### Addressed places -/

/-- A command about realms and handles, if it is done, puts another namespace in a place, or none. -/
inductive Rearranges (host : Host) : RealmCommand → Place → Prop where
  /-- A realm that is made takes the place of one of the same name. -/
  | made (name : String) (document? : Option String) (ident : String) :
      Rearranges host (.make name document?) (.kept name ident)
  | opened (handle : String) {name ident : String} (absent : host.spaceAt? (.kept name ident) = none) :
      Rearranges host (.openSpace handle name ident) (.kept name ident)
  /-- A handle that is pointed at a realm holds nothing. -/
  | pointed (handle name ident : String) :
      Rearranges host (.openSpace handle name ident) (.owned handle)
  | seated (handle ident : String) (debugger? : Option DebuggerRef) :
      Rearranges host (.newSpace handle ident debugger?) (.owned handle)
  | closed (name ident : String) (handle? : Option String) :
      Rearranges host (.closeSpace name ident handle?) (.kept name ident)
  /-- A handle is given the namespace that is closed. -/
  | taken {name ident : String} (handle : String)
      (present : host.spaceAt? (.kept name ident) ≠ none) :
      Rearranges host (.closeSpace name ident (some handle)) (.owned handle)

namespace Turn

/-- A turn asks something of the namespace in a place. -/
def Asks (turn : Turn) (place : Place) (asked : Asked) : Prop :=
  ∃ handle, turn.asked? = some (handle, asked) ∧ turn.before.placeOf? handle = some place

/-- A turn is addressed to a place. -/
def Addresses (turn : Turn) (place : Place) : Prop :=
  (∃ asked, turn.Asks place asked) ∨
    ∃ about answer, turn.command = .realm about ∧ turn.outcome.result = .ok answer ∧
      turn.before.Rearranges about place

end Turn

/-- A turn asks one thing of one namespace, if it asks anything. -/
theorem Turn.Asks.unique {turn : Turn} {place place' : Place} {asked asked' : Asked}
    (h : turn.Asks place asked) (h' : turn.Asks place' asked') : place' = place ∧ asked' = asked := by
  obtain ⟨handle, hasked, hplace⟩ := h
  obtain ⟨handle', hasked', hplace'⟩ := h'
  rw [hasked] at hasked'
  cases hasked'
  rw [hplace] at hplace'
  cases hplace'
  exact ⟨rfl, rfl⟩

/-! ### What turns do -/

variable {host after last : Host} {handle : String} {asked : Asked}

theorem Passes.followed (h : host.Passes handle asked after) (hunmoved : after.Unmoved last) :
    host.Passes handle asked last where
  space := h.space
  world := h.world
  unmoved := h.unmoved.trans hunmoved

/-- What a turn does. -/
inductive Turn.Does (turn : Turn) : Prop where
  | arranges {about : RealmCommand} {after : Host} (command : turn.command = .realm about)
      (arranged : turn.before.Arranges about after)
      (failed : ∀ e, turn.outcome.result = .error e → turn.before.Beside after)
      (unmoved : after.Unmoved turn.outcome.host)
  | debugs {about : DebugCommand} (command : turn.command = .debugging about)
      (unmoved : (left (Host.debugStep about turn.before)).Unmoved turn.outcome.host)
  | asks {handle : String} {asked : Asked} (found : turn.asked? = some (handle, asked))
      (passes : turn.before.Passes handle asked turn.outcome.host)
  | nothing (quiet : turn.asked? = none) (unmoved : turn.before.Unmoved turn.outcome.host)

theorem Turn.does (turn : Turn) : turn.Does := by
  have hleft := turn.left_eq.1
  by_cases hrealm : ∃ about, turn.command = .realm about
  · obtain ⟨about, hcommand⟩ := hrealm
    have hresult := turn.result_eq
    rw [hcommand] at hleft hresult
    refine .arranges hcommand (Host.arranges about turn.before) ?_ hleft
    intro e he
    rw [he] at hresult
    show turn.before.Beside (left (perform (.realm about) turn.before))
    cases hstep : perform (.realm about) turn.before with
    | ok answer after =>
        rw [hstep] at hresult
        cases hresult
    | error e after => exact realmStep_failed hstep
  · by_cases hdebugging : ∃ about, turn.command = .debugging about
    · obtain ⟨about, hcommand⟩ := hdebugging
      rw [hcommand] at hleft
      exact .debugs hcommand hleft
    · cases hasked : turn.asked? with
      | some found =>
          obtain ⟨handle, asked⟩ := found
          exact .asks hasked ((passes_of_asked hasked).followed hleft)
      | none =>
          have hunmoved := unmoved_of_not_asked hasked (fun about h => hrealm ⟨about, h⟩)
            fun about h => hdebugging ⟨about, h⟩
          exact .nothing hasked (hunmoved.trans hleft)

/-- A command about realms or debugging asks nothing of a namespace. -/
theorem Turn.asked?_eq_none {turn : Turn}
    (h : (∃ about, turn.command = .realm about) ∨ ∃ about, turn.command = .debugging about) :
    turn.asked? = none := by
  unfold Turn.asked?
  rcases h with ⟨about, hcommand⟩ | ⟨about, hcommand⟩
  · rw [hcommand]
    rfl
  · rw [hcommand]
    rfl

/-! ### Places -/

/-- A request changes the namespace that it is asked of and no other. -/
theorem Passes.spaceAt? (h : host.Passes handle asked after) {place : Place}
    (hplace : host.placeOf? handle = some place) (other : Place) :
    after.spaceAt? other
      = if other = place then some asked.after.space else host.spaceAt? other := by
  have hsame (other : Place) : Host.spaceAt? { host with world := asked.after.world } other
      = host.spaceAt? other := spaceAt?_congr rfl rfl other
  have hthere : Host.spaceAt? { host with world := asked.after.world } place
      = some asked.before.space := by
    have hspace := h.space
    rw [spaceOf?_eq, hplace] at hspace
    exact (hsame place).trans hspace
  rw [h.unmoved.spaceAt?, ← hsame other]
  exact @spaceAt?_withSpace { host with world := asked.after.world } handle place _ hplace hthere
    asked.after.space other

theorem Arranges.spaceAt? {about : RealmCommand} (h : host.Arranges about after) {place : Place}
    (hplace : ¬ host.Rearranges about place) : after.spaceAt? place = host.spaceAt? place := by
  cases h with
  | still => rfl
  | made name document? settings =>
      cases place with
      | owned key => rfl
      | kept other key =>
          refine (@spaceAt?_insertRealm host name _ other key).trans (if_neg ?_)
          rintro rfl
          exact hplace (.made other document? key)
  | @found handle name ident realm space there kept =>
      refine (host.spaceAt?_point handle _ place).trans (if_neg ?_)
      rintro rfl
      exact hplace (.pointed handle name ident)
  | @opened handle name ident realm there absent nonempty =>
      have hpointed := (host.withRealm name (realm.withNew ident)).spaceAt?_point handle
        (.kept name ident) place
      refine hpointed.trans ?_
      rw [if_neg, spaceAt?_changeRealm there (realm.getElem?_withNew ident), if_neg]
      · rintro rfl
        exact hplace (.opened handle ((spaceAt?_of_realm there ident).trans absent))
      · rintro rfl
        exact hplace (.pointed handle name ident)
  | @closed name ident handle? realm space there kept =>
      have hclosed : (host.withRealm name (realm.without ident)).spaceAt? place
          = host.spaceAt? place := by
        rw [spaceAt?_changeRealm there (realm.getElem?_without ident), if_neg]
        rintro rfl
        exact hplace (.closed name ident handle?)
      cases handle? with
      | none => exact hclosed
      | some handle =>
          have hpointed := (host.withRealm name (realm.without ident)).spaceAt?_point handle
            (.owned space) place
          refine (hpointed.trans (if_neg ?_)).trans hclosed
          rintro rfl
          refine hplace (.taken handle ?_)
          rw [spaceAt?_of_realm there, kept]
          simp
  | refused => rfl
  | @seated handle ident debugger? d g debugger nonempty =>
      refine (host.spaceAt?_point handle _ place).trans (if_neg ?_)
      rintro rfl
      exact hplace (.seated handle ident debugger?)

/-- **What a turn is not addressed to holds what it held.** -/
theorem Turn.spaceAt?_of_not_addressed {turn : Turn} {place : Place}
    (hplace : ¬ turn.Addresses place) :
    turn.outcome.host.spaceAt? place = turn.before.spaceAt? place := by
  cases turn.does with
  | arranges command arranged failed unmoved =>
      rw [unmoved.spaceAt?]
      cases hresult : turn.outcome.result with
      | error e =>
          have hbeside := failed e hresult
          exact spaceAt?_congr hbeside.realms hbeside.seats place
      | ok answer =>
          exact arranged.spaceAt? fun h => hplace (Or.inr ⟨_, answer, command, hresult, h⟩)
  | @debugs about command unmoved =>
      have hbeside := (Aside.debugStep about).beside turn.before
      rw [unmoved.spaceAt?, spaceAt?_congr hbeside.realms hbeside.seats]
  | @asks handle asked hasked passes =>
      obtain ⟨stood, hstood, -⟩ := placeOf?_of_space passes.space
      rw [passes.spaceAt? hstood, if_neg]
      rintro rfl
      exact hplace (Or.inl ⟨asked, handle, hasked, hstood⟩)
  | nothing quiet unmoved => exact unmoved.spaceAt? place

/-- What is asked something holds what the request leaves. -/
theorem Turn.Asks.spaceAt? {turn : Turn} {place : Place} {asked : Asked} (h : turn.Asks place asked) :
    turn.before.spaceAt? place = some asked.before.space ∧
      turn.outcome.host.spaceAt? place = some asked.after.space := by
  obtain ⟨handle, hasked, hplace⟩ := h
  have hpasses := (passes_of_asked hasked).followed turn.left_eq.1
  refine ⟨?_, ?_⟩
  · have hspace := hpasses.space
    rw [spaceOf?_eq, hplace] at hspace
    exact hspace
  · rw [hpasses.spaceAt? hplace, if_pos rfl]

/-! ### Realms -/

/--
A namespace that is put where a handle points leaves the other realms as they are, and of its own
realm all but the namespace.
-/
theorem realms_withSpace (host : Host) (handle : String) (space : Namespace) (name : String) :
    (host.withSpace handle space).realms[name]? = host.realms[name]? ∨
      ∃ ident realm, host.placeOf? handle = some (.kept name ident) ∧
        host.realms[name]? = some realm ∧
        (host.withSpace handle space).realms[name]?
          = some { realm with spaces := realm.spaces.insert ident space } := by
  unfold withSpace placeOf?
  cases hseat : host.seats[handle]? with
  | none => exact Or.inl rfl
  | some seat =>
      cases seat with
      | owned _ => exact Or.inl rfl
      | kept other ident =>
          simp only
          cases hrealm : host.realms[other]? with
          | none => exact Or.inl rfl
          | some realm =>
              simp only [Dict.getElem?_insert]
              by_cases hname : name = other
              · subst hname
                rw [if_pos rfl]
                exact Or.inr ⟨ident, realm, rfl, hrealm, rfl⟩
              · rw [if_neg hname]
                exact Or.inl rfl

theorem Arranges.realms {about : RealmCommand} (h : host.Arranges about after) {name : String}
    (hname : ∀ ident, ¬ host.Rearranges about (.kept name ident)) :
    after.realms[name]? = host.realms[name]? := by
  have hinsert {other ident : String} {realm : Realm} (h : host.Rearranges about (.kept other ident)) :
      (host.realms.insert other realm)[name]? = host.realms[name]? := by
    rw [Dict.getElem?_insert, if_neg]
    rintro rfl
    exact hname ident h
  cases h with
  | made other document? settings => exact hinsert (.made other document? "")
  | @opened handle other ident realm there absent nonempty =>
      exact hinsert (.opened handle ((spaceAt?_of_realm there ident).trans absent))
  | @closed other ident handle? realm space there kept =>
      exact hinsert (.closed other ident handle?)
  | _ => rfl

end Bindery.Host
