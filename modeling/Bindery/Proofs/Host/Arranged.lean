/-
What commands about realms and handles come to.

A host makes realms, opens and closes their namespaces, and makes namespaces of its own.  What
each of these can leave behind is said here once, as the hosts that a command can lead to; all
that is to be known about these commands follows by cases.  A command that fails, or that only
looks, leaves the host still.
-/
import Bindery.Proofs.Host.Aside
import Bindery.Proofs.Host.Place

namespace Bindery

/-- To put in what is there changes nothing. -/
theorem Dict.insert_self {α : Type} {d : Dict α} {key : String} {a : α} (h : d[key]? = some a) :
    d.insert key a = d := by
  apply Std.ExtTreeMap.ext_getElem?
  intro other
  rw [Dict.getElem?_insert]
  by_cases hother : other = key
  · rw [if_pos hother, hother, h]
  · rw [if_neg hother]

/-- A realm with a new namespace. -/
def Realm.withNew (realm : Realm) (ident : String) : Realm :=
  { realm with spaces := realm.spaces.insert ident { ident, debugger := realm.debugger } }

/-- A realm without the namespace of an identifier. -/
def Realm.without (realm : Realm) (ident : String) : Realm :=
  { realm with spaces := realm.spaces.erase ident }

theorem Realm.getElem?_withNew (realm : Realm) (ident key : String) :
    (realm.withNew ident).spaces[key]?
      = if key = ident then some { ident, debugger := realm.debugger } else realm.spaces[key]? :=
  Dict.getElem?_insert realm.spaces ident _ key

theorem Realm.getElem?_without (realm : Realm) (ident key : String) :
    (realm.without ident).spaces[key]? = if key = ident then none else realm.spaces[key]? :=
  Dict.getElem?_erase realm.spaces ident key

namespace Host

/-- The host that a command about realms and handles can lead to. -/
inductive Arranges (host : Host) : RealmCommand → Host → Prop where
  /-- Nothing is changed. -/
  | still (command : RealmCommand) : Arranges host command host
  | made (name : String) (document? : Option String) (settings : Settings) :
      Arranges host (.make name document?)
        { host with
          world := (Realm.make settings host.world).2
          realms := host.realms.insert name (Realm.make settings host.world).1 }
  /-- The namespace is there, and the handle is pointed at it. -/
  | found {handle name ident : String} {realm : Realm} {space : Namespace}
      (there : host.realms[name]? = some realm) (kept : realm.spaces[ident]? = some space) :
      Arranges host (.openSpace handle name ident)
        { host with seats := host.seats.insert handle (.kept name ident) }
  | opened {handle name ident : String} {realm : Realm}
      (there : host.realms[name]? = some realm) (absent : realm.spaces[ident]? = none)
      (nonempty : ident ≠ "") :
      Arranges host (.openSpace handle name ident)
        { host with
          world := host.world.log [.namespaceCreated ident]
          realms := host.realms.insert name (realm.withNew ident)
          seats := host.seats.insert handle (.kept name ident) }
  | closed {name ident : String} {handle? : Option String} {realm : Realm} {space : Namespace}
      (there : host.realms[name]? = some realm) (kept : realm.spaces[ident]? = some space) :
      Arranges host (.closeSpace name ident handle?)
        { host with
          world := host.world.log [.namespaceRemoved ident]
          realms := host.realms.insert name { realm with spaces := realm.spaces.erase ident }
          seats := match handle? with
            | some handle => host.seats.insert handle (.owned space)
            | none => host.seats }
  /-- A namespace of a handle's own is refused, once its debugger is there. -/
  | refused (handle ident : String) {debugger? : Option DebuggerRef} {d : DebuggerId} {g : Debugging}
      (debugger : host.debuggerFor? debugger? = some (d, g)) :
      Arranges host (.newSpace handle ident debugger?) (host.setDebugging g)
  | seated {handle ident : String} {debugger? : Option DebuggerRef} {d : DebuggerId} {g : Debugging}
      (debugger : host.debuggerFor? debugger? = some (d, g)) (nonempty : ident ≠ "") :
      Arranges host (.newSpace handle ident debugger?)
        { host.setDebugging g with
          seats := host.seats.insert handle (.owned { ident, debugger := d }) }

/-- To open a namespace is answered by the identifier of what was opened. -/
theorem openSpace_eq (handle name ident : String) :
    Host.realmStep (.openSpace handle name ident)
      = Host.openSpace handle name ident >>= fun found => pure (Answer.text found) := rfl

/--
What a command about realms and handles may come to.  It answers no value, and where it fails
it changes nothing but debugging.
-/
def Settled (host : Host) (command : RealmCommand) : EStateM.Result HostError Host Answer → Prop
  | .ok answer after => host.Arranges command after ∧ ∀ value?, answer ≠ .value value?
  | .error _ after => host.Arranges command after ∧ host.Beside after

/-- What only looks at a realm changes nothing. -/
theorem settled_look {command : RealmCommand} {tell : Realm → Answer}
    (htell : ∀ realm value?, tell realm ≠ .value value?) (name : String) (host : Host) :
    host.Settled command ((Host.realm name >>= fun realm => pure (tell realm)) host) := by
  rw [bind_run, realm_run]
  cases host.realms[name]? with
  | none => exact ⟨.still _, .refl host⟩
  | some realm => exact ⟨.still _, htell realm⟩

theorem settled (command : RealmCommand) (host : Host) :
    host.Settled command (Host.realmStep command host) := by
  cases command with
  | make name document? =>
      rw [makeRealm_eq, bind_run]
      cases Settings.stated? document? with
      | none => exact ⟨.still _, .refl host⟩
      | some settings => exact ⟨.made name document? settings, by simp⟩
  | openSpace handle name ident =>
      rw [openSpace_eq, bind_run, openSpace_run]
      cases hrealm : host.realms[name]? with
      | none => exact ⟨.still _, .refl host⟩
      | some realm =>
          simp only [Realm.openSpace]
          cases hspace : realm.spaces[ident]? with
          | some space =>
              simp only [Dict.insert_self hrealm]
              exact ⟨.found hrealm hspace, by simp⟩
          | none =>
              by_cases hident : ident = ""
              · subst hident
                exact ⟨.still _, .refl host⟩
              · have hmade : Namespace.make ident realm.debugger
                    = .ok { ident, debugger := realm.debugger } := by
                  simp [Namespace.make, hident]
                simp only [hmade]
                exact ⟨.opened hrealm hspace hident, by simp⟩
  | newSpace handle ident debugger? =>
      obtain ⟨e, hrun⟩ := newSpace_run handle ident debugger? host
      rw [hrun]
      cases hdebugger : host.debuggerFor? debugger? with
      | none => exact ⟨.still _, .refl host⟩
      | some made =>
          obtain ⟨d, g⟩ := made
          by_cases hident : ident = ""
          · subst hident
            exact ⟨.refused handle "" hdebugger, ⟨rfl, rfl⟩, rfl, rfl, rfl, rfl⟩
          · have hmade : Namespace.make ident d = .ok { ident, debugger := d } := by
              simp [Namespace.make, hident]
            simp only [hmade]
            exact ⟨.seated hdebugger hident, by simp⟩
  | find name ident => exact settled_look (fun _ _ => by simp) name host
  | closeSpace name ident handle? =>
      rw [closeSpace_run]
      cases hrealm : host.realms[name]? with
      | none => exact ⟨.still _, .refl host⟩
      | some realm =>
          simp only [Realm.closeSpace]
          cases hspace : realm.spaces[ident]? with
          | none =>
              simp only [Dict.insert_self hrealm]
              exact ⟨.still _, by simp⟩
          | some space =>
              have hclosed := @Arranges.closed host name ident handle? realm space hrealm hspace
              cases handle? <;> exact ⟨hclosed, by simp⟩
  | idents name => exact settled_look (fun _ _ => by simp) name host

variable {command : RealmCommand} {host after : Host}

/-- **What commands about realms and handles come to.** -/
theorem arranges (command : RealmCommand) (host : Host) :
    Arranges host command (left (Host.realmStep command host)) := by
  have hsettled := settled command host
  cases hstep : Host.realmStep command host with
  | ok answer after =>
      rw [hstep] at hsettled
      exact hsettled.1
  | error e after =>
      rw [hstep] at hsettled
      exact hsettled.1

/-- A command about realms and handles that fails changes nothing but debugging. -/
theorem realmStep_failed {e : HostError} (h : Host.realmStep command host = .error e after) :
    host.Beside after := by
  have hsettled := settled command host
  rw [h] at hsettled
  exact hsettled.2

/-- A command about realms and handles answers no value. -/
theorem realmStep_no_value (command : RealmCommand) :
    Always (fun answer => ∀ value?, answer ≠ .value value?) (Host.realmStep command) := by
  intro host answer after h
  have hsettled := settled command host
  rw [h] at hsettled
  exact hsettled.2

theorem arranges_newRealm (name : String) (settings : Settings) (host : Host) :
    Arranges host (.make name none) (left (newRealm name settings host)) :=
  .made name none settings

theorem arranges_openSpace (handle name ident : String) (host : Host) :
    Arranges host (.openSpace handle name ident) (left (openSpace handle name ident host)) := by
  have hleft : left (Host.realmStep (.openSpace handle name ident) host)
      = left (openSpace handle name ident host) := by
    rw [openSpace_eq, bind_run]
    cases openSpace handle name ident host <;> rfl
  exact hleft ▸ arranges (.openSpace handle name ident) host

/-- Where a namespace comes from that is in a place after a command about realms and handles. -/
inductive Origin (host after : Host) (command : RealmCommand) (place : Place) (space : Namespace) :
    Prop where
  | stayed (before : host.spaceAt? place = some space)
  | taken {name ident handle : String} (command : command = .closeSpace name ident (some handle))
      (here : place = .owned handle) (before : host.spaceAt? (.kept name ident) = some space)
  | opened {name ident : String} {realm : Realm} (here : place = .kept name ident)
      (there : host.realms[name]? = some realm) (new : space = { ident, debugger := realm.debugger })
  | seated {handle ident : String} {debugger? : Option DebuggerRef} {d : DebuggerId} {g : Debugging}
      (here : place = .owned handle) (debugger : host.debuggerFor? debugger? = some (d, g))
      (debugging : after.world.debugging = g) (new : space = { ident, debugger := d })

namespace Arranges

variable {host after : Host} {command : RealmCommand} (h : host.Arranges command after)
include h

/-- Values are left alone. -/
theorem values : after.world.heap = host.world.heap ∧ after.registers = host.registers ∧
    after.tables = host.tables := by
  cases h <;> exact ⟨rfl, rfl, rfl⟩

/-- **Where the namespaces come from that are there after a command about realms and handles.** -/
theorem origin {place : Place} {space : Namespace} (hspace : after.spaceAt? place = some space) :
    host.Origin after command place space := by
  cases h with
  | still => exact .stayed hspace
  | made name document? settings =>
      cases place with
      | owned handle => exact .stayed hspace
      | kept other key =>
          have hkept := (spaceAt?_insertRealm name _ other key).symm.trans hspace
          split at hkept
          · simp [Realm.make] at hkept
          · exact .stayed hkept
  | @found handle name ident realm space there kept =>
      have hfound := (host.spaceAt?_point handle _ place).symm.trans hspace
      split at hfound
      · cases hfound
      · exact .stayed hfound
  | @opened handle name ident realm there absent nonempty =>
      have hpointed := ((host.withRealm name (realm.withNew ident)).spaceAt?_point handle _
        place).symm.trans hspace
      split at hpointed
      · cases hpointed
      · rw [spaceAt?_changeRealm there (realm.getElem?_withNew ident)] at hpointed
        split at hpointed
        · next hplace =>
            cases hpointed
            exact .opened hplace there rfl
        · exact .stayed hpointed
  | @closed name ident handle? realm closed there kept =>
      have hstayed (hleft : (host.withRealm name (realm.without ident)).spaceAt? place = some space) :
          host.spaceAt? place = some space := by
        rw [spaceAt?_changeRealm there (realm.getElem?_without ident)] at hleft
        split at hleft
        · cases hleft
        · exact hleft
      cases handle? with
      | none => exact .stayed (hstayed hspace)
      | some handle =>
          have hpointed := ((host.withRealm name (realm.without ident)).spaceAt?_point handle _
            place).symm.trans hspace
          split at hpointed
          · next hplace =>
              cases hpointed
              exact .taken rfl hplace ((spaceAt?_of_realm there ident).trans kept)
          · exact .stayed (hstayed hpointed)
  | refused => exact .stayed hspace
  | @seated handle ident debugger? d g debugger nonempty =>
      have hseated := (spaceAt?_point (host.setDebugging g) handle _ place).symm.trans hspace
      split at hseated
      · next hplace =>
          cases hseated
          exact .seated hplace debugger rfl rfl
      · exact .stayed hseated

/-- Each namespace was there before, in whatever place, or it has no names yet. -/
theorem space {place : Place} {space : Namespace} (hspace : after.spaceAt? place = some space) :
    (∃ place', host.spaceAt? place' = some space) ∨ space.table = ∅ := by
  cases h.origin hspace with
  | stayed before => exact Or.inl ⟨_, before⟩
  | taken command here before => exact Or.inl ⟨_, before⟩
  | opened here there new => exact Or.inr (new ▸ rfl)
  | seated here debugger debugging new => exact Or.inr (new ▸ rfl)

end Arranges

end Host

end Bindery
