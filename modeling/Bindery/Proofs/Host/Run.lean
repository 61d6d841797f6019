/-
What the actions of a host come to.

An action of a host is put together of parts that find something, change something or fail.
Here it is said as a whole what comes of one part after another, of an attempt, and of what
is done with realms.
-/
import Bindery.Host.Step

namespace Bindery.Host

/-- The host that an outcome leaves behind. -/
def left {α : Type} : EStateM.Result HostError Host α → Host
  | .ok _ host => host
  | .error _ host => host

theorem bind_run {α β : Type} (act : Action α) (next : α → Action β) (host : Host) :
    (act >>= next) host = match act host with
      | .ok a after => next a after
      | .error e after => .error e after := by
  show EStateM.bind act next host = _
  unfold EStateM.bind
  cases act host <;> rfl

theorem get_run (host : Host) : (MonadState.get : Action Host) host = .ok host host := rfl

/-! ### Attempts -/

theorem attempt_host {α : Type} (act : Action α) (host : Host) :
    (attempt act host).host
      = { left (act host) with world := { (left (act host)).world with trace := #[] } } := by
  unfold attempt
  cases act host <;> rfl

theorem attempt_events {α : Type} (act : Action α) (host : Host) :
    (attempt act host).events = (left (act host)).world.trace.toList := by
  unfold attempt
  cases act host <;> rfl

/-! ### Realms -/

theorem realm_run (name : String) (host : Host) :
    Host.realm name host = match host.realms[name]? with
      | some realm => .ok realm host
      | none => .error .noRealm host := by
  show Host.require host.realms[name]? .noRealm host = _
  cases host.realms[name]? <;> rfl

theorem openSpace_run (handle name ident : String) (host : Host) :
    Host.openSpace handle name ident host = match host.realms[name]? with
      | none => .error .noRealm host
      | some found =>
        match found.openSpace ident host.world with
        | .error e => .error (.refused e) host
        | .ok (space, changed, world) =>
          .ok space.ident { host with
            world, realms := host.realms.insert name changed,
            seats := host.seats.insert handle (.kept name ident) } := by
  unfold Host.openSpace
  rw [bind_run, realm_run]
  cases host.realms[name]? with
  | none => rfl
  | some found =>
      simp only [bind_run, get_run]
      cases found.openSpace ident host.world <;> rfl

theorem closeSpace_run (name ident : String) (handle? : Option String) (host : Host) :
    Host.realmStep (.closeSpace name ident handle?) host = match host.realms[name]? with
      | none => .error .noRealm host
      | some found =>
        let closed := found.closeSpace ident host.world
        let after := { host with
          world := closed.2.2, realms := host.realms.insert name closed.2.1 }
        .ok (.flag closed.1.isSome) <| match closed.1, handle? with
          | some space, some handle =>
            { after with seats := after.seats.insert handle (.owned space) }
          | _, _ => after := by
  unfold Host.realmStep
  simp only [bind_run, realm_run]
  cases host.realms[name]? with
  | none => rfl
  | some found =>
      simp only [get_run]
      obtain ⟨removed?, changed, world⟩ := found.closeSpace ident host.world
      cases removed? <;> cases handle? <;> rfl

end Bindery.Host
