/-
Where the namespaces of a host are.

A host comes to a namespace by way of a handle, but it is not the handle that keeps it.  A
namespace is in one place only: kept by a realm under an identifier, or owned by a handle
alone.  Several handles can stand for the same place in a realm, and a place in a realm can be
there though no handle stands for it.

Here the places of a host are read off after each change of its realms and handles.
-/
import Bindery.Proofs.Host.Sending

namespace Bindery

/-- Where a namespace is. -/
inductive Place where
  | kept (realm ident : String)
  | owned (handle : String)
  deriving DecidableEq

/-- The namespace that a handle holds itself, if it holds one. -/
def Seat.owned? : Seat → Option Namespace
  | kept _ _ => none
  | owned space => some space

namespace Host

/-- The namespace in a place, if there is one. -/
def spaceAt? (host : Host) : Place → Option Namespace
  | .kept realm ident => host.realms[realm]?.bind (·.spaces[ident]?)
  | .owned handle => host.seats[handle]?.bind Seat.owned?

/-- The place that a handle stands for, whether or not a namespace is there. -/
def placeOf? (host : Host) (handle : String) : Option Place :=
  host.seats[handle]?.map fun
    | .kept realm ident => .kept realm ident
    | .owned _ => .owned handle

variable {host after : Host}

/-- The namespace of a handle is the one in the place that it stands for. -/
theorem spaceOf?_eq (host : Host) (handle : String) :
    host.spaceOf? handle = (host.placeOf? handle).bind host.spaceAt? := by
  unfold spaceOf? placeOf?
  cases hseat : host.seats[handle]? with
  | none => rfl
  | some seat =>
      cases seat with
      | kept realm ident => rfl
      | owned space => simp [atSeat?, spaceAt?, hseat, Seat.owned?]

/-- A handle that has a namespace stands for the place where it is. -/
theorem placeOf?_of_space {handle : String} {space : Namespace}
    (hspace : host.spaceOf? handle = some space) :
    ∃ place, host.placeOf? handle = some place ∧ host.spaceAt? place = some space := by
  rw [spaceOf?_eq] at hspace
  exact Option.bind_eq_some_iff.mp hspace

/-- Hosts with the same realms and handles have the same namespaces in the same places. -/
theorem spaceAt?_congr (hrealms : after.realms = host.realms) (hseats : after.seats = host.seats)
    (place : Place) : after.spaceAt? place = host.spaceAt? place := by
  unfold spaceAt?
  rw [hrealms, hseats]

/-- What a realm keeps is in a place of the realm. -/
theorem spaceAt?_of_realm {name : String} {realm : Realm} (there : host.realms[name]? = some realm)
    (ident : String) : host.spaceAt? (.kept name ident) = realm.spaces[ident]? := by
  show host.realms[name]?.bind _ = _
  rw [there]
  rfl

/-! ### Changes -/

/-- The host with a realm under a name. -/
def withRealm (host : Host) (name : String) (realm : Realm) : Host :=
  { host with realms := host.realms.insert name realm }

/-- A place in a realm that is put in is a place in that realm. -/
theorem spaceAt?_insertRealm (name : String) (realm : Realm) (other ident : String) :
    (host.withRealm name realm).spaceAt? (.kept other ident)
      = if other = name then realm.spaces[ident]? else host.spaceAt? (.kept other ident) := by
  show ((host.realms.insert name realm)[other]?.bind _) = _
  rw [Dict.getElem?_insert]
  by_cases hother : other = name
  · rw [if_pos hother, if_pos hother, Option.bind_some]
  · rw [if_neg hother, if_neg hother]
    rfl

/-- A handle that is pointed elsewhere holds what it is pointed at. -/
theorem spaceAt?_insertSeat (name : String) (seat : Seat) (handle : String) :
    spaceAt? { host with seats := host.seats.insert name seat } (.owned handle)
      = if handle = name then seat.owned? else host.spaceAt? (.owned handle) := by
  show ((host.seats.insert name seat)[handle]?.bind _) = _
  rw [Dict.getElem?_insert]
  by_cases hhandle : handle = name
  · rw [if_pos hhandle, if_pos hhandle, Option.bind_some]
  · rw [if_neg hhandle, if_neg hhandle]
    rfl

/-- To point a handle elsewhere is about its own place only. -/
theorem spaceAt?_point (host : Host) (handle : String) (seat : Seat) (place : Place) :
    spaceAt? { host with seats := host.seats.insert handle seat } place
      = if place = .owned handle then seat.owned? else host.spaceAt? place := by
  cases place with
  | kept name ident => rfl
  | owned other => simp only [spaceAt?_insertSeat, Place.owned.injEq]

/-- To change a realm under one identifier is about that place only. -/
theorem spaceAt?_changeRealm {name ident : String} {realm realm' : Realm}
    {space? : Option Namespace} (there : host.realms[name]? = some realm)
    (hspaces : ∀ key, realm'.spaces[key]? = if key = ident then space? else realm.spaces[key]?)
    (place : Place) :
    (host.withRealm name realm').spaceAt? place
      = if place = .kept name ident then space? else host.spaceAt? place := by
  cases place with
  | owned handle => rfl
  | kept other key =>
      simp only [spaceAt?_insertRealm, Place.kept.injEq]
      by_cases hother : other = name
      · subst hother
        rw [if_pos rfl, hspaces, spaceAt?_of_realm there]
        by_cases hkey : key = ident
        · rw [if_pos hkey, if_pos ⟨rfl, hkey⟩]
        · rw [if_neg hkey, if_neg (fun h => hkey h.2)]
      · rw [if_neg hother, if_neg (fun h => hother h.1)]

/-- **Another namespace where a handle points is in that place, and all others are as they were.** -/
theorem spaceAt?_withSpace {handle : String} {place : Place} {before : Namespace}
    (hplace : host.placeOf? handle = some place) (hbefore : host.spaceAt? place = some before)
    (space : Namespace) (other : Place) :
    (host.withSpace handle space).spaceAt? other
      = if other = place then some space else host.spaceAt? other := by
  obtain ⟨seat, hseat, rfl⟩ := Option.map_eq_some_iff.mp hplace
  unfold withSpace
  rw [hseat]
  cases seat with
  | owned _ => exact host.spaceAt?_point handle (.owned space) other
  | kept name ident =>
      obtain ⟨realm, hrealm, -⟩ := Option.bind_eq_some_iff.mp hbefore
      simp only [hrealm]
      exact spaceAt?_changeRealm hrealm (Dict.getElem?_insert realm.spaces ident space) other

/-- Whatever namespace is put where a handle points, handles point where they did. -/
theorem placeOf?_withSpace (host : Host) (handle : String) (space : Namespace) (other : String) :
    (host.withSpace handle space).placeOf? other = host.placeOf? other := by
  unfold withSpace
  cases hseat : host.seats[handle]? with
  | none => rfl
  | some seat =>
      cases seat with
      | kept name ident =>
          simp only
          cases host.realms[name]? <;> rfl
      | owned before =>
          unfold placeOf?
          simp only [Dict.getElem?_insert]
          by_cases hother : other = handle
          · rw [if_pos hother, hother, hseat]
            rfl
          · rw [if_neg hother]

/-- A handle that has a namespace has the one that is put where it points. -/
theorem spaceOf?_withSpace {handle : String} {before : Namespace}
    (hbefore : host.spaceOf? handle = some before) (space : Namespace) :
    (host.withSpace handle space).spaceOf? handle = some space := by
  obtain ⟨place, hplace, hthere⟩ := placeOf?_of_space hbefore
  rw [spaceOf?_eq, placeOf?_withSpace, hplace]
  show (host.withSpace handle space).spaceAt? place = _
  rw [spaceAt?_withSpace hplace hthere, if_pos rfl]

theorem world_withSpace (host : Host) (handle : String) (space : Namespace) :
    (host.withSpace handle space).world = host.world := by
  unfold withSpace
  split
  · split <;> rfl
  · rfl
  · rfl

/-- Beside the namespace nothing is changed by another one where a handle points. -/
theorem withSpace_rest (host : Host) (handle : String) (space : Namespace) :
    (host.withSpace handle space).registers = host.registers ∧
      (host.withSpace handle space).tables = host.tables := by
  unfold withSpace
  split
  · split <;> exact ⟨rfl, rfl⟩
  · exact ⟨rfl, rfl⟩
  · exact ⟨rfl, rfl⟩

/-- A table that was saved takes the place of the one of the namespace of a handle. -/
theorem load_run (handle name : String) (host : Host) :
    Host.tableStep handle (.load name) host = match host.spaceOf? handle with
      | none => .error .noNamespace host
      | some space =>
        match host.tables[name]? with
        | none => .error .noTable host
        | some table => .ok .done (host.withSpace handle { space with table }) := by
  show (Host.space handle >>= fun space => _) host = _
  rw [bind_run, space_run]
  cases host.spaceOf? handle with
  | none => rfl
  | some space =>
      show (Host.require host.tables[name]? .noTable >>= fun table => _) host = _
      cases host.tables[name]? <;> rfl

end Host

end Bindery
