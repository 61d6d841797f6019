/-
The namespaces of a realm over whole runs.

A realm makes namespaces and gives them up, and whoever was given one goes on using it.  The
estate of a realm is the realm together with all namespaces that it gave up so far, in the
order in which they were given up, so that what becomes of them can be followed too.  A deed
opens, finds or closes a namespace of the realm, or asks something of one, kept or given up.

What carries a run is that each namespace is kept under its own identifier and that all of
them, kept or given up, have the debugger of the realm.  Which identifiers are kept is told by
the deeds alone: those that were opened and not closed since.
-/
import Bindery.Proofs.Namespace.Request
import Bindery.Realm

namespace Bindery

/-- A realm, the namespaces that it gave up, and the world. -/
structure Estate where
  realm : Realm
  givenUp : List Namespace := []
  world : World

/-- A namespace of an estate: kept under an identifier, or given up in its turn. -/
inductive Tenant where
  | kept (ident : String)
  | givenUp (number : Nat)
  deriving DecidableEq

/-- What is done with an estate. -/
inductive Deed where
  | openSpace (ident : String)
  | findSpace (ident : String)
  | closeSpace (ident : String)
  | request (tenant : Tenant) (request : Request)

/-- A deed is done to a namespace: something is asked of it, or it is closed. -/
inductive Deed.Concerns : Deed → Tenant → Prop where
  | asked (tenant : Tenant) (request : Request) : Concerns (.request tenant request) tenant
  | closed (ident : String) : Concerns (.closeSpace ident) (.kept ident)

namespace Estate

/-- What a deed gives. -/
inductive Yield where
  /-- The namespace that was opened, found or closed, if there was one. -/
  | space (space? : Option Namespace)
  | response (response : Response)
  /-- There is no such namespace to ask. -/
  | vacant

/-- The estate of a new realm. -/
def make (settings : Settings) (w : World) : Estate :=
  { realm := (Realm.make settings w).1, world := (Realm.make settings w).2 }

/-- A namespace of an estate, if it is there. -/
def space? (estate : Estate) : Tenant → Option Namespace
  | .kept ident => estate.realm.spaces[ident]?
  | .givenUp number => estate.givenUp[number]?

/-- The estate with another namespace in the place of one. -/
def withSpace (estate : Estate) (space : Namespace) : Tenant → Estate
  | .kept ident =>
    { estate with realm := { estate.realm with spaces := estate.realm.spaces.insert ident space } }
  | .givenUp number => { estate with givenUp := estate.givenUp.set number space }

/-- Does a deed: what it gives, or why it is refused, and the estate that it leaves. -/
def perform (estate : Estate) : Deed → Except BindError Yield × Estate
  | .openSpace ident =>
    match estate.realm.openSpace ident estate.world with
    | .ok (space, realm, world) => (.ok (.space (some space)), { estate with realm, world })
    | .error e => (.error e, estate)
  | .findSpace ident => (.ok (.space estate.realm.spaces[ident]?), estate)
  | .closeSpace ident =>
    let (removed?, realm, world) := estate.realm.closeSpace ident estate.world
    (.ok (.space removed?), ⟨realm, estate.givenUp ++ removed?.toList, world⟩)
  | .request tenant request =>
    match estate.space? tenant with
    | some space =>
      let asked : Asked := ⟨⟨space, estate.world⟩, request⟩
      (asked.result.map .response,
        { estate.withSpace asked.after.space tenant with world := asked.after.world })
    | none => (.ok .vacant, estate)

/-- A deed and the estate it is done to. -/
structure Turn where
  before : Estate
  deed : Deed

namespace Turn

/-- What the deed gives, or why it is refused. -/
def result (turn : Turn) : Except BindError Yield :=
  (turn.before.perform turn.deed).1

/-- The estate that is left. -/
def after (turn : Turn) : Estate :=
  (turn.before.perform turn.deed).2

end Turn

/--
A run leads from a realm that is just made through deeds to an estate.  Between two deeds the
world may become any other, since there are other realms and namespaces in it.
-/
inductive Run : List Turn → Estate → Prop where
  | make (settings : Settings) (w : World) : Run [] (make settings w)
  | turn {turns : List Turn} {estate : Estate} (run : Run turns estate) (deed : Deed) :
      Run (turns ++ [⟨estate, deed⟩]) (Turn.after ⟨estate, deed⟩)
  | elsewhere {turns : List Turn} {estate : Estate} (run : Run turns estate) (world : World) :
      Run turns { estate with world }

variable {estate : Estate}

/-! ### What each deed does -/

theorem perform_openSpace_kept {ident : String} {space : Namespace}
    (h : estate.realm.spaces[ident]? = some space) :
    estate.perform (.openSpace ident) = (.ok (.space (some space)), estate) := by
  simp only [perform, Realm.openSpace, h]

theorem perform_openSpace_new {ident : String} (h : estate.realm.spaces[ident]? = none)
    (hident : ident ≠ "") :
    estate.perform (.openSpace ident) =
      (.ok (.space (some { ident, debugger := estate.realm.debugger })),
        { estate with
          realm := { estate.realm with
            spaces := estate.realm.spaces.insert ident
              { ident, debugger := estate.realm.debugger } }
          world := estate.world.log [.namespaceCreated ident] }) := by
  have hmade : Namespace.make ident estate.realm.debugger
      = .ok { ident, debugger := estate.realm.debugger } := by
    simp [Namespace.make, hident]
  simp only [perform, Realm.openSpace, h, hmade]

/-- The empty identifier is refused and leaves the estate as it is, if nothing is kept under it. -/
theorem perform_openSpace_empty (h : estate.realm.spaces[""]? = none) :
    estate.perform (.openSpace "") = (.error (.invalidNamespace ""), estate) := by
  have hrefused : Namespace.make "" estate.realm.debugger = .error (.invalidNamespace "") := by
    simp [Namespace.make]
  simp only [perform, Realm.openSpace, h, hrefused]

theorem perform_closeSpace_kept {ident : String} {space : Namespace}
    (h : estate.realm.spaces[ident]? = some space) :
    estate.perform (.closeSpace ident) =
      (.ok (.space (some space)),
        ⟨{ estate.realm with spaces := estate.realm.spaces.erase ident },
          estate.givenUp ++ [space], estate.world.log [.namespaceRemoved ident]⟩) := by
  simp only [perform, Realm.closeSpace, h]
  rfl

theorem perform_closeSpace_none {ident : String} (h : estate.realm.spaces[ident]? = none) :
    estate.perform (.closeSpace ident) = (.ok (.space none), estate) := by
  simp [perform, Realm.closeSpace, h]

theorem perform_request {tenant : Tenant} {space : Namespace}
    (h : estate.space? tenant = some space) (request : Request) :
    estate.perform (.request tenant request) =
      ((Asked.result ⟨⟨space, estate.world⟩, request⟩).map .response,
        { estate.withSpace (Asked.after ⟨⟨space, estate.world⟩, request⟩).space tenant with
          world := (Asked.after ⟨⟨space, estate.world⟩, request⟩).world }) := by
  simp only [perform, h]

theorem perform_request_vacant {tenant : Tenant} (h : estate.space? tenant = none)
    (request : Request) : estate.perform (.request tenant request) = (.ok .vacant, estate) := by
  simp only [perform, h]

/--
What a deed leaves of an estate.  It makes a namespace where none is kept, gives up one that is
kept, or leaves one that is there as a request does.  Whatever else it is, it leaves the estate
as it is: what it opens is kept already, or has the empty identifier, and what it closes is not
kept.
-/
inductive Leaves (estate : Estate) : Deed → Estate → Prop where
  | opened {ident : String} (absent : estate.realm.spaces[ident]? = none) (named : ident ≠ "") :
      Leaves estate (.openSpace ident)
        { estate with
          realm := { estate.realm with
            spaces := estate.realm.spaces.insert ident
              { ident, debugger := estate.realm.debugger } }
          world := estate.world.log [.namespaceCreated ident] }
  | closed {ident : String} {space : Namespace}
      (kept : estate.realm.spaces[ident]? = some space) :
      Leaves estate (.closeSpace ident)
        ⟨{ estate.realm with spaces := estate.realm.spaces.erase ident },
          estate.givenUp ++ [space], estate.world.log [.namespaceRemoved ident]⟩
  | asked {tenant : Tenant} {space : Namespace} (there : estate.space? tenant = some space)
      (request : Request) :
      Leaves estate (.request tenant request)
        { estate.withSpace (Asked.after ⟨⟨space, estate.world⟩, request⟩).space tenant with
          world := (Asked.after ⟨⟨space, estate.world⟩, request⟩).world }
  | idle {deed : Deed}
      (found : ∀ ident, deed = .openSpace ident → ident ≠ "" →
        estate.realm.spaces[ident]?.isSome = true)
      (absent : ∀ ident, deed = .closeSpace ident → estate.realm.spaces[ident]? = none) :
      Leaves estate deed estate

theorem leaves_after (estate : Estate) (deed : Deed) :
    estate.Leaves deed (Turn.after ⟨estate, deed⟩) := by
  unfold Turn.after
  cases deed with
  | openSpace ident =>
      cases hspace : estate.realm.spaces[ident]? with
      | some space =>
          rw [perform_openSpace_kept hspace]
          refine .idle ?_ nofun
          rintro _ ⟨⟩ -
          rw [hspace]
          rfl
      | none =>
          by_cases hident : ident = ""
          · subst hident
            rw [perform_openSpace_empty hspace]
            refine .idle ?_ nofun
            rintro _ ⟨⟩ hne
            exact absurd rfl hne
          · rw [perform_openSpace_new hspace hident]
            exact .opened hspace hident
  | findSpace ident => exact .idle nofun nofun
  | closeSpace ident =>
      cases hspace : estate.realm.spaces[ident]? with
      | some space =>
          rw [perform_closeSpace_kept hspace]
          exact .closed hspace
      | none =>
          rw [perform_closeSpace_none hspace]
          refine .idle nofun ?_
          rintro _ ⟨⟩
          exact hspace
  | request tenant request =>
      cases hspace : estate.space? tenant with
      | some space =>
          rw [perform_request hspace]
          exact .asked hspace request
      | none =>
          rw [perform_request_vacant hspace]
          exact .idle nofun nofun

/-! ### What carries a run -/

/-- Each namespace is kept under its identifier, and all have the debugger of the realm. -/
structure Sound (estate : Estate) : Prop where
  kept : ∀ ident space, estate.realm.spaces[ident]? = some space →
    ident ≠ "" ∧ space.ident = ident ∧ space.debugger = estate.realm.debugger
  givenUp : ∀ space ∈ estate.givenUp, space.debugger = estate.realm.debugger

theorem sound_make (settings : Settings) (w : World) : (make settings w).Sound where
  kept ident space hspace := by
    have hempty : (make settings w).realm.spaces = ∅ := rfl
    rw [hempty, Std.ExtTreeMap.getElem?_empty] at hspace
    cases hspace
  givenUp _ hspace := nomatch hspace

namespace Sound

variable (h : estate.Sound)
include h

theorem unkept_empty : estate.realm.spaces[""]? = none := by
  cases hspace : estate.realm.spaces[""]? with
  | none => rfl
  | some space => exact absurd rfl (h.kept "" space hspace).1

/-- A namespace that is put under its own identifier has the debugger of the realm too. -/
theorem kept_insert {ident : String} {made : Namespace}
    (hmade : ident ≠ "" ∧ made.ident = ident ∧ made.debugger = estate.realm.debugger) :
    ∀ other space, (estate.realm.spaces.insert ident made)[other]? = some space →
      other ≠ "" ∧ space.ident = other ∧ space.debugger = estate.realm.debugger := by
  intro other space hother
  rw [Dict.getElem?_insert] at hother
  by_cases hne : other = ident
  · rw [if_pos hne] at hother
    cases hother
    exact hne ▸ hmade
  · rw [if_neg hne] at hother
    exact h.kept other space hother

theorem after (deed : Deed) : (Turn.after ⟨estate, deed⟩).Sound := by
  have hleaves := estate.leaves_after deed
  generalize Turn.after ⟨estate, deed⟩ = after at hleaves
  cases hleaves with
  | idle => exact h
  | opened _ named => exact ⟨h.kept_insert ⟨named, rfl, rfl⟩, h.givenUp⟩
  | @closed ident space kept =>
      refine ⟨?_, ?_⟩
      · intro other space' hother
        rw [Dict.getElem?_erase] at hother
        by_cases hne : other = ident
        · rw [if_pos hne] at hother
          cases hother
        · rw [if_neg hne] at hother
          exact h.kept other space' hother
      · refine List.forall_mem_append.mpr ⟨h.givenUp, ?_⟩
        simpa using (h.kept ident space kept).2.2
  | @asked tenant space there request =>
      -- a request leaves a namespace its identifier and its debugger
      rw [Asked.space_after]
      cases tenant with
      | kept ident => exact ⟨h.kept_insert (h.kept ident space there), h.givenUp⟩
      | givenUp number =>
          refine ⟨h.kept, ?_⟩
          intro space' hspace'
          rcases List.mem_or_eq_of_mem_set hspace' with hbefore | rfl
          · exact h.givenUp space' hbefore
          · exact h.givenUp space (List.mem_of_getElem? there)

end Sound

theorem Run.sound {turns : List Turn} (run : Run turns estate) : estate.Sound := by
  induction run with
  | make settings w => exact sound_make settings w
  | turn run deed ih => exact ih.after deed
  | elsewhere run world ih => exact ⟨ih.kept, ih.givenUp⟩

/-- The debugger of a realm stays the same. -/
theorem debugger_after (deed : Deed) :
    (Turn.after ⟨estate, deed⟩).realm.debugger = estate.realm.debugger := by
  have hleaves := estate.leaves_after deed
  generalize Turn.after ⟨estate, deed⟩ = after at hleaves
  cases hleaves with
  | @asked tenant => cases tenant <;> rfl
  | _ => rfl

/-! ### Which identifiers are kept -/

/-- A namespace is opened, or found open, under an identifier. -/
def Turn.Opens (turn : Turn) (ident : String) : Prop :=
  turn.deed = .openSpace ident ∧ ∃ space, turn.result = .ok (.space (some space))

/-- An identifier was opened, and it was not closed since. -/
def Open (turns : List Turn) (ident : String) : Prop :=
  ∃ earlier turn later, turns = earlier ++ turn :: later ∧ turn.Opens ident ∧
    ∀ turn' ∈ later, turn'.deed ≠ .closeSpace ident

theorem not_open_nil (ident : String) : ¬ Open [] ident := by
  intro hopen
  obtain ⟨earlier, turn, later, heq, -⟩ := hopen
  simp at heq

/-- An identifier is open after one more turn if that opens it, or if it was and is not closed. -/
theorem open_concat {turns : List Turn} {turn : Turn} {ident : String} :
    Open (turns ++ [turn]) ident ↔
      turn.Opens ident ∨ (Open turns ident ∧ turn.deed ≠ .closeSpace ident) :=
  since_concat_iff

/-- To open succeeds for every identifier but the empty one. -/
theorem Sound.opens_iff (h : estate.Sound) {ident other : String} :
    Turn.Opens ⟨estate, .openSpace ident⟩ other ↔ ident = other ∧ ident ≠ "" := by
  unfold Turn.Opens Turn.result
  simp only [Deed.openSpace.injEq]
  refine and_congr_right fun _ => ?_
  by_cases hident : ident = ""
  · subst hident
    simp [perform_openSpace_empty h.unkept_empty]
  · cases hspace : estate.realm.spaces[ident]? with
    | some space => simp [perform_openSpace_kept hspace, hident]
    | none => simp [perform_openSpace_new hspace hident, hident]

/-- A turn keeps what it opens and what was kept and it does not close. -/
theorem Sound.kept_after_iff (h : estate.Sound) (deed : Deed) (ident : String) :
    ((Turn.after ⟨estate, deed⟩).realm.spaces[ident]?).isSome = true ↔
      Turn.Opens ⟨estate, deed⟩ ident ∨
        (estate.realm.spaces[ident]?.isSome = true ∧ deed ≠ .closeSpace ident) := by
  have hleaves := estate.leaves_after deed
  generalize Turn.after ⟨estate, deed⟩ = after at hleaves
  cases hleaves with
  | idle found absent =>
      constructor
      · intro hkept
        refine Or.inr ⟨hkept, ?_⟩
        rintro rfl
        rw [absent ident rfl] at hkept
        cases hkept
      · rintro (hopens | ⟨hkept, -⟩)
        · obtain rfl : deed = .openSpace ident := hopens.1
          exact found ident rfl (h.opens_iff.mp hopens).2
        · exact hkept
  | @opened opened absent named =>
      rw [h.opens_iff]
      show ((estate.realm.spaces.insert opened _)[ident]?).isSome = true ↔ _
      rw [Dict.getElem?_insert]
      by_cases hne : ident = opened
      · simp [hne, named]
      · simp [hne, Ne.symm hne]
  | @closed closed space kept =>
      show ((estate.realm.spaces.erase closed)[ident]?).isSome = true ↔ _
      rw [Dict.getElem?_erase]
      by_cases hne : ident = closed
      · simp [Turn.Opens, hne]
      · simp [Turn.Opens, hne, Ne.symm hne]
  | @asked tenant space there request =>
      cases tenant with
      | givenUp number =>
          show (estate.realm.spaces[ident]?).isSome = true ↔ _
          simp [Turn.Opens]
      | kept asked =>
          have hkept : estate.realm.spaces[asked]? = some space := there
          show ((estate.realm.spaces.insert asked _)[ident]?).isSome = true ↔ _
          rw [Dict.getElem?_insert]
          by_cases hne : ident = asked
          · simp [Turn.Opens, hne, hkept]
          · simp [Turn.Opens, hne]

/-- **The identifiers of a realm are those that were opened and not closed since.** -/
theorem Run.mem_idents {turns : List Turn} (run : Run turns estate) (ident : String) :
    ident ∈ estate.realm.idents ↔ Open turns ident := by
  unfold Realm.idents
  rw [Dict.mem_keys]
  induction run with
  | make settings w =>
      have hempty : (Estate.make settings w).realm.spaces = ∅ := rfl
      rw [hempty, Std.ExtTreeMap.getElem?_empty]
      exact iff_of_false (by simp) (not_open_nil ident)
  | turn run deed ih => rw [run.sound.kept_after_iff, open_concat, ih]
  | elsewhere run world ih => exact ih

/-! ### Namespaces that nothing is asked of -/

/-- To put a namespace in the place of one leaves the others as they are. -/
theorem space?_withSpace_of_ne (estate : Estate) (space : Namespace) {asked tenant : Tenant}
    (hne : asked ≠ tenant) : (estate.withSpace space asked).space? tenant = estate.space? tenant := by
  cases asked with
  | kept ident =>
      cases tenant with
      | givenUp number => rfl
      | kept other =>
          show (estate.realm.spaces.insert ident space)[other]? = estate.realm.spaces[other]?
          rw [Dict.getElem?_insert, if_neg (by simpa using Ne.symm hne)]
  | givenUp number =>
      cases tenant with
      | kept ident => rfl
      | givenUp other => exact List.getElem?_set_ne (by simpa using hne)

/-- **What is not done to a namespace leaves it as it is.** -/
theorem space?_after {tenant : Tenant} {space : Namespace}
    (hspace : estate.space? tenant = some space) {deed : Deed} (hdeed : ¬ deed.Concerns tenant) :
    (Turn.after ⟨estate, deed⟩).space? tenant = some space := by
  have hleaves := estate.leaves_after deed
  generalize Turn.after ⟨estate, deed⟩ = after at hleaves
  cases hleaves with
  | idle => exact hspace
  | @opened opened absent =>
      cases tenant with
      | givenUp number => exact hspace
      | kept ident =>
          have hne : ident ≠ opened := by
            rintro rfl
            exact absurd (absent.symm.trans hspace) (by simp)
          show (estate.realm.spaces.insert opened _)[ident]? = some space
          rw [Dict.getElem?_insert, if_neg hne]
          exact hspace
  | @closed closed found =>
      cases tenant with
      | givenUp number =>
          show (estate.givenUp ++ [found])[number]? = some space
          rw [List.getElem?_append_left (List.getElem?_eq_some_iff.mp hspace).1]
          exact hspace
      | kept ident =>
          have hne : ident ≠ closed := by
            rintro rfl
            exact hdeed (.closed ident)
          show (estate.realm.spaces.erase closed)[ident]? = some space
          rw [Dict.getElem?_erase, if_neg hne]
          exact hspace
  | @asked asked _ _ request =>
      have hne : asked ≠ tenant := by
        rintro rfl
        exact hdeed (.asked asked request)
      exact (estate.space?_withSpace_of_ne _ hne).trans hspace

/-- A namespace stays as a turn left it until something is done to it. -/
theorem Run.space?_lasts {earlier later : List Turn} {turn : Turn} {tenant : Tenant}
    {space : Namespace} (run : Run (earlier ++ turn :: later) estate)
    (hspace : turn.after.space? tenant = some space)
    (hlater : ∀ turn' ∈ later, ¬ turn'.deed.Concerns tenant) :
    estate.space? tenant = some space := by
  generalize hturns : earlier ++ turn :: later = turns at run
  induction run generalizing later with
  | make settings w => simp at hturns
  | @turn turns estate run deed ih =>
      obtain ⟨-, rfl, -⟩ | ⟨between, rfl, hbefore⟩ := parts_concat_iff.mp hturns.symm
      · exact hspace
      · obtain ⟨hbetween, hlast⟩ := List.forall_mem_append.mp hlater
        exact space?_after (ih hbetween hbefore.symm) (hlast ⟨estate, deed⟩ (by simp))
  | elsewhere run world ih => cases tenant <;> exact ih hlater hturns

theorem Run.debugger {turns : List Turn} (run : Run turns estate) :
    ∀ turn ∈ turns, turn.before.realm.debugger = estate.realm.debugger := by
  induction run with
  | make settings w => exact nofun
  | turn run deed ih =>
      rw [debugger_after]
      intro turn hturn
      rcases List.mem_append.mp hturn with hturn | hturn
      · exact ih turn hturn
      · rw [List.mem_singleton.mp hturn]
  | elsewhere run world ih => exact ih

/--
**The registry of a realm over whole runs.**  In every run each namespace is kept under its
own identifier, which is not empty, and every namespace, kept or given up, holds the one
debugger that the realm had all along.  The identifiers are listed in the order of their
bytes, and they are those that were opened and not closed since.

To open an identifier that is kept gives the namespace as it is; to open any other that is
not empty makes a namespace with no names; to open the empty one is refused and changes
nothing.  To close an identifier gives the namespace as it is, with its table, and takes
nothing else away.  A namespace that was given up stays as it is, whatever is done with the
realm and whether or not its identifier is opened again, until something is asked of it.
-/
theorem registry_over_runs {turns : List Turn} {estate : Estate} (run : Run turns estate) :
    (∀ ident space, estate.realm.spaces[ident]? = some space →
      ident ≠ "" ∧ space.ident = ident ∧ space.debugger = estate.realm.debugger) ∧
    (∀ space ∈ estate.givenUp, space.debugger = estate.realm.debugger) ∧
    (∀ turn ∈ turns, turn.before.realm.debugger = estate.realm.debugger) ∧
    estate.realm.idents.Pairwise (fun a b => Text.bytes a < Text.bytes b) ∧
    (∀ ident, ident ∈ estate.realm.idents ↔ Open turns ident) ∧
    (∀ ident space, estate.realm.spaces[ident]? = some space →
      estate.perform (.openSpace ident) = (.ok (.space (some space)), estate)) ∧
    (∀ ident, ident ∉ estate.realm.idents → ident ≠ "" →
      ∃ space w, estate.perform (.openSpace ident) =
          (.ok (.space (some space)),
            ⟨{ estate.realm with spaces := estate.realm.spaces.insert ident space },
              estate.givenUp, w⟩) ∧
        space.ident = ident ∧ space.table = ∅) ∧
    estate.perform (.openSpace "") = (.error (.invalidNamespace ""), estate) ∧
    (∀ ident space, estate.realm.spaces[ident]? = some space →
      ∃ w, estate.perform (.closeSpace ident) =
        (.ok (.space (some space)),
          ⟨{ estate.realm with spaces := estate.realm.spaces.erase ident },
            estate.givenUp ++ [space], w⟩)) ∧
    (∀ ident, ident ∉ estate.realm.idents →
      estate.perform (.closeSpace ident) = (.ok (.space none), estate)) ∧
    (∀ earlier turn later ident space, turns = earlier ++ turn :: later →
      turn.deed = .closeSpace ident → turn.before.realm.spaces[ident]? = some space →
      (∀ turn' ∈ later, ∀ request,
        turn'.deed ≠ .request (.givenUp turn.before.givenUp.length) request) →
      estate.givenUp[turn.before.givenUp.length]? = some space) := by
  have hsound := run.sound
  have habsent (ident : String) (hident : ident ∉ estate.realm.idents) :
      estate.realm.spaces[ident]? = none := by
    unfold Realm.idents at hident
    rw [Dict.mem_keys] at hident
    simpa using hident
  refine ⟨hsound.kept, hsound.givenUp, run.debugger, Dict.keys_ascending _, run.mem_idents,
    fun _ _ => perform_openSpace_kept, ?_, perform_openSpace_empty hsound.unkept_empty,
    fun _ _ hspace => ⟨_, perform_closeSpace_kept hspace⟩,
    fun ident hident => perform_closeSpace_none (habsent ident hident), ?_⟩
  · intro ident hident hne
    exact ⟨_, _, perform_openSpace_new (habsent ident hident) hne, rfl, rfl⟩
  · intro earlier turn later ident space hturns hdeed hspace hlater
    subst hturns
    obtain ⟨before, deed⟩ := turn
    obtain rfl : deed = .closeSpace ident := hdeed
    have hgiven : (Turn.after ⟨before, .closeSpace ident⟩).space?
        (.givenUp before.givenUp.length) = some space := by
      unfold Turn.after
      rw [perform_closeSpace_kept hspace]
      exact List.getElem?_concat_length
    refine run.space?_lasts hgiven ?_
    rintro ⟨before', deed'⟩ hturn' hconcerns
    cases hconcerns with
    | asked _ request => exact hlater _ hturn' request rfl

/-- A namespace that was closed keeps its names while its identifier is opened again. -/
theorem reopened_apart :
    ∃ turns estate, Run turns estate ∧
      turns.map Turn.deed =
        [.openSpace "a", .request (.kept "a") (.operation (.add "$x" (some (.int 1)) {})),
          .closeSpace "a", .openSpace "a"] ∧
      "a" ∈ estate.realm.idents ∧
      (∃ space, estate.realm.spaces["a"]? = some space ∧ space.table["x"]? = none) ∧
      ∃ space, estate.givenUp[0]? = some space ∧
        space.table["x"]? = some (.bindings (({} : Slots).set .scalar (.int 1))) := by
  have closed := (Run.make {} {}).turn (.openSpace "a")
    |>.turn (.request (.kept "a") (.operation (.add "$x" (some (.int 1)) {})))
    |>.turn (.closeSpace "a")
  have run := closed.turn (.openSpace "a")
  obtain ⟨-, -, -, -, hidents, -, -, -, -, -, hgiven⟩ := registry_over_runs run
  obtain ⟨-, -, -, -, -, -, hopened, -⟩ := registry_over_runs closed
  obtain ⟨space, w, hopens, -, htable⟩ := hopened "a" (by
    unfold Realm.idents
    rw [Dict.mem_keys]
    exact Bool.false_ne_true) (by decide)
  refine ⟨_, _, run, rfl, (hidents "a").mpr ?_, ⟨space, ?_, ?_⟩, ?_⟩
  · exact ⟨_, _, [], rfl, ⟨rfl, space, congrArg Prod.fst hopens⟩, by simp⟩
  · show (Prod.snd (Estate.perform _ (.openSpace "a"))).realm.spaces["a"]? = some space
    rw [hopens, Dict.getElem?_insert, if_pos rfl]
  · rw [htable, Std.ExtTreeMap.getElem?_empty]
  · exact ⟨_, hgiven [_, _] _ [_] "a" _ rfl rfl rfl (by simp), rfl⟩

end Estate

end Bindery
