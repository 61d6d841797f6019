/-
The life of a namespace.

A namespace can be followed through a course of turns.  Some turns ask something of it; others
are not addressed to it; and when a realm gives it up to a handle, it goes on there.  Its life
ends when a realm gives it up to no one, when another is put in its place, or when the handle
that holds it is pointed elsewhere.

What is asked of a namespace in its life is a series of requests: between two of them it stays as
it is, and no cell goes away.
-/
import Bindery.Proofs.Host.Addressed
import Bindery.Proofs.Namespace.Series

namespace Bindery.Host

variable {host after last : Host} {handle : String} {asked : Asked} {place final : Place}

/-! ### After a request -/

/-- What follows a request leaves the cells there that it makes. -/
theorem grows_onSpace {α β : Type} {space : Namespace} {request : Request}
    (hclosed : host.Closed) (hgiven : ∀ v, request.Gives v → host.world.heap.Has v)
    (hspace : host.spaceOf? handle = some space) (act : Scope.Action α)
    (hact : ∀ s, Scope.left (act s) = Asked.after ⟨s, request⟩) {next : α → Action β}
    {tells : β → Value → Prop}
    (hnext : ∀ a, Grounded Heap.Grows (fun _ => False) (next a) tells) :
    (Asked.after ⟨⟨space, host.world⟩, request⟩).world.heap.Grows
      (left ((onSpace handle act >>= next) host)).world.heap := by
  obtain ⟨place, -, hthere⟩ := placeOf?_of_space hspace
  have hleft := left_onSpace hspace act
  rw [hact] at hleft
  have hafter : (host.withScope handle (Asked.after ⟨⟨space, host.world⟩, request⟩)).Closed :=
    hclosed.withScope hspace (Asked.extends ⟨⟨space, host.world⟩, request⟩).toGrows
      (Asked.closed (hclosed.scope hthere) hgiven).1
  have hheap : (host.withScope handle (Asked.after ⟨⟨space, host.world⟩, request⟩)).world.heap
      = (Asked.after ⟨⟨space, host.world⟩, request⟩).world.heap :=
    congrArg World.heap (world_withSpace _ _ _)
  rw [← hheap, bind_run]
  cases heq : onSpace handle act host with
  | error e mid =>
      rw [heq] at hleft
      rw [← hleft]
      exact .refl _
  | ok a mid =>
      rw [heq] at hleft
      rw [← hleft] at hafter ⊢
      exact (hnext a mid hafter fun _ => False.elim).heap

/-- The cells that a request of a turn makes are there afterwards. -/
theorem Closed.grows_after (hclosed : host.Closed) {command : Command}
    (h : host.asked? command = some (handle, asked)) :
    asked.after.world.heap.Grows (left (perform command host)).world.heap := by
  cases poses_of_asked h with
  | @operation operation made after space hmade there =>
      show Heap.Grows _ (left (operate handle operation host)).world.heap
      have hgrounded := Grounded.operationMapM operation (fun _ => False) host hclosed fun _ =>
        False.elim
      have hanswer (reply : Reply) : Grounded Heap.Grows (fun _ => False)
          (pure (Answer.ofReply reply) : Action Answer) fun _ _ => False :=
        .pure fun _ => id
      rw [hmade] at hgrounded
      rw [operate_eq, bind_run, hmade]
      exact grows_onSpace hgrounded.closed (hgrounded.told made after rfl) there made.perform
        (left_perform made) hanswer
  | @call spec space args there =>
      show Heap.Grows _ (left (callSpec handle spec args host)).world.heap
      have hcalled (callee? : Option Value) :
          Grounded Heap.Grows (fun _ => False) (called args callee?) Answer.Tells := by
        cases callee? with
        | none => exact .silent (by simp)
        | some callee => exact .callValue callee args _
      rw [callSpec_eq]
      exact grows_onSpace hclosed (fun v hv => by cases hv) there (Scope.find spec)
        (left_find spec) hcalled
  | @edit change made after space hmade there =>
      show Heap.Grows _ (left (edit handle change host)).world.heap
      have hgrounded := Grounded.editMapM change (fun _ => False) host hclosed fun _ => False.elim
      have hedited (outcome : EditOutcome) :
          Grounded Heap.Grows (fun _ => False) (edited outcome) fun _ _ => False := by
        cases outcome with
        | unbound => exact .throw _
        | onlyStub => exact .throw _
        | _ => exact .pure fun _ => id
      rw [hmade] at hgrounded
      rw [edit_eq, bind_run, hmade]
      exact grows_onSpace hgrounded.closed (hgrounded.told made after rfl) there
        (modifyGet made.apply) (fun _ => rfl) hedited
  | @load name table space saved there =>
      show Heap.Grows _ (left (tableStep handle (.load name) host)).world.heap
      rw [load_run, there, saved]
      show Heap.Grows _ (host.withSpace handle { space with table }).world.heap
      rw [world_withSpace]
      exact .refl _

/-! ### Lives -/

/-- A turn by which a realm gives the namespace in a place up to a handle, or tries to. -/
def Turn.GivesUp (turn : Turn) (place : Place) (handle : String) : Prop :=
  ∃ name ident, turn.command = .realm (.closeSpace name ident (some handle)) ∧
    place = .kept name ident

/--
The life of a namespace through a course: of the namespace that is in a place these things are
asked, and in the end it is in another place, or still in the same.
-/
inductive Life : Host → List Turn → Place → List Asked → Host → Place → Prop where
  | done (host : Host) (place : Place) : Life host [] place [] host place
  | apart (turn : Turn) {turns : List Turn} {place : Place} {asks : List Asked} {last : Host}
      {final : Place} (apart : ¬ turn.Addresses place)
      (rest : Life turn.outcome.host turns place asks last final) :
      Life turn.before (turn :: turns) place asks last final
  | asked (turn : Turn) {turns : List Turn} {place : Place} {asked : Asked} {asks : List Asked}
      {last : Host} {final : Place} (addressed : turn.Asks place asked)
      (rest : Life turn.outcome.host turns place asks last final) :
      Life turn.before (turn :: turns) place (asked :: asks) last final
  | given (turn : Turn) {turns : List Turn} {place : Place} {handle : String} {asks : List Asked}
      {last : Host} {final : Place} (given : turn.GivesUp place handle)
      (rest : Life turn.outcome.host turns (.owned handle) asks last final) :
      Life turn.before (turn :: turns) place asks last final

/-- A turn ends the life of the namespace in a place: it puts another there, or none. -/
def Turn.Ends (turn : Turn) (place : Place) : Prop :=
  turn.Addresses place ∧ (∀ asked, ¬ turn.Asks place asked) ∧ ∀ handle, ¬ turn.GivesUp place handle

/-- A namespace that a realm gives up to a handle is there as it was. -/
theorem Turn.GivesUp.spaceAt? {turn : Turn} (h : turn.GivesUp place handle) {space : Namespace}
    (hspace : turn.before.spaceAt? place = some space) :
    turn.outcome.host.spaceAt? (.owned handle) = some space := by
  obtain ⟨name, ident, hcommand, rfl⟩ := h
  obtain ⟨realm, hrealm, hkept⟩ := Option.bind_eq_some_iff.mp hspace
  have hleft := turn.left_eq.1
  rw [hcommand] at hleft
  rw [hleft.spaceAt?]
  show Host.spaceAt? (left (realmStep (.closeSpace name ident (some handle)) turn.before)) _ = _
  rw [closeSpace_run, hrealm]
  simp only [Realm.closeSpace, hkept]
  exact (spaceAt?_insertSeat handle (.owned space) handle).trans (if_pos rfl)

/-- To give up a namespace that is there is addressed to it, and asks nothing of it. -/
theorem Turn.GivesUp.addresses {turn : Turn} (h : turn.GivesUp place handle) {space : Namespace}
    (hspace : turn.before.spaceAt? place = some space) :
    turn.Addresses place ∧ ∀ asked, ¬ turn.Asks place asked := by
  obtain ⟨name, ident, hcommand, rfl⟩ := h
  obtain ⟨realm, hrealm, -⟩ := Option.bind_eq_some_iff.mp hspace
  have hrun := closeSpace_run name ident (some handle) turn.before
  rw [hrealm] at hrun
  obtain ⟨answer, after, hok⟩ : ∃ answer after,
      perform (.realm (.closeSpace name ident (some handle))) turn.before = .ok answer after :=
    ⟨_, _, hrun⟩
  refine ⟨Or.inr ⟨_, answer, hcommand, ?_, .closed name ident (some handle)⟩, ?_⟩
  · rw [turn.result_eq, hcommand, hok]
  · rintro asked ⟨_, hasked, -⟩
    rw [Turn.asked?_eq_none (Or.inl ⟨_, hcommand⟩)] at hasked
    cases hasked

/-- **What is asked of a namespace in a course is determined, and so is where it is in the end.** -/
theorem Life.unique {turns : List Turn} {asks asks' : List Asked} {last' : Host} {final' : Place}
    (life : Life host turns place asks last final) (life' : Life host turns place asks' last' final')
    {space : Namespace} (hspace : host.spaceAt? place = some space) :
    asks' = asks ∧ last' = last ∧ final' = final := by
  induction life generalizing asks' space with
  | done host place =>
      cases life'
      exact ⟨rfl, rfl, rfl⟩
  | apart turn apart rest ih =>
      generalize hbefore : turn.before = before at life'
      cases life' with
      | apart _ _ rest' => exact ih rest' (turn.spaceAt?_of_not_addressed apart ▸ hspace)
      | asked _ addressed _ => exact absurd (Or.inl ⟨_, addressed⟩) apart
      | given _ given _ => exact absurd (given.addresses hspace).1 apart
  | asked turn addressed rest ih =>
      generalize hbefore : turn.before = before at life'
      cases life' with
      | apart _ apart _ => exact absurd (Or.inl ⟨_, addressed⟩) apart
      | asked _ addressed' rest' =>
          obtain ⟨-, rfl⟩ := addressed.unique addressed'
          obtain ⟨rfl, hlast, hfinal⟩ := ih rest' addressed.spaceAt?.2
          exact ⟨rfl, hlast, hfinal⟩
      | given _ given _ => exact absurd addressed ((given.addresses hspace).2 _)
  | given turn given rest ih =>
      generalize hbefore : turn.before = before at life'
      cases life' with
      | apart _ apart _ => exact absurd (given.addresses hspace).1 apart
      | asked _ addressed _ => exact absurd addressed ((given.addresses hspace).2 _)
      | given _ given' rest' =>
          have hthere := given.spaceAt? hspace
          obtain ⟨name, ident, hcommand, -⟩ := given
          obtain ⟨name', ident', hcommand', -⟩ := given'
          rw [hcommand] at hcommand'
          cases hcommand'
          exact ih rest' hthere

/-- **What is asked of a namespace in its life is a series of requests.** -/
theorem Life.series {turns : List Turn} {asks : List Asked} (life : Life host turns place asks last final)
    (hclosed : host.Closed) {space : Namespace} (hspace : host.spaceAt? place = some space) :
    ∃ space', last.spaceAt? final = some space' ∧ Series host.world.heap space asks space' := by
  induction life generalizing space with
  | done host place => exact ⟨space, hspace, .done _ space⟩
  | apart turn apart rest ih =>
      obtain ⟨hafter, hgrows⟩ := turn.closed hclosed
      obtain ⟨space', hlast, series⟩ := ih hafter (turn.spaceAt?_of_not_addressed apart ▸ hspace)
      exact ⟨space', hlast, series.earlier hgrows⟩
  | given turn given rest ih =>
      obtain ⟨hafter, hgrows⟩ := turn.closed hclosed
      obtain ⟨space', hlast, series⟩ := ih hafter (given.spaceAt? hspace)
      exact ⟨space', hlast, series.earlier hgrows⟩
  | asked turn addressed rest ih =>
      obtain ⟨hbefore, hthere⟩ := addressed.spaceAt?
      rw [hspace] at hbefore
      cases hbefore
      obtain ⟨handle, hasked, -⟩ := addressed
      have hsound := hclosed.sound hasked
      obtain ⟨space', hlast, series⟩ := ih (turn.closed hclosed).1 hthere
      refine ⟨space', hlast, .asked hsound.made.toGrows hsound.closed hsound.given ?_⟩
      refine series.earlier ?_
      rw [turn.left_eq.2]
      exact hclosed.grows_after hasked

end Bindery.Host
