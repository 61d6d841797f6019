/-
What a host asks of its namespaces.

Of all that a host can be asked, four things come down to a request to one namespace: an
operation, a call by way of a spec, an edit, and to put back a table that was saved.  The
values that a request gives are made first, and what is called is called afterwards; neither
touches a namespace.  So the namespaces of a host after such a command are those before it, with
the one that was asked replaced by what the request leaves.

Everything else leaves namespaces, debuggers and registries where they are, but for the
commands that are about realms and handles or about debugging.
-/
import Bindery.Proofs.Host.Named

namespace Bindery.Host

/-! ### Requests -/

/-- A request to the namespace of a handle, in the world of a host. -/
def asking? (host : Host) (handle : String) (request : Request) : Option (String × Asked) :=
  (host.spaceOf? handle).map fun space => (handle, ⟨⟨space, host.world⟩, request⟩)

/-- What a command asks of the namespace of a handle, once the values that it gives are made. -/
def asked? (host : Host) : Command → Option (String × Asked)
  | .operation handle operation =>
    match operation.mapM Expr.eval host with
    | .ok made after => after.asking? handle (.operation made)
    | .error _ _ => none
  | .call handle spec _ => host.asking? handle (.operation (.find spec))
  | .edit handle change =>
    match change.mapM Expr.eval host with
    | .ok made after => after.asking? handle (.edit made)
    | .error _ _ => none
  | .table handle (.load name) =>
    match host.tables[name]? with
    | some table => host.asking? handle (.replace table)
    | none => none
  | _ => none

/-- Between two hosts no namespace changes, and nothing that is about debugging. -/
structure Unmoved (host after : Host) : Prop where
  realms : after.realms = host.realms
  seats : after.seats = host.seats
  debuggers : after.debuggers = host.debuggers
  registries : after.registries = host.registries
  debugging : after.world.debugging = host.world.debugging

namespace Unmoved

variable {host after last : Host}

theorem refl (host : Host) : host.Unmoved host :=
  ⟨rfl, rfl, rfl, rfl, rfl⟩

theorem trans (h : host.Unmoved after) (h' : after.Unmoved last) : host.Unmoved last :=
  ⟨h'.realms.trans h.realms, h'.seats.trans h.seats, h'.debuggers.trans h.debuggers,
    h'.registries.trans h.registries, h'.debugging.trans h.debugging⟩

theorem setHeap (host : Host) (heap : Heap) : host.Unmoved (host.setHeap heap) :=
  ⟨rfl, rfl, rfl, rfl, rfl⟩

theorem of_allocates {α : Type} (act : Action α) [hact : Allocates act] (host : Host) :
    host.Unmoved (left (act host)) := by
  obtain ⟨heap, hheap⟩ := hact.heap host
  rw [hheap]
  exact setHeap host heap

theorem spaceAt? (h : host.Unmoved after) (place : Place) :
    after.spaceAt? place = host.spaceAt? place :=
  spaceAt?_congr h.realms h.seats place

theorem placeOf? (h : host.Unmoved after) (handle : String) :
    after.placeOf? handle = host.placeOf? handle := by
  unfold Host.placeOf?
  rw [h.seats]

theorem spaceOf? (h : host.Unmoved after) (handle : String) :
    after.spaceOf? handle = host.spaceOf? handle := by
  rw [spaceOf?_eq, spaceOf?_eq, h.placeOf?, funext h.spaceAt?]

end Unmoved

/-- What only allocates after an action moves nothing more. -/
theorem Unmoved.followed {α β : Type} (act : Action α) (next : α → Action β)
    [hnext : ∀ a, Allocates (next a)] (host : Host) :
    (left (act host)).Unmoved (left ((act >>= next) host)) := by
  rw [bind_run]
  cases act host with
  | ok a after => exact .of_allocates (next a) after
  | error e after => exact .refl after

/-! ### What commands leave -/

variable {host : Host} {command : Command} {handle : String} {asked : Asked}

theorem asking?_eq_some {target : String} {request : Request}
    (h : host.asking? target request = some (handle, asked)) :
    target = handle ∧
      ∃ space, host.spaceOf? handle = some space ∧ asked = ⟨⟨space, host.world⟩, request⟩ := by
  obtain ⟨space, hspace, heq⟩ := Option.map_eq_some_iff.mp h
  cases heq
  exact ⟨rfl, space, hspace, rfl⟩

/--
How a command comes to ask something of the namespace of a handle: the values that it gives are
made, the namespace is there then, and what is asked of it is asked in the world that is left.
-/
inductive Poses (host : Host) (handle : String) : Command → Asked → Prop where
  | operation {operation : Operation Expr} {made : Operation Value} {after : Host}
      {space : Namespace} (hmade : operation.mapM Expr.eval host = .ok made after)
      (there : after.spaceOf? handle = some space) :
      Poses host handle (.operation handle operation) ⟨⟨space, after.world⟩, .operation made⟩
  | call {spec : String} {space : Namespace} (args : List Expr)
      (there : host.spaceOf? handle = some space) :
      Poses host handle (.call handle spec args) ⟨⟨space, host.world⟩, .operation (.find spec)⟩
  | edit {change : Edit Expr} {made : Edit Value} {after : Host} {space : Namespace}
      (hmade : change.mapM Expr.eval host = .ok made after)
      (there : after.spaceOf? handle = some space) :
      Poses host handle (.edit handle change) ⟨⟨space, after.world⟩, .edit made⟩
  | load {name : String} {table : SymbolTable} {space : Namespace}
      (saved : host.tables[name]? = some table) (there : host.spaceOf? handle = some space) :
      Poses host handle (.table handle (.load name)) ⟨⟨space, host.world⟩, .replace table⟩

theorem poses_of_asked (h : host.asked? command = some (handle, asked)) :
    host.Poses handle command asked := by
  unfold asked? at h
  split at h
  case h_1 target operation =>
    split at h
    next made after hmade =>
      obtain ⟨rfl, space, there, rfl⟩ := asking?_eq_some h
      exact .operation hmade there
    next => cases h
  case h_2 target spec args =>
    obtain ⟨rfl, space, there, rfl⟩ := asking?_eq_some h
    exact .call args there
  case h_3 target change =>
    split at h
    next made after hmade =>
      obtain ⟨rfl, space, there, rfl⟩ := asking?_eq_some h
      exact .edit hmade there
    next => cases h
  case h_4 target name =>
    split at h
    next table saved =>
      obtain ⟨rfl, space, there, rfl⟩ := asking?_eq_some h
      exact .load saved there
    next => cases h
  case h_5 => cases h

/-- What a request comes to when a host passes it on. -/
theorem left_onSpace {α : Type} {space : Namespace} (hspace : host.spaceOf? handle = some space)
    (act : Scope.Action α) :
    left (Host.onSpace handle act host)
      = host.withScope handle (Scope.left (act ⟨space, host.world⟩)) := by
  rw [onSpace_run, hspace]
  simp only
  cases act ⟨space, host.world⟩ <;> rfl

/-- A command passes a request on to the namespace of a handle, and moves nothing else. -/
structure Passes (host : Host) (handle : String) (asked : Asked) (after : Host) : Prop where
  space : host.spaceOf? handle = some asked.before.space
  world : ∃ heap, asked.before.world = { host.world with heap }
  unmoved : (host.withScope handle asked.after).Unmoved after

/-- A request whose values are made first passes on to the namespace that was there before. -/
theorem Passes.made {after : Host} {heap : Heap}
    (h : (host.setHeap heap).Passes handle asked after) : host.Passes handle asked after where
  space := ((Unmoved.setHeap host heap).spaceOf? handle).symm.trans h.space
  world := h.world
  unmoved := h.unmoved

theorem Passes.of_onSpace {α β : Type} {space : Namespace} {request : Request}
    (there : host.spaceOf? handle = some space) (act : Scope.Action α)
    (hact : ∀ s, Scope.left (act s) = Asked.after ⟨s, request⟩) (next : α → Action β)
    [∀ a, Allocates (next a)] :
    host.Passes handle ⟨⟨space, host.world⟩, request⟩
      (left ((Host.onSpace handle act >>= next) host)) := by
  refine ⟨there, ⟨host.world.heap, rfl⟩, ?_⟩
  rw [← hact, ← left_onSpace there]
  exact .followed (Host.onSpace handle act) next host

/-- Where there is no namespace to ask, nothing is moved. -/
theorem Unmoved.of_onSpace {α β : Type} {target : String} {request : Request}
    (hask : host.asking? target request = none) (act : Scope.Action α) (next : α → Action β)
    [∀ a, Allocates (next a)] :
    host.Unmoved (left ((Host.onSpace target act >>= next) host)) := by
  have hleft : left (Host.onSpace target act host) = host := by
    rw [onSpace_run, Option.map_eq_none_iff.mp hask]
    rfl
  have hrest := followed (Host.onSpace target act) next host
  rwa [hleft] at hrest

/-- An action that only allocates and succeeds leaves a host with another heap. -/
theorem allocated_of_ok {α : Type} {act : Action α} [hact : Allocates act] {a : α} {after : Host}
    (h : act host = .ok a after) : ∃ heap, after = host.setHeap heap := by
  obtain ⟨heap, hheap⟩ := hact.heap host
  rw [h] at hheap
  exact ⟨heap, hheap⟩

/-- What follows an action that only allocates starts from a host with another heap. -/
theorem allocated_run {α β : Type} (act : Action α) [hact : Allocates act] (next : α → Action β)
    (host : Host) :
    ∃ heap, left (act host) = host.setHeap heap ∧
      ((∃ a, act host = .ok a (host.setHeap heap) ∧ (act >>= next) host = next a (host.setHeap heap)) ∨
        ∃ e, act host = .error e (host.setHeap heap) ∧
          (act >>= next) host = .error e (host.setHeap heap)) := by
  obtain ⟨heap, hheap⟩ := hact.heap host
  refine ⟨heap, hheap, ?_⟩
  rw [bind_run]
  cases heq : act host with
  | ok a after =>
      obtain rfl : after = host.setHeap heap := by rw [← hheap, heq]; rfl
      exact Or.inl ⟨a, rfl, rfl⟩
  | error e after =>
      obtain rfl : after = host.setHeap heap := by rw [← hheap, heq]; rfl
      exact Or.inr ⟨e, rfl, rfl⟩

/-- An operation on the namespace of a handle, told by its answer. -/
def performed (handle : String) (operation : Operation Value) : Action Answer :=
  Host.onSpace handle operation.perform >>= fun reply => pure (Answer.ofReply reply)

/-- The answer that tells of what an edit found. -/
def edited : EditOutcome → Action Answer
  | .entry found? => return .entry found?
  | .content value? => return .value value?
  | .slots slots => return .slots slots
  | .unbound => throw .unbound
  | .onlyStub => throw .onlyStub

instance allocates_edited (outcome : EditOutcome) : Allocates (edited outcome) := by
  cases outcome <;> unfold edited <;> infer_instance

/-- The call of what a spec was found to address. -/
def called (args : List Expr) : Option Value → Action Answer
  | none => return .value none
  | some callee => callValue callee args

instance allocates_called (args : List Expr) (callee? : Option Value) :
    Allocates (called args callee?) := by
  cases callee? <;> unfold called <;> infer_instance

theorem operate_eq (handle : String) (operation : Operation Expr) :
    operate handle operation = operation.mapM Expr.eval >>= performed handle := rfl

theorem edit_eq (handle : String) (change : Edit Expr) :
    edit handle change
      = change.mapM Expr.eval >>= fun made => onSpace handle (modifyGet made.apply) >>= edited := by
  rfl

theorem callSpec_eq (handle spec : String) (args : List Expr) :
    callSpec handle spec args = onSpace handle (Scope.find spec) >>= called args := by
  rfl

theorem left_find (text : String) (s : Scope) :
    Scope.left (Scope.find text s) = Asked.after ⟨s, .operation (.find text)⟩ := by
  rw [Asked.after_operation, Step.after_find]
  rfl

theorem left_perform (operation : Operation Value) (s : Scope) :
    Scope.left (operation.perform s) = Asked.after ⟨s, .operation operation⟩ := by
  rw [Asked.after_operation]
  rfl

/-- **A command that asks something of a namespace passes it on, and moves nothing else.** -/
theorem passes_of_asked (h : host.asked? command = some (handle, asked)) :
    host.Passes handle asked (left (perform command host)) := by
  cases poses_of_asked h with
  | @operation operation made after space hmade there =>
      show host.Passes handle _ (left (operate handle operation host))
      obtain ⟨heap, rfl⟩ := allocated_of_ok hmade
      rw [operate_eq, bind_run, hmade]
      exact (Passes.of_onSpace there made.perform (left_perform made) _).made
  | @call spec space args there =>
      show host.Passes handle _ (left (callSpec handle spec args host))
      rw [callSpec_eq]
      exact .of_onSpace there (Scope.find spec) (left_find spec) (called args)
  | @edit change made after space hmade there =>
      show host.Passes handle _ (left (edit handle change host))
      obtain ⟨heap, rfl⟩ := allocated_of_ok hmade
      rw [edit_eq, bind_run, hmade]
      exact (Passes.of_onSpace there (modifyGet made.apply) (fun _ => rfl) edited).made
  | @load name table space saved there =>
      refine ⟨there, ⟨host.world.heap, rfl⟩, ?_⟩
      show Unmoved _ (left (tableStep handle (.load name) host))
      rw [load_run, there, saved]
      exact .refl _

instance allocates_space (handle : String) : Allocates (Host.space handle) :=
  inferInstanceAs (Allocates (MonadState.get >>= fun _ : Host => _))

/-- The namespace that was asked is then as the request leaves it. -/
theorem Passes.spaceOf? {after : Host} (h : host.Passes handle asked after) :
    after.spaceOf? handle = some asked.after.space := by
  rw [h.unmoved.spaceOf?]
  have hspace : Host.spaceOf? { host with world := asked.after.world } handle
      = some asked.before.space := h.space
  exact spaceOf?_withSpace hspace asked.after.space

/-- What comes of an operation on the namespace of a handle. -/
theorem operation_run {operation : Operation Expr} {target : String}
    (h : host.asked? (.operation target operation) = some (handle, asked)) :
    ∃ made, asked.request = .operation made ∧
      perform (.operation target operation) host = match Step.result ⟨asked.before, made⟩ with
        | .ok reply => .ok (Answer.ofReply reply) (host.withScope target asked.after)
        | .error e => .error (.refused e) (host.withScope target asked.after) := by
  cases poses_of_asked h with
  | @operation _ made after space hmade there =>
      refine ⟨made, rfl, ?_⟩
      show operate handle operation host = _
      obtain ⟨heap, rfl⟩ := allocated_of_ok hmade
      rw [operate_eq, bind_run, hmade]
      simp only
      rw [performed, bind_run, onSpace_run, there, Asked.after_operation]
      unfold Step.result Step.after EStateM.run
      simp only
      cases made.perform ⟨space, (host.setHeap heap).world⟩ <;> rfl

/-- **A command that asks nothing of a namespace moves nothing**, unless it is about realms and handles or about debugging. -/
theorem unmoved_of_not_asked (h : host.asked? command = none)
    (hrealm : ∀ about, command ≠ .realm about) (hdebugging : ∀ about, command ≠ .debugging about) :
    host.Unmoved (left (perform command host)) := by
  cases command with
  | operation target operation =>
      show host.Unmoved (left (operate target operation host))
      rw [operate_eq]
      obtain ⟨heap, -, ⟨made, hmade, hrun⟩ | ⟨e, herror, hrun⟩⟩ :=
        allocated_run (operation.mapM Expr.eval) (performed target) host
      · simp only [asked?, hmade] at h
        rw [hrun]
        exact (Unmoved.setHeap host heap).trans (.of_onSpace h made.perform _)
      · rw [hrun]
        exact .setHeap host heap
  | call target spec args =>
      show host.Unmoved (left (callSpec target spec args host))
      rw [callSpec_eq]
      exact .of_onSpace h (Scope.find spec) (called args)
  | edit target change =>
      show host.Unmoved (left (edit target change host))
      rw [edit_eq]
      obtain ⟨heap, -, ⟨made, hmade, hrun⟩ | ⟨e, herror, hrun⟩⟩ :=
        allocated_run (change.mapM Expr.eval)
          (fun made => onSpace target (modifyGet made.apply) >>= edited) host
      · simp only [asked?, hmade] at h
        rw [hrun]
        exact (Unmoved.setHeap host heap).trans (.of_onSpace h (modifyGet made.apply) edited)
      · rw [hrun]
        exact .setHeap host heap
  | table target command =>
      show host.Unmoved (left (tableStep target command host))
      cases command with
      | load name =>
          simp only [asked?] at h
          rw [load_run]
          cases htable : host.tables[name]? with
          | none => cases host.spaceOf? target <;> exact .refl host
          | some table =>
              simp only [htable] at h
              rw [Option.map_eq_none_iff.mp h]
              exact .refl host
      | save name =>
          show host.Unmoved (left ((space target >>= fun space => _) host))
          rw [bind_run, space_run]
          cases host.spaceOf? target with
          | none => exact .refl host
          | some space => exact ⟨rfl, rfl, rfl, rfl, rfl⟩
      | _ =>
          unfold tableStep
          exact .of_allocates _ host
  | realm about => exact absurd rfl (hrealm about)
  | debugging about => exact absurd rfl (hdebugging about)
  | describe target name? =>
      unfold perform
      exact .of_allocates _ host
  | hold register value =>
      show host.Unmoved (left ((value.eval >>= fun value => _) host))
      rw [bind_run]
      have hmade := Unmoved.of_allocates value.eval host
      cases heq : value.eval host with
      | error e after =>
          rw [heq] at hmade
          exact hmade
      | ok value after =>
          rw [heq] at hmade
          exact hmade.trans ⟨rfl, rfl, rfl, rfl, rfl⟩
  | value about => exact .of_allocates (valueStep about) host
  | cell about => exact .of_allocates (cellStep about) host

/-! ### What requests find -/

/-- What a command asks is asked in a closed scope, and the values that it gives are there. -/
structure Sound (host : Host) (asked : Asked) : Prop where
  closed : asked.before.Closed
  given : ∀ v, asked.request.Gives v → asked.before.world.heap.Has v
  made : host.world.heap.Extends asked.before.world.heap

theorem Sound.asking {after : Host} {space : Namespace} {request : Request}
    (hclosed : after.Closed) (hgiven : ∀ v, request.Gives v → after.world.heap.Has v)
    (hmade : host.world.heap.Extends after.world.heap)
    (there : after.spaceOf? handle = some space) : host.Sound ⟨⟨space, after.world⟩, request⟩ := by
  obtain ⟨place, -, hthere⟩ := placeOf?_of_space there
  exact ⟨hclosed.scope hthere, hgiven, hmade⟩

/-- **Whatever a closed host asks of a namespace, the values that it gives are there.** -/
theorem Closed.sound (hclosed : host.Closed) (h : host.asked? command = some (handle, asked)) :
    host.Sound asked := by
  cases poses_of_asked h with
  | @operation operation made after space hmade there =>
      have hgrounded := Grounded.operationMapM operation (fun _ => False) host hclosed fun _ =>
        False.elim
      rw [hmade] at hgrounded
      exact .asking hgrounded.closed (hgrounded.told made after rfl) hgrounded.heap there
  | call _ there => exact .asking hclosed (fun v hv => by cases hv) (.refl _) there
  | @edit change made after space hmade there =>
      have hgrounded := Grounded.editMapM change (fun _ => False) host hclosed fun _ => False.elim
      rw [hmade] at hgrounded
      exact .asking hgrounded.closed (hgrounded.told made after rfl) hgrounded.heap there
  | load saved there =>
      refine .asking hclosed ?_ (.refl _) there
      intro v hv
      cases hv with
      | replace held => exact hclosed v (.saved saved held)

/-! ### Turns -/

/-- The host with an answer in a register, if it is a value and a register is named. -/
def noted (host : Host) (answer : Answer) (register? : Option String) : Host :=
  match answer, register? with
  | .value (some value), some register =>
    { host with registers := host.registers.insert register value }
  | _, _ => host

theorem step_run (command : Command) (register? : Option String) (host : Host) :
    step command register? host = match perform command host with
      | .ok answer after => .ok answer (after.noted answer register?)
      | .error e after => .error e after := by
  unfold step
  rw [bind_run]
  cases perform command host with
  | error e after => rfl
  | ok answer after =>
      simp only [noted]
      cases answer with
      | value value? => cases value? <;> cases register? <;> rfl
      | _ => rfl

/-- To put an answer into a register changes nothing but the register. -/
theorem noted_rest (host : Host) (answer : Answer) (register? : Option String) :
    host.Unmoved (host.noted answer register?) ∧
      (host.noted answer register?).world = host.world := by
  unfold noted
  split <;> exact ⟨⟨rfl, rfl, rfl, rfl, rfl⟩, rfl⟩

namespace Turn

variable (turn : Turn)

/-- What a turn answers is what its command comes to. -/
theorem result_eq :
    turn.outcome.result = match perform turn.command turn.before with
      | .ok answer _ => .ok answer
      | .error e _ => .error e := by
  unfold outcome attempt
  rw [step_run]
  cases perform turn.command turn.before <;> rfl

/-- What a turn leaves is what its command does, but for a register and the events. -/
theorem left_eq :
    (left (perform turn.command turn.before)).Unmoved turn.outcome.host ∧
      turn.outcome.host.world.heap = (left (perform turn.command turn.before)).world.heap := by
  rw [outcome, attempt_host, step_run]
  cases perform turn.command turn.before with
  | error e after => exact ⟨⟨rfl, rfl, rfl, rfl, rfl⟩, rfl⟩
  | ok answer after =>
      obtain ⟨hunmoved, hworld⟩ := after.noted_rest answer turn.register?
      have hheap : (after.noted answer turn.register?).world.heap = after.world.heap :=
        congrArg World.heap hworld
      exact ⟨hunmoved.trans ⟨rfl, rfl, rfl, rfl, rfl⟩, hheap⟩

/-- What a turn asks of the namespace of a handle. -/
def asked? : Option (String × Asked) :=
  turn.before.asked? turn.command

end Turn

end Bindery.Host
