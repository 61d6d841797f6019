/-
What a host does to callables in the course of time.

A course is any number of turns, one after the other, from any host on; a session is a
course from a host that is begun.  Through all of it callables are kept: none goes away, and
those that count nothing do what they did.  Cells are made by what is written down, by reads
of stubs and by calls, and what calls change is at most a callable that counts.  All else
that a host can be asked leaves callables alone.

Actions that keep callables are closed under sequencing, so `Steady` is a class, and an
action is shown to be steady by its parts.
-/
import Bindery.Proofs.Host.Aside
import Bindery.Proofs.Host.Place
import Bindery.Proofs.Host.Session
import Bindery.Proofs.Namespace.Declared

namespace Bindery.Host

/-- A course leads from a host through turns to a host. -/
inductive Course : Host → List Turn → Host → Prop where
  | done (host : Host) : Course host [] host
  | turn (turn : Turn) {turns : List Turn} {last : Host}
      (rest : Course turn.outcome.host turns last) : Course turn.before (turn :: turns) last

/-- Callables are kept by an action, however it ends. -/
class Steady {α : Type} (act : Action α) : Prop where
  keeps : ∀ host : Host, host.world.heap.Keeps (left (act host)).world.heap

namespace Steady

variable {α β : Type}

/-! ### Parts of actions -/

/-- What is done about debugging leaves callables alone. -/
instance (priority := low) of_aside (act : Action α) [haside : Aside act] : Steady act where
  keeps host := .of_callables (congrArg Heap.callables (haside.beside host).world.heap.symm)

instance bind (act : Action α) (next : α → Action β) [hact : Steady act]
    [hnext : ∀ a, Steady (next a)] : Steady (act >>= next) where
  keeps host := by
    have hfirst := hact.keeps host
    rw [bind_run]
    cases heq : act host with
    | ok a after =>
        rw [heq] at hfirst
        exact hfirst.trans ((hnext a).keeps after)
    | error e after =>
        rw [heq] at hfirst
        exact hfirst

/-- A change of a host is steady if the heap after it keeps the callables of the heap before. -/
theorem modifyGet {f : Host → α × Host}
    (h : ∀ host : Host, host.world.heap.Keeps (f host).2.world.heap) :
    Steady (MonadState.modifyGet f : Action α) :=
  ⟨h⟩

/-- What leaves the heap as it is keeps callables. -/
theorem of_heap {f : Host → Host} (h : ∀ host : Host, (f host).world.heap = host.world.heap) :
    Steady (modify f : Action Unit) :=
  modifyGet fun host => .of_callables (congrArg Heap.callables (h host))

/-! ### Values -/

theorem onHeap {act : Heap.Action α} (h : ∀ heap : Heap, heap.Keeps (Heap.left (act heap))) :
    Steady (Host.onHeap act) where
  keeps host := by
    have hact := h host.world.heap
    unfold Host.onHeap
    split
    · rename_i heq
      rw [heq] at hact
      exact hact
    · rename_i heq
      rw [heq] at hact
      exact hact

instance heapAction : Steady Host.heap :=
  inferInstanceAs (Steady (MonadState.get >>= fun host : Host => Pure.pure host.world.heap))

/-- All that is done with values keeps callables. -/
theorem parts : Parts @Steady where
  pure _ := inferInstance
  throw _ := inferInstance
  bind hact hnext := @bind _ _ _ _ hact hnext
  register _ := inferInstance
  heap := inferInstance
  newCallable body := onHeap fun heap => .newCallable heap body
  cells _ h := onHeap fun heap => .of_callables (h heap)
  call args callee := onHeap fun heap => heap.keeps_call args callee

instance operationMapM (operation : Operation Expr) : Steady (operation.mapM Expr.eval) :=
  parts.operationMapM operation

instance draftMapM (draft : EntryDraft Expr) : Steady (draft.mapM Expr.eval) :=
  parts.draftMapM draft

instance editMapM (edit : Edit Expr) : Steady (edit.mapM Expr.eval) :=
  parts.editMapM edit

instance callValue (callee : Value) (args : List Expr) : Steady (Host.callValue callee args) :=
  parts.callValue callee args

/-! ### Namespaces -/

/-- What is asked of the namespace of a handle keeps callables if the namespace does. -/
theorem onSpace (handle : String) {act : Scope.Action α}
    (h : ∀ s : Scope, s.world.heap.Keeps (Scope.left (act s)).world.heap) :
    Steady (Host.onSpace handle act) := by
  refine @bind _ _ (Host.space handle) _ _ fun space => ⟨fun host => ?_⟩
  have hact := h ⟨space, host.world⟩
  split
  · rename_i a scope heq
    rw [heq] at hact
    show host.world.heap.Keeps (host.withScope handle scope).world.heap
    rw [withScope, world_withSpace]
    exact hact
  · rename_i e scope heq
    rw [heq] at hact
    show host.world.heap.Keeps (host.withScope handle scope).world.heap
    rw [withScope, world_withSpace]
    exact hact

instance performed (handle : String) (operation : Operation Value) :
    Steady (Host.onSpace handle operation.perform) :=
  onSpace handle fun s => Step.keeps ⟨s, operation⟩

instance callSpec (handle spec : String) (args : List Expr) :
    Steady (Host.callSpec handle spec args) := by
  have hfind : Steady (Host.onSpace handle (Scope.find spec)) := by
    refine onSpace handle fun s => ?_
    have hstep := Step.keeps ⟨s, .find spec⟩
    rw [Step.after_find] at hstep
    exact hstep
  refine @bind _ _ (Host.onSpace handle (Scope.find spec)) _ _ fun callee? => ?_
  cases callee? <;> infer_instance

instance edit (handle : String) (change : Edit Expr) : Steady (Host.edit handle change) := by
  refine @bind _ _ (change.mapM Expr.eval) _ _ fun change => ?_
  have hedit : Steady (Host.onSpace handle (MonadState.modifyGet change.apply)) :=
    onSpace handle fun s => .of_callables (congrArg Heap.callables (s.heap_edit change))
  refine @bind _ _ (Host.onSpace handle _) _ _ fun outcome => ?_
  cases outcome <;> infer_instance

instance tableStep (handle : String) (command : TableCommand) :
    Steady (Host.tableStep handle command) := by
  have hsave (name : String) (table : SymbolTable) :
      Steady (modify fun host => { host with tables := host.tables.insert name table }) :=
    of_heap fun _ => rfl
  have hload (space : Namespace) : Steady (modify fun host => host.withSpace handle space) :=
    of_heap fun host => congrArg World.heap (world_withSpace host handle space)
  cases command <;> unfold Host.tableStep <;> infer_instance

/-! ### Realms -/

instance setRegister (name : String) (value : Value) : Steady (Host.setRegister name value) :=
  of_heap fun _ => rfl

instance setSeat (name : String) (seat : Seat) : Steady (Host.setSeat name seat) :=
  of_heap fun _ => rfl

instance newRealm (name : String) (settings : Settings) : Steady (Host.newRealm name settings) :=
  ⟨fun _ => .refl _⟩

instance openSpace (handle name ident : String) : Steady (Host.openSpace handle name ident) where
  keeps host := by
    rw [openSpace_run]
    cases host.realms[name]? with
    | none => exact .refl _
    | some found =>
        simp only
        unfold Realm.openSpace
        cases found.spaces[ident]? with
        | some space => exact .refl _
        | none =>
            simp only
            cases Namespace.make ident found.debugger <;> exact .refl _

theorem closeSpace (name ident : String) (handle? : Option String) :
    Steady (Host.realmStep (.closeSpace name ident handle?)) where
  keeps host := by
    rw [closeSpace_run]
    cases host.realms[name]? with
    | none => exact .refl _
    | some found =>
        simp only
        unfold Realm.closeSpace
        cases found.spaces[ident]? with
        | none => exact .refl _
        | some space => cases handle? <;> exact .refl _

instance realmStep (command : RealmCommand) : Steady (Host.realmStep command) := by
  cases command with
  | make name document? =>
      unfold Host.realmStep
      cases document? <;> infer_instance
  | newSpace handle ident debugger? =>
      unfold Host.realmStep
      have hmake (debugger : DebuggerId) : Steady (α := Answer)
          (match Namespace.make ident debugger with
          | .error e => MonadExcept.throw (.refused e)
          | .ok space => do
            Host.setSeat handle (.owned space)
            Pure.pure .done) := by
        split <;> infer_instance
      cases debugger? <;> exact bind _ _
  | closeSpace name ident handle? => exact closeSpace name ident handle?
  | _ =>
      unfold Host.realmStep
      infer_instance

/-! ### Commands -/

/-- **Whatever a host is asked, it keeps callables.** -/
instance perform (command : Command) : Steady (Host.perform command) := by
  cases command with
  | operation handle operation =>
      unfold Host.perform Host.operate
      infer_instance
  | hold register value =>
      have := parts.eval value
      unfold Host.perform
      infer_instance
  | value command => exact parts.valueStep command
  | cell command => exact parts.cellStep command
  | _ =>
      unfold Host.perform
      infer_instance

instance step (command : Command) (register? : Option String) :
    Steady (Host.step command register?) := by
  refine @bind _ _ (Host.perform command) _ _ fun answer => ?_
  split <;> infer_instance

end Steady

theorem Turn.keeps (turn : Turn) :
    turn.before.world.heap.Keeps turn.outcome.host.world.heap := by
  have hstep := (Steady.step turn.command turn.register?).keeps turn.before
  rw [Turn.outcome, attempt_host]
  exact hstep

/-- **Callables are kept through every course.** -/
theorem Course.keeps {host last : Host} {turns : List Turn} (course : Course host turns last) :
    host.world.heap.Keeps last.world.heap := by
  induction course with
  | done host => exact .refl _
  | turn turn _ ih => exact turn.keeps.trans ih

end Bindery.Host
