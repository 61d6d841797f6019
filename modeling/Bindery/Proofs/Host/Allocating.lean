/-
Actions of a host that only allocate.

To make written values, and to act on them, changes the heap and nothing else that a
host knows.  Such actions are closed under sequencing, so an action is shown to be one
by looking at its parts; `Allocates` is a class, so that it is found of what is put
together of such actions.
-/
import Bindery.Proofs.Host.Parts
import Bindery.Proofs.Host.Run

namespace Bindery.Host

/-- The host with another heap. -/
def setHeap (host : Host) (heap : Heap) : Host :=
  { host with world := { host.world with heap } }

/-- Nothing but the heap is changed by an action, however it ends. -/
class Allocates {α : Type} (act : Action α) : Prop where
  heap : ∀ host : Host, ∃ heap, left (act host) = host.setHeap heap

namespace Allocates

variable {α β : Type}

/-! ### Parts of actions -/

instance pure (a : α) : Allocates (Pure.pure a : Action α) :=
  ⟨fun host => ⟨host.world.heap, rfl⟩⟩

instance throw (e : HostError) : Allocates (MonadExcept.throw e : Action α) :=
  ⟨fun host => ⟨host.world.heap, rfl⟩⟩

instance get : Allocates (MonadState.get : Action Host) :=
  ⟨fun host => ⟨host.world.heap, rfl⟩⟩

instance bind (act : Action α) (next : α → Action β) [hact : Allocates act]
    [hnext : ∀ a, Allocates (next a)] : Allocates (act >>= next) where
  heap host := by
    obtain ⟨heap, hheap⟩ := hact.heap host
    rw [bind_run]
    cases heq : act host with
    | ok a after =>
        obtain rfl : after = host.setHeap heap := by rw [← hheap, heq]; rfl
        obtain ⟨heap', hheap'⟩ := (hnext a).heap (host.setHeap heap)
        exact ⟨heap', hheap'⟩
    | error e after =>
        obtain rfl : after = host.setHeap heap := by rw [← hheap, heq]; rfl
        exact ⟨heap, rfl⟩

instance require (found? : Option α) (e : HostError) : Allocates (Host.require found? e) := by
  cases found? with
  | none => exact throw e
  | some found => exact pure found

instance onHeap (act : Heap.Action α) : Allocates (Host.onHeap act) where
  heap host := by
    unfold Host.onHeap
    split
    · exact ⟨_, rfl⟩
    · exact ⟨_, rfl⟩

instance heapAction : Allocates Host.heap :=
  inferInstanceAs (Allocates (MonadState.get >>= fun host : Host => Pure.pure host.world.heap))

/-- All that is done with values only allocates. -/
theorem parts : Parts @Allocates where
  pure _ := inferInstance
  throw _ := inferInstance
  bind hact hnext := @bind _ _ _ _ hact hnext
  register _ := inferInstance
  heap := inferInstance
  newCallable _ := onHeap _
  cells _ _ := onHeap _
  call _ _ := onHeap _

instance eval (e : Expr) : Allocates e.eval :=
  parts.eval e

instance operationMapM (operation : Operation Expr) : Allocates (operation.mapM Expr.eval) :=
  parts.operationMapM operation

instance draftMapM (draft : EntryDraft Expr) : Allocates (draft.mapM Expr.eval) :=
  parts.draftMapM draft

instance editMapM (edit : Edit Expr) : Allocates (edit.mapM Expr.eval) :=
  parts.editMapM edit

instance callValue (callee : Value) (args : List Expr) : Allocates (Host.callValue callee args) :=
  parts.callValue callee args

/-- **Whatever is asked about values changes the heap only.** -/
instance valueStep (command : ValueCommand) : Allocates (Host.valueStep command) :=
  parts.valueStep command

/-- **Whatever is done to sequences, mappings and streams changes the heap only.** -/
instance cellStep (command : CellCommand) : Allocates (Host.cellStep command) :=
  parts.cellStep command

end Allocates

end Bindery.Host
