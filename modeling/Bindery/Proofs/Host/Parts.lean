/-
What is done with values, by its parts.

To make a written value, to ask about values and to act on sequences, mappings and streams
comes down to a few parts: registers are looked up, cells are made and changed, and callables
are called.  A property of actions that holds of these parts, and that sequencing keeps,
holds of all that is done with values.  So each such property is shown of the parts only, and
`Parts` has one clause for each.
-/
import Bindery.Host.Step

namespace Bindery.Host

/-- A property of actions that sequencing keeps and that holds of the parts of what is done with values. -/
structure Parts (P : ∀ {α : Type}, Action α → Prop) : Prop where
  pure : ∀ {α : Type} (a : α), P (Pure.pure a : Action α)
  throw : ∀ {α : Type} (e : HostError), P (MonadExcept.throw e : Action α)
  bind : ∀ {α β : Type} {act : Action α} {next : α → Action β}, P act → (∀ a, P (next a)) →
    P (act >>= next)
  register : ∀ name : String, P (do require (← MonadState.get).registers[name]? .noRegister)
  heap : P Host.heap
  newCallable : ∀ body : Body, P (modifyHeap (·.newCallable body))
  /-- Cells other than callables are made and changed. -/
  cells : ∀ {α : Type} (act : Heap → α × Heap),
    (∀ h : Heap, (act h).2.callables = h.callables) → P (modifyHeap act)
  call : ∀ (args : List Value) (callee : Handle .callable), P (onHeap (Heap.call args callee))

/-- To wrap a value makes no callables. -/
theorem callables_wrapAll (wrapper : Wrapper) (times : Nat) (value : Value) (h : Heap) :
    (wrapper.wrapAll times value h).2.callables = h.callables := by
  induction times generalizing value h with
  | zero => rfl
  | succ times ih =>
      unfold Wrapper.wrapAll
      rw [ih]
      cases wrapper <;> rfl

namespace Parts

variable {P : ∀ {α : Type}, Action α → Prop} (parts : Parts P) {α β : Type}
include parts

theorem map (f : α → β) {act : Action α} (h : P act) : P (f <$> act) :=
  parts.bind h fun a => parts.pure (f a)

theorem require (found? : Option α) (e : HostError) : P (Host.require found? e) := by
  cases found? with
  | none => exact parts.throw e
  | some found => exact parts.pure found

/-! ### Written values -/

mutual

theorem eval (e : Expr) : P e.eval := by
  cases e with
  | ref target =>
      simp only [Expr.eval]
      exact parts.bind (eval target) fun target => parts.cells _ fun _ => rfl
  | sequence items =>
      simp only [Expr.eval]
      exact parts.bind (evalItems items) fun items => parts.cells _ fun _ => rfl
  | mapping pairs =>
      simp only [Expr.eval]
      exact parts.bind (evalPairs pairs) fun pairs => parts.cells _ fun _ => rfl
  | stream lines closed =>
      simp only [Expr.eval]
      exact parts.cells _ fun _ => rfl
  | constant value =>
      simp only [Expr.eval]
      exact parts.bind (eval value) fun value => parts.newCallable _
  | builtin b =>
      simp only [Expr.eval]
      exact parts.newCallable _
  | register name =>
      simp only [Expr.eval]
      exact parts.register name
  | nested wrapper times value =>
      simp only [Expr.eval]
      exact parts.bind (eval value) fun value =>
        parts.cells _ (callables_wrapAll wrapper times value)
  | _ =>
      simp only [Expr.eval]
      exact parts.pure _

theorem evalItems (items : List Expr) : P (Expr.evalItems items) := by
  cases items with
  | nil =>
      simp only [Expr.evalItems]
      exact parts.pure _
  | cons item rest =>
      simp only [Expr.evalItems]
      exact parts.bind (eval item) fun value =>
        parts.bind (evalItems rest) fun values => parts.pure _

theorem evalPairs (pairs : List (String × Expr)) : P (Expr.evalPairs pairs) := by
  cases pairs with
  | nil =>
      simp only [Expr.evalPairs]
      exact parts.pure _
  | cons pair rest =>
      simp only [Expr.evalPairs]
      exact parts.bind (eval pair.2) fun value =>
        parts.bind (evalPairs rest) fun values => parts.pure _

end

theorem optionMapM (found? : Option α) {f : α → Action β} (h : ∀ a, P (f a)) :
    P (found?.mapM f) := by
  cases found? with
  | none => exact parts.pure none
  | some found => exact parts.map some (h found)

theorem listMapM (items : List α) {f : α → Action β} (h : ∀ a, P (f a)) : P (items.mapM f) := by
  induction items with
  | nil =>
      rw [List.mapM_nil]
      exact parts.pure []
  | cons item rest ih =>
      rw [List.mapM_cons]
      exact parts.bind (h item) fun value => parts.bind ih fun values => parts.pure _

theorem operationMapM (operation : Operation Expr) : P (operation.mapM Expr.eval) := by
  cases operation with
  | add text value? hint =>
      exact parts.bind (parts.optionMapM value? parts.eval) fun value? => parts.pure _
  | _ => exact parts.pure _

theorem draftMapM (draft : EntryDraft Expr) : P (draft.mapM Expr.eval) := by
  cases draft with
  | bindings pairs =>
      refine parts.bind (parts.listMapM pairs fun pair => ?_) fun pairs => parts.pure _
      exact parts.bind (parts.eval pair.2) fun _ => parts.pure _
  | stub raw => exact parts.bind (parts.eval raw) fun raw => parts.pure _

theorem editMapM (edit : Edit Expr) : P (edit.mapM Expr.eval) := by
  cases edit with
  | plantStub name raw => exact parts.bind (parts.eval raw) fun raw => parts.pure _
  | insert name draft => exact parts.bind (parts.draftMapM draft) fun draft => parts.pure _
  | setSlot name kind value => exact parts.bind (parts.eval value) fun value => parts.pure _
  | _ => exact parts.pure _

/-! ### Commands about values -/

theorem evalSequence (e : Expr) : P (Host.evalSequence e) :=
  parts.bind (parts.eval e) fun value => parts.require value.asSequence? _

theorem evalMapping (e : Expr) : P (Host.evalMapping e) :=
  parts.bind (parts.eval e) fun value => parts.require value.asMapping? _

theorem evalStream (e : Expr) : P (Host.evalStream e) :=
  parts.bind (parts.eval e) fun value => parts.require value.asStream? _

theorem callValue (callee : Value) (args : List Expr) : P (Host.callValue callee args) :=
  parts.bind (parts.require _ _) fun callee => parts.bind (parts.evalItems args) fun args =>
    parts.bind (parts.call args callee) fun _ => parts.pure _

theorem valueStep (command : ValueCommand) : P (Host.valueStep command) := by
  cases command with
  | read e => exact parts.bind (parts.eval e) fun value => parts.pure _
  | display e =>
      exact parts.bind (parts.eval e) fun value => parts.bind parts.heap fun h => parts.pure _
  | debug e =>
      exact parts.bind (parts.eval e) fun value => parts.bind parts.heap fun h => parts.pure _
  | equal a b =>
      exact parts.bind (parts.eval a) fun a => parts.bind (parts.eval b) fun b =>
        parts.bind parts.heap fun h => parts.pure _
  | same a b =>
      exact parts.bind (parts.eval a) fun a => parts.bind (parts.eval b) fun b => parts.pure _
  | referent e =>
      exact parts.bind (parts.eval e) fun value => parts.bind parts.heap fun h => parts.pure _
  | invoke callee args =>
      exact parts.bind (parts.eval callee) fun callee => parts.callValue callee args

theorem cellStep (command : CellCommand) : P (Host.cellStep command) := by
  cases command with
  | push on e =>
      exact parts.bind (parts.evalSequence on) fun s => parts.bind (parts.eval e) fun value =>
        parts.bind (parts.cells _ fun _ => rfl) fun items => parts.pure _
  | pop on =>
      exact parts.bind (parts.evalSequence on) fun s => parts.map _ (parts.cells _ fun _ => rfl)
  | item on index =>
      exact parts.bind (parts.evalSequence on) fun s => parts.bind parts.heap fun h => parts.pure _
  | length on =>
      exact parts.bind (parts.evalSequence on) fun s => parts.bind parts.heap fun h => parts.pure _
  | insert on key e =>
      exact parts.bind (parts.evalMapping on) fun m => parts.bind (parts.eval e) fun value =>
        parts.map _ (parts.cells _ fun _ => rfl)
  | lookup on key =>
      exact parts.bind (parts.evalMapping on) fun m => parts.bind parts.heap fun h => parts.pure _
  | erase on key =>
      exact parts.bind (parts.evalMapping on) fun m => parts.map _ (parts.cells _ fun _ => rfl)
  | keys on =>
      exact parts.bind (parts.evalMapping on) fun m => parts.bind parts.heap fun h => parts.pure _
  | size on =>
      exact parts.bind (parts.evalMapping on) fun m => parts.bind parts.heap fun h => parts.pure _
  | write on line =>
      exact parts.bind (parts.evalStream on) fun s => parts.map _ (parts.cells _ fun _ => rfl)
  | read on =>
      exact parts.bind (parts.evalStream on) fun s => parts.map _ (parts.cells _ fun _ => rfl)
  | close on =>
      exact parts.bind (parts.evalStream on) fun s => parts.cells _ fun _ => rfl
  | state on =>
      exact parts.bind (parts.evalStream on) fun s => parts.bind parts.heap fun h => parts.pure _

end Parts

end Bindery.Host
