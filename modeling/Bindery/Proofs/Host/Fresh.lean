/-
What a namespace supplies is not shared.

The values that a namespace supplies of its own, which are empty values and callables of stubs,
are new cells.  All that a host holds names cells that are there, so none of it is the same as a
value that is supplied.  What is done later through such a value is done to its cell alone, and
so to none of the sequences, mappings and streams that were there before.
-/
import Bindery.Proofs.Host.Asked
import Bindery.Proofs.Namespace.Supplies

namespace Bindery

/-! ### Cells that are spared -/

namespace Heap

/-- The sequences, mappings and streams that are in a first heap hold the same in two later ones. -/
structure Spares (first h h' : Heap) : Prop where
  items : ∀ s : Handle .sequence, s.index < first.sequences.size → h'.items s = h.items s
  pairs : ∀ m : Handle .mapping, m.index < first.mappings.size → h'.pairs m = h.pairs m
  lineStream : ∀ s : Handle .stream, s.index < first.streams.size → h'.lineStream s = h.lineStream s

namespace Spares

variable {first h h' h'' : Heap}

theorem refl (first h : Heap) : first.Spares h h :=
  ⟨fun _ _ => rfl, fun _ _ => rfl, fun _ _ => rfl⟩

theorem trans (hspares : first.Spares h h') (hspares' : first.Spares h' h'') :
    first.Spares h h'' where
  items s hs := (hspares'.items s hs).trans (hspares.items s hs)
  pairs m hm := (hspares'.pairs m hm).trans (hspares.pairs m hm)
  lineStream s hs := (hspares'.lineStream s hs).trans (hspares.lineStream s hs)

/-- To make cells spares those that are there. -/
theorem of_extends (hgrows : first.Grows h) (hext : h.Extends h') : first.Spares h h' where
  items s hs := hext.items s (Nat.lt_of_lt_of_le hs (hgrows.count .sequence))
  pairs m hm := hext.pairs m (Nat.lt_of_lt_of_le hm (hgrows.count .mapping))
  lineStream s hs := hext.lineStream s (Nat.lt_of_lt_of_le hs (hgrows.count .stream))

theorem setItems {s : Handle .sequence} (hs : first.Fresh (.sequence s)) (items : Array Value) :
    first.Spares h (h.setItems s items) where
  items t ht := by
    obtain ⟨_, _, heq, hcount⟩ := hs
    cases heq
    have hne : s.index ≠ t.index := (Nat.lt_of_lt_of_le ht hcount).ne'
    simp [Heap.setItems, Heap.items, Array.getD_eq_getD_getElem?, hne]
  pairs _ _ := rfl
  lineStream _ _ := rfl

theorem setPairs {m : Handle .mapping} (hm : first.Fresh (.mapping m)) (pairs : Dict Value) :
    first.Spares h (h.setPairs m pairs) where
  items _ _ := rfl
  pairs n hn := by
    obtain ⟨_, _, heq, hcount⟩ := hm
    cases heq
    have hne : m.index ≠ n.index := (Nat.lt_of_lt_of_le hn hcount).ne'
    simp [Heap.setPairs, Heap.pairs, Array.getD_eq_getD_getElem?, hne]
  lineStream _ _ := rfl

theorem setStream {s : Handle .stream} (hs : first.Fresh (.stream s)) (stream : LineStream) :
    first.Spares h (h.setStream s stream) where
  items _ _ := rfl
  pairs _ _ := rfl
  lineStream t ht := by
    obtain ⟨_, _, heq, hcount⟩ := hs
    cases heq
    have hne : s.index ≠ t.index := (Nat.lt_of_lt_of_le ht hcount).ne'
    simp [Heap.setStream, Heap.lineStream, Array.getD_eq_getD_getElem?, hne]

end Spares

end Heap

/-- What a command acts on, as it is written. -/
def CellCommand.on : CellCommand → Expr
  | .push on _ | .pop on | .item on _ | .length on | .insert on _ _ | .lookup on _ | .erase on _
  | .keys on | .size on | .write on _ | .read on | .close on | .state on => on

namespace Host

/-- An action on a host spares the cells that are in a first heap. -/
def Spares {α : Type} (first : Heap) (act : Action α) (host : Host) : Prop :=
  first.Spares host.world.heap (left (act host)).world.heap

namespace Spares

variable {α β : Type} {first : Heap} {host : Host} {act : Action α} {next : α → Action β}

theorem bind (hact : Spares first act host)
    (hnext : ∀ a after, act host = .ok a after → Spares first (next a) after) :
    Spares first (act >>= next) host := by
  unfold Spares at hact ⊢
  rw [bind_run]
  cases heq : act host with
  | error e after =>
      rw [heq] at hact
      exact hact
  | ok a after =>
      rw [heq] at hact
      exact hact.trans (hnext a after heq)

theorem pure (a : α) : Spares first (Pure.pure a) host :=
  .refl _ _

theorem modifyHeap {f : Heap → α × Heap} (h : ∀ heap, first.Spares heap (f heap).2) :
    Spares first (Host.modifyHeap f) host :=
  h host.world.heap

theorem map (f : α → β) (hact : Spares first act host) : Spares first (f <$> act) host :=
  hact.bind fun a _ _ => .pure (f a)

/-- What is read of the heap changes nothing. -/
theorem heap {next : Heap → Action β} (h : ∀ found, Spares first (next found) host) :
    Spares first (Host.heap >>= next) host :=
  h host.world.heap

variable (hclosed : host.Closed) (hgrows : first.Grows host.world.heap)
include hclosed hgrows

theorem eval (e : Expr) : Spares first e.eval host :=
  .of_extends hgrows (Grounded.eval e (fun _ => False) host hclosed fun _ => False.elim).heap

/-- What is done through a value that was new after the first heap. -/
theorem through {on : Expr} (hon : ∀ v mid, on.eval host = .ok v mid → first.Fresh v)
    {found? : Value → Option α} {e : HostError} {next : α → Action β}
    (hnext : ∀ v a mid, first.Fresh v → found? v = some a → mid.Closed →
      first.Grows mid.world.heap → Spares first (next a) mid) :
    Spares first ((on.eval >>= fun v => Host.require (found? v) e) >>= next) host := by
  have heval := Grounded.eval on (fun _ => False) host hclosed fun _ => False.elim
  rw [bind_assoc]
  refine bind (eval hclosed hgrows on) fun v mid hmid => ?_
  rw [hmid] at heval
  cases hfound : found? v with
  | none => exact .refl _ _
  | some a =>
      exact hnext v a mid (hon v mid hmid) hfound heval.closed (hgrows.trans heval.heap.toGrows)

/-- **What is done through a new value spares all sequences, mappings and streams that were there.** -/
theorem cellStep {command : CellCommand}
    (hon : ∀ v mid, command.on.eval host = .ok v mid → first.Fresh v) :
    Spares first (Host.cellStep command) host := by
  have hsequence {v : Value} {s : Handle .sequence} (hv : v.asSequence? = some s)
      (hfresh : first.Fresh v) : first.Fresh (.sequence s) := by
    cases v <;> cases hv
    exact hfresh
  have hmapping {v : Value} {m : Handle .mapping} (hv : v.asMapping? = some m)
      (hfresh : first.Fresh v) : first.Fresh (.mapping m) := by
    cases v <;> cases hv
    exact hfresh
  have hstream {v : Value} {s : Handle .stream} (hv : v.asStream? = some s)
      (hfresh : first.Fresh v) : first.Fresh (.stream s) := by
    cases v <;> cases hv
    exact hfresh
  cases command with
  | push on e =>
      refine through hclosed hgrows hon fun v s mid hfresh hv hmid hmore => ?_
      refine (eval hmid hmore e).bind fun value after _ => ?_
      exact (modifyHeap fun h => .setItems (hsequence hv hfresh) _).bind fun _ _ _ => pure _
  | pop on =>
      refine through hclosed hgrows hon fun v s mid hfresh hv _ _ => ?_
      exact map _ (modifyHeap fun h => .setItems (hsequence hv hfresh) _)
  | item on index => exact through hclosed hgrows hon fun _ _ _ _ _ _ _ => heap fun _ => pure _
  | length on => exact through hclosed hgrows hon fun _ _ _ _ _ _ _ => heap fun _ => pure _
  | insert on key e =>
      refine through hclosed hgrows hon fun v m mid hfresh hv hmid hmore => ?_
      refine (eval hmid hmore e).bind fun value after _ => ?_
      exact map _ (modifyHeap fun h => .setPairs (hmapping hv hfresh) _)
  | lookup on key => exact through hclosed hgrows hon fun _ _ _ _ _ _ _ => heap fun _ => pure _
  | erase on key =>
      refine through hclosed hgrows hon fun v m mid hfresh hv _ _ => ?_
      exact map _ (modifyHeap fun h => .setPairs (hmapping hv hfresh) _)
  | keys on => exact through hclosed hgrows hon fun _ _ _ _ _ _ _ => heap fun _ => pure _
  | size on => exact through hclosed hgrows hon fun _ _ _ _ _ _ _ => heap fun _ => pure _
  | write on line =>
      refine through hclosed hgrows hon fun v s mid hfresh hv _ _ => ?_
      exact map _ (modifyHeap fun h => .setStream (hstream hv hfresh) _)
  | read on =>
      refine through hclosed hgrows hon fun v s mid hfresh hv _ _ => ?_
      exact map _ (modifyHeap fun h => .setStream (hstream hv hfresh) _)
  | close on =>
      refine through hclosed hgrows hon fun v s mid hfresh hv _ _ => ?_
      exact modifyHeap fun h => .setStream (hstream hv hfresh) _
  | state on => exact through hclosed hgrows hon fun _ _ _ _ _ _ _ => heap fun _ => pure _

end Spares

/-! ### Turns -/

namespace Turn

variable {turn : Turn} {handle text : String} {v : Value} {space : Namespace}

/-- A namespace supplies a value in a turn. -/
def Supplies (turn : Turn) (v : Value) : Prop :=
  ∃ handle s operation, turn.asked? = some (handle, ⟨s, .operation operation⟩) ∧
    Step.Supplies ⟨s, operation⟩ v

/-- **What is supplied in a turn is none of the cells that were there.** -/
theorem Supplies.fresh (h : turn.Supplies v) (hclosed : turn.before.Closed) :
    turn.before.world.heap.Fresh v := by
  obtain ⟨handle, s, operation, hasked, hsupplies⟩ := h
  obtain ⟨⟨cell, i, hcell, hcount⟩, -⟩ := hsupplies.made
  exact ⟨cell, i, hcell, Nat.le_trans ((hclosed.sound hasked).made.count cell) hcount⟩

/-- The cells after an operation are those that the operation leaves. -/
theorem heap_of_operation {operation : Operation Expr} {asked : Asked}
    (hcommand : turn.command = .operation handle operation)
    {target : String} (hasked : turn.asked? = some (target, asked)) :
    turn.outcome.host.world.heap = asked.after.world.heap := by
  unfold asked? at hasked
  rw [turn.left_eq.2]
  rw [hcommand] at hasked ⊢
  obtain ⟨made, -, hrun⟩ := operation_run hasked
  rw [hrun]
  split
  · exact congrArg World.heap (world_withSpace _ _ _)
  · exact congrArg World.heap (world_withSpace _ _ _)

/-- An operation that succeeds is answered by its reply, and leaves the namespace as it leaves the scope. -/
theorem answered {operation : Operation Expr} {target : String} {s : Scope} {made : Operation Value}
    {reply : Reply} (hcommand : turn.command = .operation handle operation)
    (hasked : turn.asked? = some (target, ⟨s, .operation made⟩))
    (hresult : Step.result ⟨s, made⟩ = .ok reply) :
    turn.outcome.result = .ok (Answer.ofReply reply) ∧
      turn.outcome.host.spaceOf? target = some (Step.after ⟨s, made⟩).space := by
  unfold asked? at hasked
  have hpasses := passes_of_asked hasked
  refine ⟨?_, ?_⟩
  · rw [hcommand] at hasked
    obtain ⟨made', hrequest, hrun⟩ := operation_run hasked
    cases hrequest
    rw [turn.result_eq, hcommand, hrun, hresult]
  · rw [turn.left_eq.1.spaceOf?, hpasses.spaceOf?, Asked.after_operation]

/-- **A sequence, mapping or stream that is supplied in a turn is blank after it.** -/
theorem Supplies.blank (h : turn.Supplies v) (hcallable : v.asCallable? = none) :
    turn.outcome.host.world.heap.Blank v := by
  obtain ⟨handle, s, operation, hasked, hsupplies⟩ := h
  have hblank := hsupplies.blank hcallable
  have hposes := poses_of_asked hasked
  generalize hcommand : turn.command = command at hposes
  cases hposes with
  | operation =>
      rw [heap_of_operation hcommand hasked, Asked.after_operation]
      exact hblank
  | call =>
      -- a call only finds, and all that is supplied then is the callable of a stub
      cases hsupplies with
      | default asked => cases asked
      | vivified asked => cases asked
      | declared stub seeks obtained =>
          obtain ⟨c, hobtains, -⟩ := Scope.obtains_made stub seeks
          rw [(hobtains v).mp obtained] at hcallable
          cases hcallable

/-- What is done in a later turn through a value that was new spares the cells that were there. -/
theorem spares_of_cell {command : CellCommand} {first : Heap}
    (hcommand : turn.command = .cell command) (hclosed : turn.before.Closed)
    (hgrows : first.Grows turn.before.world.heap)
    (hon : ∀ u mid, command.on.eval turn.before = .ok u mid → first.Fresh u) :
    first.Spares turn.before.world.heap turn.outcome.host.world.heap := by
  rw [turn.left_eq.2, hcommand]
  exact Spares.cellStep hclosed hgrows hon

variable (hspace : turn.before.spaceOf? handle = some space)
include hspace

/-- An operation that gives no values is asked as it is written. -/
theorem asked_plainly {operation : Operation Expr} {made : Operation Value}
    (hcommand : turn.command = .operation handle operation)
    (hmade : operation.mapM Expr.eval turn.before = .ok made turn.before) :
    turn.asked? = some (handle, ⟨⟨space, turn.before.world⟩, .operation made⟩) := by
  unfold asked?
  rw [hcommand]
  simp only [Host.asked?, hmade, asking?, hspace]
  rfl

/-- **Where no value is given, a value is supplied and bound.** -/
theorem default_installed {hint : RangeHint} {spec : Spec}
    (hcommand : turn.command = .operation handle (.add text none hint))
    (hp : Spec.parse text = .ok spec) (hkind : spec.kind.needsCell = true) :
    turn.outcome.result = .ok .done ∧ ∃ v after, turn.Supplies v ∧
      turn.outcome.host.spaceOf? handle = some after ∧ after.table.held spec = some v := by
  have hasked : turn.asked? = some (handle, ⟨⟨space, turn.before.world⟩, .operation (.add text none hint)⟩) :=
    asked_plainly hspace hcommand rfl
  obtain ⟨v, hmade, -⟩ := Scope.newEmpty_of_needsCell (s := ⟨space, turn.before.world⟩) hkind
  obtain ⟨hresult, -, hheld⟩ := Scope.add_default (s := ⟨space, turn.before.world⟩) hp hint
  obtain ⟨hanswer, hafter⟩ := answered hcommand hasked hresult
  exact ⟨hanswer, v, _, ⟨_, _, _, hasked, .default rfl hp hkind (hheld v hmade)⟩, hafter,
    hheld v hmade⟩

/-- **Where nothing is found, a value is supplied, bound and given.** -/
theorem vivified_installed {spec : Spec} (hcommand : turn.command = .operation handle (.vivify text))
    (hp : Spec.parse text = .ok spec) (hkind : spec.kind.needsCell = true)
    (habsent : space.table.reading? spec = none) :
    ∃ v after, turn.outcome.result = .ok (.value (some v)) ∧ turn.Supplies v ∧
      turn.outcome.host.spaceOf? handle = some after ∧
      ∃ w, after.table.held spec = some w ∧ v.same w = true := by
  have hasked : turn.asked? = some (handle, ⟨⟨space, turn.before.world⟩, .operation (.vivify text)⟩) :=
    asked_plainly hspace hcommand rfl
  obtain ⟨v, hmade, -, hsame⟩ :=
    Scope.newEmpty_of_needsCell (s := ⟨space, turn.before.world⟩) hkind
  obtain ⟨hresult, hheld⟩ :=
    Scope.vivify_absent (s := ⟨space, turn.before.world⟩) hp habsent hmade
  obtain ⟨hanswer, hafter⟩ := answered hcommand hasked hresult
  exact ⟨v, _, hanswer, ⟨_, _, _, hasked, .vivified rfl hp hkind habsent hheld⟩, hafter, v, hheld,
    hsame⟩

end Turn

/--
**What a namespace supplies is shared with nothing.**  In every session, whatever was asked
before, an empty sequence, mapping or stream that a namespace binds because none was given or
found, and a callable that it makes of a stub, is the same as no value that a host holds then in
a slot, a stub, a saved table, a register or a cell, and as no other value of a cell that is
there.  Of one turn the callables of two stubs are not the same either.  A sequence, mapping or
stream that is supplied is empty, and a stream open.

Where no value is given for a binding of these kinds, and where a vivifying read finds none, a
value is supplied and bound, and what the vivifying read gives is the same.  And whatever is done
at any later time through a value that was supplied, every sequence, mapping and stream that was
there before holds what it held.
-/
theorem supplied_values_not_shared {turns : List Turn} {host : Host}
    (session : Session turns host) (command : Command) (register? : Option String) :
    let turn : Turn := ⟨host, command, register?⟩
    (∀ v, turn.Supplies v →
      (∀ w, host.Holds w ∨ host.world.heap.Has w → v.same w = false ∧ w.same v = false) ∧
      (v.asCallable? = none → turn.outcome.host.world.heap.Blank v) ∧
      ∀ turns' later, Course turn.outcome.host turns' later → ∀ change : CellCommand,
        (∀ u mid, change.on.eval later = .ok u mid → u = v) → ∀ register?' : Option String,
          host.world.heap.Spares later.world.heap
            (Turn.outcome ⟨later, .cell change, register?'⟩).host.world.heap) ∧
    (∀ handle s operation name name' raw raw' v w,
      turn.asked? = some (handle, ⟨s, .operation operation⟩) → name ≠ name' →
      s.table[name]? = some (.stub raw) → s.table[name']? = some (.stub raw') →
      operation.Seeks name → operation.Seeks name' →
      Step.Obtains ⟨s, operation⟩ name v → Step.Obtains ⟨s, operation⟩ name' w →
        v.same w = false) ∧
    ∀ handle text spec space, host.spaceOf? handle = some space → Spec.parse text = .ok spec →
      spec.kind.needsCell = true →
      (∀ hint, command = .operation handle (.add text none hint) →
        turn.outcome.result = .ok .done ∧ ∃ v after, turn.Supplies v ∧
          turn.outcome.host.spaceOf? handle = some after ∧ after.table.held spec = some v) ∧
      (command = .operation handle (.vivify text) → space.table.reading? spec = none →
        ∃ v after, turn.outcome.result = .ok (.value (some v)) ∧ turn.Supplies v ∧
          turn.outcome.host.spaceOf? handle = some after ∧
          ∃ w, after.table.held spec = some w ∧ v.same w = true) := by
  intro turn
  have hclosed : turn.before.Closed := session.closed
  refine ⟨?_, ?_, ?_⟩
  · intro v hsupplies
    have hfresh := hsupplies.fresh hclosed
    refine ⟨?_, hsupplies.blank, ?_⟩
    · intro w hw
      exact hfresh.not_same (hw.elim (hclosed w) id)
    · intro turns' later course change hon register?'
      obtain ⟨hafter, hgrows⟩ := turn.closed hclosed
      obtain ⟨hlater, hgrows'⟩ := course.closed hafter
      refine @Turn.spares_of_cell ⟨later, .cell change, register?'⟩ change host.world.heap rfl hlater
        (hgrows.trans hgrows') ?_
      intro u mid hu
      exact hon u mid hu ▸ hfresh
  · intro handle s operation name name' raw raw' v w hasked hne hstub hstub' hseeks hseeks' hv hw
    exact Step.obtained_apart (hclosed.sound hasked).closed hne hstub hstub' hseeks hseeks' hv hw
  · intro handle text spec space hspace hp hkind
    refine ⟨?_, ?_⟩
    · intro hint hcommand
      exact Turn.default_installed hspace hcommand hp hkind
    · intro hcommand habsent
      exact Turn.vivified_installed hspace hcommand hp hkind habsent

/-- A sequence that is bound since none was found is not the one that was bound since none was given. -/
theorem vivified_apart_from_default :
    ∃ turns host v w, Session turns host ∧
      turns.map Turn.command = [.operation "main" (.add "@a" none {})] ∧ host.Holds w ∧
      (Turn.outcome ⟨host, .operation "main" (.vivify "@b"), none⟩).result
        = .ok (.value (some v)) ∧
      w = .sequence ⟨0⟩ ∧ v.same w = false := by
  have session := (Session.start {} "main").turn (.operation "main" (.add "@a" none {})) none
  obtain ⟨hsupplied, -, hbound⟩ :=
    supplied_values_not_shared session (.operation "main" (.vivify "@b")) none
  obtain ⟨-, hvivified⟩ := hbound "main" "@b" ⟨"b", .sequence⟩ _ rfl rfl rfl
  obtain ⟨v, -, hresult, hsupplies, -⟩ := hvivified rfl rfl
  have hholds : Holds (Turn.outcome ⟨(attempt (Host.start {} "main") {}).host,
      .operation "main" (.add "@a" none {}), none⟩).host (.sequence ⟨0⟩) :=
    @Holds.bound _ (.kept "r" "main") _ _ rfl ⟨"a", _, rfl, @Entry.Stores.slot _ .sequence _ rfl⟩
  exact ⟨_, _, v, .sequence ⟨0⟩, session, rfl, hholds, hresult, rfl,
    ((hsupplied v hsupplies).1 _ (Or.inl hholds)).1⟩

end Host

end Bindery
