/-
What a host does to its streams.

A stream is reached by whatever is written to denote it: a register, or what was put into one from
a slot, a sequence or anywhere else that a copy of its handle was kept.  Lines are written, read
and asked for, and streams are closed, by commands on cells alone, and such a command changes the
stream that it denotes and no other.  All else leaves every stream as it is (`Heap.StreamsStay`),
since an action on values may change anything but streams (`Heap.Changes`).

So of a course of turns only those that act on a stream have to be looked at, and what they do
and are answered is a history of the stream.
-/
import Bindery.Proofs.Heap.Stream
import Bindery.Proofs.Host.Asked

namespace Bindery

/-! ### Streams that are left alone -/

namespace Heap

/-- Cells only come to be, and streams stay as they are. -/
structure StreamsStay (h h' : Heap) : Prop extends Grows h h' where
  lineStream : ∀ s : Handle .stream, s.index < h.streams.size → h'.lineStream s = h.lineStream s

namespace StreamsStay

variable {h h' h'' : Heap}

theorem refl (h : Heap) : h.StreamsStay h :=
  ⟨.refl h, fun _ _ => rfl⟩

theorem trans (hstay : h.StreamsStay h') (hstay' : h'.StreamsStay h'') : h.StreamsStay h'' where
  toGrows := hstay.toGrows.trans hstay'.toGrows
  lineStream s hs := by
    rw [hstay'.lineStream s (Nat.lt_of_lt_of_le hs (hstay.count .stream)), hstay.lineStream s hs]

theorem of_extends (hext : h.Extends h') : h.StreamsStay h' :=
  ⟨hext.toGrows, hext.lineStream⟩

end StreamsStay

instance : Growth StreamsStay := ⟨.refl, .trans, StreamsStay.toGrows⟩

instance : Changes StreamsStay where
  made := .of_extends
  setItems h s items := ⟨.setItems h s items, fun _ _ => rfl⟩
  setPairs h m pairs := ⟨.setPairs h m pairs, fun _ _ => rfl⟩
  setBody h c body := ⟨.setBody h c body, fun _ _ => rfl⟩

end Heap

/-! ### Events -/

/-- The stream that a command acts on, as it is written. -/
def CellCommand.stream? : CellCommand → Option Expr
  | .write on _ | .read on | .close on | .state on => some on
  | _ => none

/-- The event that a command on a stream is, by its answer. -/
def CellCommand.event? : CellCommand → Answer → Option StreamEvent
  | .write _ line, .flag accepted => some (.wrote line accepted)
  | .read _, .maybeText line? => some (.read line?)
  | .close _, .done => some .closed
  | .state _, .stream stream => some (.asked stream.pending stream.closed)
  | _, _ => none

/-- To change a stream is to act on one. -/
theorem CellCommand.not_flows {command : CellCommand} (h : command.stream? = none) :
    ¬ command.Flows := by
  cases command with
  | write _ _ | read _ | close _ | state _ => cases h
  | _ => exact id

namespace Host

/-- The stream that is denoted by what is written. -/
def streamOf? (host : Host) (e : Expr) : Option (Handle .stream) :=
  match Host.evalStream e host with
  | .ok s _ => some s
  | .error _ _ => none

namespace Turn

/-- The stream that the command of a turn acts on. -/
def stream? (turn : Turn) : Option (Handle .stream) :=
  match turn.command with
  | .cell command => command.stream?.bind turn.before.streamOf?
  | _ => none

/-- What is done in a turn through a stream, with what is answered. -/
def event? (s : Handle .stream) (turn : Turn) : Option StreamEvent :=
  match turn.command, turn.outcome.result with
  | .cell command, .ok answer => if turn.stream? = some s then command.event? answer else none
  | _, _ => none

end Turn

/-- What is done in some turns through a stream. -/
def history (s : Handle .stream) (turns : List Turn) : List StreamEvent :=
  turns.filterMap (·.event? s)

/-! ### Commands on a stream -/

/-- What denotes a stream is a value that is made, and is there. -/
theorem evalStream_made {host : Host} (hclosed : host.Closed) (on : Expr) :
    host.world.heap.Extends (left (Host.evalStream on host)).world.heap ∧
      ∀ s mid, Host.evalStream on host = .ok s mid → s.index < mid.world.heap.streams.size := by
  refine ⟨(Grounded.evalStream on (fun _ => False) host hclosed fun _ => False.elim).heap, ?_⟩
  intro s mid hstream
  have htold := (Grounded.eval on (fun _ => False) host hclosed fun _ => False.elim).told
  unfold Host.evalStream at hstream
  rw [bind_run] at hstream
  cases heval : on.eval host with
  | error e after =>
      rw [heval] at hstream
      cases hstream
  | ok value after =>
      rw [heval] at hstream
      cases value <;> cases hstream
      exact htold _ _ heval _ rfl .stream s.index rfl

/-- A command on a stream fails where none is denoted. -/
theorem cellStep_failed {command : CellCommand} {on : Expr} (hon : command.stream? = some on)
    {host mid : Host} {e : HostError} (hstream : Host.evalStream on host = .error e mid) :
    Host.cellStep command host = .error e mid := by
  cases command with
  | write _ _ | read _ | close _ | state _ =>
      cases hon
      show (Host.evalStream on >>= _) host = _
      rw [bind_run, hstream]
  | _ => cases hon

/-- What a command on a stream does to the stream that it denotes, and to no other. -/
theorem cellStep_stream {command : CellCommand} {on : Expr} (hon : command.stream? = some on)
    {host mid : Host} {s : Handle .stream} (hstream : Host.evalStream on host = .ok s mid)
    (hs : s.index < mid.world.heap.streams.size) :
    ∃ answer after event, Host.cellStep command host = .ok answer after ∧
      command.event? answer = some event ∧
      (mid.world.heap.lineStream s).Does event (after.world.heap.lineStream s) ∧
      ∀ t, t ≠ s → after.world.heap.lineStream t = mid.world.heap.lineStream t := by
  have hset (stream : LineStream) (t : Handle .stream) :
      (mid.world.heap.setStream s stream).lineStream t
        = if t = s then stream else mid.world.heap.lineStream t :=
    Heap.lineStream_setStream _ hs stream t
  cases command with
  | write e line =>
      cases hon
      let written := (mid.world.heap.lineStream s).write line
      refine ⟨.flag written.1, mid.setHeap (mid.world.heap.setStream s written.2),
        .wrote line written.1, ?_, rfl, ?_, fun t ht => (hset written.2 t).trans (if_neg ht)⟩
      · show (Host.evalStream on >>= _) host = _
        rw [bind_run, hstream]
        rfl
      · exact congrArg (Prod.mk written.1) ((hset written.2 s).trans (if_pos rfl)).symm
  | read e =>
      cases hon
      let read := (mid.world.heap.lineStream s).read
      refine ⟨.maybeText read.1, mid.setHeap (mid.world.heap.setStream s read.2), .read read.1, ?_,
        rfl, ?_, fun t ht => (hset read.2 t).trans (if_neg ht)⟩
      · show (Host.evalStream on >>= _) host = _
        rw [bind_run, hstream]
        rfl
      · exact congrArg (Prod.mk read.1) ((hset read.2 s).trans (if_pos rfl)).symm
  | close e =>
      cases hon
      let shut := (mid.world.heap.lineStream s).close
      refine ⟨.done, mid.setHeap (mid.world.heap.setStream s shut), .closed, ?_, rfl,
        ((hset shut s).trans (if_pos rfl)).symm, fun t ht => (hset shut t).trans (if_neg ht)⟩
      show (Host.evalStream on >>= _) host = _
      rw [bind_run, hstream]
      rfl
  | state e =>
      cases hon
      refine ⟨.stream (mid.world.heap.lineStream s), mid, .asked _ _, ?_, rfl, ⟨rfl, rfl, rfl⟩,
        fun _ _ => rfl⟩
      show (Host.evalStream on >>= _) host = _
      rw [bind_run, hstream]
      rfl
  | _ => cases hon

/-! ### Turns -/

/-- Of a turn that does not act on a stream there is no event. -/
theorem Turn.event?_eq_none {turn : Turn} {s : Handle .stream} (h : turn.stream? ≠ some s) :
    turn.event? s = none := by
  unfold Turn.event?
  split
  · exact if_neg h
  · rfl

/-- A turn in which a command acts on a stream is an event of that stream, and of no other. -/
theorem Turn.flow_of_stream {turn : Turn} (hclosed : turn.before.Closed) {command : CellCommand}
    {on : Expr} (hcommand : turn.command = .cell command) (hon : command.stream? = some on)
    {t : Handle .stream} {mid : Host} (hstream : Host.evalStream on turn.before = .ok t mid)
    (s : Handle .stream)
    (hs : s.index < turn.before.world.heap.streams.size) :
    if s = t then ∃ event, turn.event? s = some event ∧
      (turn.before.world.heap.lineStream s).Does event (turn.outcome.host.world.heap.lineStream s)
    else turn.outcome.host.world.heap.lineStream s = turn.before.world.heap.lineStream s := by
  obtain ⟨hmade, hthere⟩ := evalStream_made hclosed on
  rw [hstream] at hmade
  obtain ⟨answer, after, event, hrun, hevent, hdoes, hothers⟩ :=
    cellStep_stream hon hstream (hthere t mid hstream)
  have hperform : perform turn.command turn.before = .ok answer after := by
    rw [hcommand]
    exact hrun
  have hresult : turn.outcome.result = .ok answer := by rw [turn.result_eq, hperform]
  have hheap : turn.outcome.host.world.heap = after.world.heap := by rw [turn.left_eq.2, hperform]; rfl
  rw [hheap, ← hmade.lineStream s hs]
  by_cases heq : s = t
  · subst heq
    rw [if_pos rfl]
    refine ⟨event, ?_, hdoes⟩
    have htarget : turn.stream? = some s := by
      simp [Turn.stream?, hcommand, hon, streamOf?, hstream]
    simp [Turn.event?, hcommand, hresult, htarget, hevent]
  · rw [if_neg heq]
    exact hothers s heq

/-- A turn whose command acts on no stream leaves all of them as they are. -/
theorem Turn.streamsStay {turn : Turn} (hclosed : turn.before.Closed)
    (hquiet : ∀ command, turn.command = .cell command → command.stream? = none) :
    turn.before.world.heap.StreamsStay turn.outcome.host.world.heap := by
  have hflows : ¬ turn.command.Flows := by
    intro hflows
    cases hcommand : turn.command with
    | cell command =>
        rw [hcommand] at hflows
        exact CellCommand.not_flows (hquiet command hcommand) hflows
    | _ =>
        rw [hcommand] at hflows
        exact hflows
  exact (turn.changes (fun h => absurd h hflows) hclosed).2

/-- A turn does to a stream what its event tells, and nothing if the turn does not act on it. -/
theorem Turn.flow (turn : Turn) (hclosed : turn.before.Closed) {s : Handle .stream}
    (hs : s.index < turn.before.world.heap.streams.size) :
    (∃ event, turn.event? s = some event ∧
      (turn.before.world.heap.lineStream s).Does event
        (turn.outcome.host.world.heap.lineStream s)) ∨
    turn.stream? ≠ some s ∧
      turn.outcome.host.world.heap.lineStream s = turn.before.world.heap.lineStream s := by
  by_cases hacts : ∃ command on, turn.command = .cell command ∧ command.stream? = some on
  · obtain ⟨command, on, hcommand, hon⟩ := hacts
    cases hstream : Host.evalStream on turn.before with
    | ok t mid =>
        have hflow := turn.flow_of_stream hclosed hcommand hon hstream s hs
        by_cases heq : s = t
        · rw [if_pos heq] at hflow
          exact .inl hflow
        · rw [if_neg heq] at hflow
          refine .inr ⟨?_, hflow⟩
          simpa [Turn.stream?, hcommand, hon, streamOf?, hstream] using Ne.symm heq
    | error e mid =>
        have hmade := (evalStream_made hclosed on).1
        have hperform : perform turn.command turn.before = .error e mid := by
          rw [hcommand]
          exact cellStep_failed hon hstream
        refine .inr ⟨by simp [Turn.stream?, hcommand, hon, streamOf?, hstream], ?_⟩
        rw [turn.left_eq.2, hperform]
        rw [hstream] at hmade
        exact hmade.lineStream s hs
  · have hquiet (command : CellCommand) (hcommand : turn.command = .cell command) :
        command.stream? = none :=
      Option.eq_none_iff_forall_ne_some.mpr fun on hon => hacts ⟨command, on, hcommand, hon⟩
    have hnone : turn.stream? = none := by
      unfold Turn.stream?
      split
      · rename_i command hcommand
        rw [hquiet command hcommand]
        rfl
      · rfl
    exact .inr ⟨by simp [hnone], (Turn.streamsStay hclosed hquiet).lineStream s hs⟩

/-- A course leads a stream from what it was through what is done to what it is. -/
theorem Course.flow {host last : Host} {turns : List Turn} (course : Course host turns last)
    (hclosed : host.Closed) {s : Handle .stream} (hs : s.index < host.world.heap.streams.size) :
    LineStream.Flow (host.world.heap.lineStream s) (history s turns)
        (last.world.heap.lineStream s) ∧
      ∀ turn ∈ turns, turn.stream? = some s → (turn.event? s).isSome = true := by
  induction course with
  | done host => exact ⟨.still _, fun _ hmem => absurd hmem List.not_mem_nil⟩
  | @turn turn turns last rest ih =>
      obtain ⟨hafter, hgrows⟩ := turn.closed hclosed
      obtain ⟨hflow, hall⟩ := ih hafter (Nat.lt_of_lt_of_le hs (hgrows.count .stream))
      rcases turn.flow hclosed hs with ⟨event, hevent, hdoes⟩ | ⟨hother, hsame⟩
      · have hhistory : history s (turn :: turns) = event :: history s turns :=
          List.filterMap_cons_some hevent
        refine ⟨?_, ?_⟩
        · rw [hhistory]
          exact .event hdoes hflow
        · intro found hmem hstream
          rcases List.mem_cons.mp hmem with rfl | hmem
          · rw [hevent]
            rfl
          · exact hall found hmem hstream
      · have hhistory : history s (turn :: turns) = history s turns :=
          List.filterMap_cons_none (Turn.event?_eq_none hother)
        refine ⟨?_, ?_⟩
        · rw [hhistory, ← hsame]
          exact hflow
        · intro found hmem hstream
          rcases List.mem_cons.mp hmem with rfl | hmem
          · exact absurd hstream hother
          · exact hall found hmem hstream

/--
**Streams lose no line until they are closed.**  Whatever a host is asked from when a stream is new
on, in any order and by way of any copies of its handle, every command that acts on the stream is
answered as one; a line is accepted exactly if the stream was not closed before; the lines that
were read, followed by those that wait, are the lines that were accepted, in their order; a read
finds nothing exactly if all of them had been read; as many wait as were accepted and not read;
and a stream that is closed stays closed.
-/
theorem streams_lossless {host last : Host} {turns : List Turn} (course : Course host turns last)
    (hclosed : host.Closed) {s : Handle .stream} (hs : s.index < host.world.heap.streams.size)
    (hnew : host.world.heap.lineStream s = {}) :
    (∀ turn ∈ turns, turn.stream? = some s → (turn.event? s).isSome = true) ∧
      LineStream.Lossless (history s turns) (last.world.heap.lineStream s) := by
  obtain ⟨hflow, hall⟩ := course.flow hclosed hs
  rw [hnew] at hflow
  exact ⟨hall, hflow.lossless⟩

/-- A stream that one copy of its handle closes is read to its end by way of another. -/
theorem closed_stream_read :
    ∃ host turns last, Course host turns last ∧
      turns.map Turn.command = [.cell (.write (.register "a") "x"), .cell (.close (.register "b")),
        .cell (.write (.register "a") "y"), .cell (.read (.register "b"))] ∧
      history ⟨0⟩ turns = [.wrote "x" true, .closed, .wrote "y" false, .read (some "x")] ∧
      StreamEvent.taken (history ⟨0⟩ turns) ++ (last.world.heap.lineStream ⟨0⟩).lines = ["x"] := by
  let heap := (Heap.newStream {} {}).2
  let registers : Dict Value := ((∅ : Dict Value).insert "a" (.stream ⟨0⟩)).insert "b" (.stream ⟨0⟩)
  let host : Host := { Host.setHeap {} heap with registers }
  have hmade : Closed (Host.setHeap {} heap) :=
    closed_empty.setHeap (Heap.Extends.newStream {} {}).toGrows (Heap.closed_empty.newStream {})
  have hhas : heap.Has (.stream ⟨0⟩) := Heap.has_newStream {} {}
  have hclosed : host.Closed := (hmade.setRegister "a" hhas).setRegister "b" hhas
  have course := Course.turn ⟨host, .cell (.write (.register "a") "x"), none⟩ <|
    .turn ⟨_, .cell (.close (.register "b")), none⟩ <|
    .turn ⟨_, .cell (.write (.register "a") "y"), none⟩ <|
    .turn ⟨_, .cell (.read (.register "b")), none⟩ <| .done _
  obtain ⟨-, hlossless⟩ := streams_lossless course hclosed (s := ⟨0⟩) Nat.zero_lt_one rfl
  refine ⟨host, _, _, course, rfl, ?_⟩
  rw [hlossless.order]
  suffices hhistory : history ⟨0⟩ _ = _ from ⟨hhistory, congrArg StreamEvent.accepted hhistory⟩
  decide +kernel

end Host

end Bindery
