/-
What comes of a stream through a history.

A history is all that is done through one stream, in order, each event with what was answered.
The lines that were accepted and the lines that were taken can be read off a history alone, and
so can whether the stream was closed.  From a new stream on, what was taken followed by what still
waits is what was accepted (`Accounts`).  Each event keeps this, so all that is answered can be
told from the history before it.
-/
import Bindery.Heap.Stream

namespace Bindery

/-- What is done through a stream, with what is answered. -/
inductive StreamEvent where
  | wrote (line : String) (accepted : Bool)
  | read (line? : Option String)
  | closed
  /-- It was asked how many lines wait, and whether the stream is closed. -/
  | asked (pending : Nat) (closed : Bool)
  deriving DecidableEq, Repr

namespace StreamEvent

/-- The line that an event adds, if it is accepted. -/
def accepted? : StreamEvent → Option String
  | wrote line true => some line
  | _ => none

/-- The line that an event takes, if one waits. -/
def taken? : StreamEvent → Option String
  | read line? => line?
  | _ => none

/-- The lines that were accepted in a history. -/
def accepted (history : List StreamEvent) : List String :=
  history.filterMap accepted?

/-- The lines that were taken in a history. -/
def taken (history : List StreamEvent) : List String :=
  history.filterMap taken?

theorem accepted_concat (history : List StreamEvent) (event : StreamEvent) :
    accepted (history ++ [event]) = accepted history ++ event.accepted?.toList := by
  rw [accepted, List.filterMap_append, List.filterMap_cons]
  cases event.accepted? <;> rfl

theorem taken_concat (history : List StreamEvent) (event : StreamEvent) :
    taken (history ++ [event]) = taken history ++ event.taken?.toList := by
  rw [taken, List.filterMap_append, List.filterMap_cons]
  cases event.taken? <;> rfl

end StreamEvent

open StreamEvent (accepted taken)

namespace LineStream

/-! ### Events -/

/-- An event is what a stream does, and leads to a stream. -/
def Does (s : LineStream) : StreamEvent → LineStream → Prop
  | .wrote line ok, t => s.write line = (ok, t)
  | .read line?, t => s.read = (line?, t)
  | .closed, t => s.close = t
  | .asked pending closed, t => s.pending = pending ∧ s.closed = closed ∧ s = t

/-- A history leads from a stream to a stream. -/
inductive Flow : LineStream → List StreamEvent → LineStream → Prop where
  | still (s : LineStream) : Flow s [] s
  | event {s t u : LineStream} {event : StreamEvent} {later : List StreamEvent}
      (does : s.Does event t) (rest : Flow t later u) : Flow s (event :: later) u

/-- A line is added unless the stream is closed. -/
theorem does_wrote {s t : LineStream} {line : String} {ok : Bool} (h : s.Does (.wrote line ok) t) :
    ok = !s.closed ∧ t = if s.closed then s else { s with lines := s.lines ++ [line] } := by
  have hwrite : s.write line = (ok, t) := h
  unfold write at hwrite
  cases hshut : s.closed <;> rw [hshut] at hwrite <;> cases hwrite <;> exact ⟨rfl, rfl⟩

/-- A history with one of its events picked out. -/
theorem Flow.parted {s u : LineStream} {earlier later : List StreamEvent} {event : StreamEvent}
    (flow : Flow s (earlier ++ event :: later) u) :
    ∃ t t', Flow s earlier t ∧ t.Does event t' ∧ Flow t' later u := by
  induction earlier generalizing s with
  | nil =>
      cases flow with
      | event does rest => exact ⟨s, _, .still s, does, rest⟩
  | cons first earlier ih =>
      cases flow with
      | event does rest =>
          obtain ⟨t, t', hearlier, hdoes, hlater⟩ := ih rest
          exact ⟨t, t', .event does hearlier, hdoes, hlater⟩

/-! ### The account of a history -/

/-- What can be told of a stream from its history, if it was new at first. -/
structure Accounts (history : List StreamEvent) (s : LineStream) : Prop where
  lines : taken history ++ s.lines = accepted history
  closed : s.closed = true ↔ .closed ∈ history

namespace Accounts

variable {history : List StreamEvent} {s t : LineStream}

/-- A new stream has no history. -/
theorem new : Accounts [] {} :=
  ⟨rfl, by simp⟩

/-- Each event keeps the account. -/
theorem does {event : StreamEvent} (h : Accounts history s) (hdoes : s.Does event t) :
    Accounts (history ++ [event]) t := by
  obtain ⟨hlines, hclosed⟩ := h
  refine ⟨?lines, ?closed⟩
  case lines =>
    rw [StreamEvent.taken_concat, StreamEvent.accepted_concat, ← hlines, List.append_assoc,
      List.append_assoc, List.append_cancel_left_eq]
    cases event with
    | wrote line ok =>
        obtain ⟨rfl, rfl⟩ := does_wrote hdoes
        cases hshut : s.closed <;> simp [StreamEvent.accepted?, StreamEvent.taken?]
    | read line? =>
        cases hdoes
        cases hwaiting : s.lines <;> simp [StreamEvent.accepted?, StreamEvent.taken?]
    | closed =>
        cases hdoes
        simp [StreamEvent.accepted?, StreamEvent.taken?, close]
    | asked pending closed =>
        obtain ⟨-, -, rfl⟩ := hdoes
        simp [StreamEvent.accepted?, StreamEvent.taken?]
  case closed =>
    cases event with
    | wrote line ok =>
        obtain ⟨-, rfl⟩ := does_wrote hdoes
        simp [← hclosed, apply_ite LineStream.closed]
    | read line? =>
        cases hdoes
        simp [hclosed]
    | closed =>
        cases hdoes
        simp [close]
    | asked pending closed =>
        obtain ⟨-, -, rfl⟩ := hdoes
        simp [hclosed]

/-- A whole history keeps the account. -/
theorem flow {later : List StreamEvent} (h : Accounts history s) (flow : Flow s later t) :
    Accounts (history ++ later) t := by
  induction flow generalizing history with
  | still s => simpa using h
  | event does rest ih => simpa using ih (h.does does)

theorem of_flow (flow : Flow {} history t) : Accounts history t :=
  new.flow flow

end Accounts

/-! ### What is answered -/

/-- The lines of a history come out as they went in, and closing stops those who write only. -/
structure Lossless (history : List StreamEvent) (last : LineStream) : Prop where
  /-- A line is accepted exactly if the stream was not closed before. -/
  wrote : ∀ earlier line ok later, history = earlier ++ .wrote line ok :: later →
    (ok = true ↔ .closed ∉ earlier)
  /-- What was taken, followed by what waits, is what was accepted. -/
  order : taken history ++ last.lines = accepted history
  /-- A read finds nothing exactly if every line that was accepted had been taken. -/
  read : ∀ earlier line? later, history = earlier ++ .read line? :: later →
    (line? = none ↔ taken earlier = accepted earlier)
  /-- What waits is what was accepted without what was taken. -/
  pending : ∀ earlier pending closed later, history = earlier ++ .asked pending closed :: later →
    pending + (taken earlier).length = (accepted earlier).length
  /-- A stream is closed exactly if it was closed before. -/
  closed : ∀ earlier pending closed later, history = earlier ++ .asked pending closed :: later →
    (closed = true ↔ .closed ∈ earlier)
  /-- What is closed stays closed. -/
  shut : ∀ earlier pending between pending' closed later,
    history = earlier ++ .asked pending true :: (between ++ .asked pending' closed :: later) →
      closed = true

/-- **A new stream loses no line.** -/
theorem Flow.lossless {history : List StreamEvent} {last : LineStream}
    (flow : Flow {} history last) : Lossless history last := by
  have hasked : ∀ earlier pending closed later, history = earlier ++ .asked pending closed :: later →
      pending + (taken earlier).length = (accepted earlier).length ∧
        (closed = true ↔ .closed ∈ earlier) := by
    rintro earlier pending closed later rfl
    obtain ⟨t, _, hearlier, hdoes, -⟩ := flow.parted
    have haccounts := Accounts.of_flow hearlier
    obtain ⟨rfl, rfl, -⟩ := hdoes
    refine ⟨?_, haccounts.closed⟩
    rw [← haccounts.lines, List.length_append, LineStream.pending, Nat.add_comm]
  refine ⟨?_, (Accounts.of_flow flow).lines, ?_, fun _ _ _ _ h => (hasked _ _ _ _ h).1,
    fun _ _ _ _ h => (hasked _ _ _ _ h).2, ?_⟩
  · rintro earlier line ok later rfl
    obtain ⟨t, _, hearlier, hdoes, -⟩ := flow.parted
    obtain ⟨rfl, -⟩ := does_wrote hdoes
    simp [← (Accounts.of_flow hearlier).closed]
  · rintro earlier line? later rfl
    obtain ⟨t, _, hearlier, hdoes, -⟩ := flow.parted
    have haccounts := Accounts.of_flow hearlier
    cases hdoes
    rw [← haccounts.lines, List.head?_eq_none_iff, List.self_eq_append_right]
  · intro earlier pending between pending' closed later hhistory
    have hfirst := (hasked _ _ _ _ hhistory).2.mp rfl
    refine (hasked (earlier ++ .asked pending true :: between) pending' closed later
      (by simp [hhistory])).2.mpr ?_
    simp [hfirst]

end LineStream

end Bindery
