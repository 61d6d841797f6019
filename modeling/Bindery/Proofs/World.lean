/-
What is sent from one world to another.

A world grows: its trace gets longer and its registries hold more.  `World.Sends` says
of two worlds, the one before and the one after, what was sent to sinks in between.
The registries hold exactly that more than they did, and the events of the side
channel are those that tell of it.

`World.Unheard` says that nothing was sent, and says it of any two worlds: debuggers and
registries are as they were, and no event of the side channel was added.
-/
import Bindery.Proofs.Debugging
import Bindery.World

namespace Bindery.World

variable {w w' w'' : World}

theorem log_append (w : World) (a b : List Event) : w.log (a ++ b) = (w.log a).log b := by
  unfold log
  congr 1
  apply Array.toList_inj.mp
  simp

/-- Between two worlds exactly these places are sent, in this order. -/
structure Sends (w w' : World) (sent : List Sending) : Prop where
  debugging : w.debugging.Receives w'.debugging sent
  trace : ∃ events, w'.trace.toList = w.trace.toList ++ events ∧
    events.filter Event.isReport = sent.flatMap Sending.events

namespace Sends

theorem trans {sent sent' : List Sending} (h : w.Sends w' sent) (h' : w'.Sends w'' sent') :
    w.Sends w'' (sent ++ sent') := by
  obtain ⟨events, htrace, hevents⟩ := h.trace
  obtain ⟨events', htrace', hevents'⟩ := h'.trace
  refine ⟨h.debugging.trans h'.debugging, events ++ events', ?_, ?_⟩
  · rw [htrace', htrace, List.append_assoc]
  · rw [List.filter_append, List.flatMap_append, hevents, hevents']

/-- A change of debuggers and registries that leaves the trace alone. -/
theorem of_debugging (h : w.debugging.Receives w'.debugging []) (htrace : w'.trace = w.trace) :
    w.Sends w' [] :=
  ⟨h, [], by simp [htrace], rfl⟩

theorem refl (h : w.debugging.Linked) : w.Sends w [] :=
  of_debugging (.refl h) rfl

/-- What is sent when a place is emitted. -/
theorem emit (h : w.debugging.Linked) (d : DebuggerId) (name : String) (range : SourceRange) :
    w.Sends (w.emit d name range) (w.debugging.sendings d name range) := by
  refine ⟨.emit h d name range, (w.debugging.emit d name range).2, ?_, ?_⟩
  · simp [World.emit, World.log]
  · rw [← Debugging.emit_events, List.filter_eq_self]
    exact w.debugging.emit_isReport d name range

end Sends

/-- Between two worlds nothing is heard on the side channel. -/
structure Unheard (w w' : World) : Prop where
  debugging : w'.debugging = w.debugging
  trace : ∃ events, w'.trace.toList = w.trace.toList ++ events ∧
    ∀ event ∈ events, event.isReport = false

namespace Unheard

theorem refl (w : World) : w.Unheard w :=
  ⟨rfl, [], by simp, by simp⟩

theorem trans (h : w.Unheard w') (h' : w'.Unheard w'') : w.Unheard w'' := by
  obtain ⟨events, htrace, hevents⟩ := h.trace
  obtain ⟨events', htrace', hevents'⟩ := h'.trace
  refine ⟨h'.debugging.trans h.debugging, events ++ events', ?_, ?_⟩
  · rw [htrace', htrace, List.append_assoc]
  · intro event hevent
    rcases List.mem_append.mp hevent with hevent | hevent
    · exact hevents event hevent
    · exact hevents' event hevent

/-- Nothing is heard when the heap changes. -/
theorem allocate (w : World) (heap : Heap) : w.Unheard { w with heap } :=
  ⟨rfl, [], by simp, by simp⟩

/-- Nothing is heard by events that are not of the side channel. -/
theorem log {events : List Event} (hevents : ∀ event ∈ events, event.isReport = false) :
    w.Unheard (w.log events) :=
  ⟨rfl, events, by simp [World.log], hevents⟩

/-- Where nothing is heard, nothing is sent. -/
theorem sends (h : w.Unheard w') (hlinked : w.debugging.Linked) : w.Sends w' [] := by
  obtain ⟨events, htrace, hevents⟩ := h.trace
  refine ⟨?_, events, htrace, ?_⟩
  · rw [h.debugging]
    exact .refl hlinked
  · rw [List.flatMap_nil, List.filter_eq_nil_iff]
    intro event hevent
    simp [hevents event hevent]

end Unheard

end Bindery.World
