/-
What was read of a stub stays what it was.

A callable that was made of a stub is a cell like any other.  Whatever becomes of the stub,
whether it is replaced, removed, discarded or made again, and whatever else a host is asked
in the meantime, no one changes what the callable does, since it counts nothing.  And every
callable that is made later is another, since the cells of a heap are never given back.
-/
import Bindery.Proofs.Heap.Equality
import Bindery.Proofs.Host.Course

namespace Bindery

/-- What was made before and what is made later are not the same callable. -/
theorem Scope.not_same_of_made {s : Scope} {name : String} {raw : Value}
    (hstub : s.table[name]? = some (.stub raw)) {operation : Operation Value}
    (hseeks : operation.Seeks name) {value : Value}
    (hobtains : Step.Obtains ⟨s, operation⟩ name value) {c : Handle .callable}
    (hmade : c.index < s.world.heap.callables.size) : value.same (.callable c) = false := by
  obtain ⟨c', hiff, hfresh, -⟩ := obtains_made hstub hseeks
  obtain rfl := (hiff value).mp hobtains
  simp only [Value.same, Value.callable.injEq, decide_eq_false_iff_not]
  intro heq
  rw [heq] at hfresh
  omega

namespace Host

/-- What a callable of a stub answers, it answers after every later course. -/
theorem Course.answers {host last : Host} {turns : List Turn} (course : Course host turns last)
    {h : Heap} {c : Handle .callable} {raw : Value} {name : String}
    (hmade : c.index < host.world.heap.callables.size)
    (hbody : host.world.heap.body c = h.stubBody raw name) :
    last.world.heap.Answers c (h.stubAnswer raw name) := by
  refine Heap.answers_of_stubBody ?_
  rw [course.keeps.body c hmade (by rw [hbody]; exact Heap.isFixed_stubBody _ _ _), hbody]

/--
**Every way to the callable of a stub agrees, and what was read stays valid.**  A read, a
vivifying read, a listing and a removal of another kind each obtain one callable.  After every
later course, whatever it does to the stub, each call of it answers the referent if the stub
is of a reference, which is the same value unless it is a NaN, and fails with the qualified
name if it is of anything else.  What any stub is read as later is not the same callable.
But once a removal has left one, all reads obtain that one, for as long as nothing is done by
which a stub would end.
-/
theorem stub_callables_agree {s : Scope} {name : String} {raw : Value}
    (hstub : s.table[name]? = some (.stub raw)) :
    (∀ operation, operation.Seeks name → ∃ c : Handle .callable,
      (∀ value, Step.Obtains ⟨s, operation⟩ name value ↔ value = .callable c) ∧
      ∀ host turns last, host.world.heap = (Step.after ⟨s, operation⟩).world.heap →
        Course host turns last →
          (∀ r, raw = .ref r →
            last.world.heap.Answers c (.ok (s.world.heap.referent r)) ∧
            ((s.world.heap.referent r).isNaN = false →
              (s.world.heap.referent r).same (s.world.heap.referent r) = true)) ∧
          ((∀ r, raw ≠ .ref r) →
            last.world.heap.Answers c (.error (.undefinedCallable (s.qualify name)))) ∧
          ∀ (t : Scope) (name' : String) (raw' : Value) operation' value,
            t.world.heap = last.world.heap → t.table[name']? = some (.stub raw') →
            operation'.Seeks name' → Step.Obtains ⟨t, operation'⟩ name' value →
              value.same (.callable c) = false) ∧
    ∀ text kind, Spec.parse text = .ok ⟨name, kind⟩ → kind ≠ .callable →
      ∃ c : Handle .callable,
        (∀ value, Step.Obtains ⟨s, .remove text⟩ name value ↔ value = .callable c) ∧
        ∀ steps t, Run (fun _ => False) (Step.after ⟨s, .remove text⟩) steps t →
          (∀ step ∈ steps, step.Passes name) →
          ∀ operation, operation.Seeks name → (∀ other, operation ≠ .remove other) →
            ∀ value, Step.Obtains ⟨t, operation⟩ name value ↔ value = .callable c := by
  refine ⟨?_, ?_⟩
  · intro operation hseeks
    obtain ⟨c, hobtains, -, hmade, hbody⟩ := Scope.obtains_made hstub hseeks
    refine ⟨c, hobtains, ?_⟩
    intro host turns last hheap course
    rw [← hheap] at hmade hbody
    have hanswers := course.answers hmade hbody
    refine ⟨?_, ?_, ?_⟩
    · rintro r rfl
      refine ⟨hanswers, ?_⟩
      intro hnumber
      rw [Value.same_self, hnumber]
      rfl
    · intro hplain
      cases raw with
      | ref r => exact absurd rfl (hplain r)
      | _ => exact hanswers
    · intro t name' raw' operation' value hlast hstub' hseeks' hobtains'
      refine Scope.not_same_of_made hstub' hseeks' hobtains' ?_
      rw [hlast]
      exact Nat.lt_of_lt_of_le hmade course.keeps.size
  · intro text kind hp hkind
    obtain ⟨value, hdone, hleft, hshows⟩ := Scope.left_shows hstub hp hkind
    obtain ⟨c, rfl, -⟩ := hshows.of_stub hstub
    refine ⟨c, ?_, ?_⟩
    · intro value
      rw [Step.obtains_of_done hdone, SymbolTable.held, SymbolTable.slots, hleft]
      simp [Entry.slots?, Slots.get_set, eq_comm]
    · intro steps t run hpasses operation hseeks hread value
      exact Scope.reads_of_left (run.left hleft rfl hpasses) hseeks hread value

/-- A namespace in which a stub of a number is planted under `n`. -/
def planted : Scope :=
  ⟨⟨"main", (∅ : SymbolTable).insert "n" (.stub (.int 1)), ⟨0⟩⟩, {}⟩

/-- What was read of the stub fails with its qualified name, also once the stub is removed. -/
theorem read_outlives_stub :
    ∃ (c : Handle .callable) (turn : Turn),
      Step.Obtains ⟨planted, .find "&n"⟩ "n" (.callable c) ∧
      turn.before.world.heap = (Step.after ⟨planted, .find "&n"⟩).world.heap ∧
      turn.outcome.result = .ok (.entry (some (.stub (.int 1)))) ∧
      turn.outcome.host.world.heap.Answers c (.error (.undefinedCallable "main::n")) := by
  have hstub : planted.table["n"]? = some (.stub (.int 1)) := rfl
  obtain ⟨hways, -⟩ := stub_callables_agree hstub
  obtain ⟨c, hobtains, hlater⟩ := hways (.find "&n") (.find rfl)
  let turn : Turn := {
    before := {
      world := (Step.after ⟨planted, .find "&n"⟩).world
      seats := (∅ : Dict Seat).insert "main" (.owned planted.space) }
    command := .operation "main" (.removeAll "n")
    register? := none }
  obtain ⟨-, hanswers, -⟩ := hlater turn.before [turn] turn.outcome.host rfl (.turn turn (.done _))
  exact ⟨c, turn, (hobtains _).mpr rfl, rfl, rfl, hanswers nofun⟩

/-- A namespace in which a stub of a reference to a NaN is planted under `n`. -/
def plantedNaN : Scope :=
  ⟨⟨"main", (∅ : SymbolTable).insert "n" (.stub (.ref ⟨0⟩)), ⟨0⟩⟩,
    { heap := { refs := #[.float ⟨0x7FF8000000000000⟩] } }⟩

/-- The callable of a stub of a NaN answers the NaN, and that is not the same as the referent. -/
theorem answer_not_same_as_referent :
    ∃ (c : Handle .callable) (value : Value) (h : Heap),
      plantedNaN.table["n"]? = some (.stub (.ref ⟨0⟩)) ∧
      Step.result ⟨plantedNaN, .find "&n"⟩ = .ok (.value (some (.callable c))) ∧
      (Heap.call [] c).run (Step.after ⟨plantedNaN, .find "&n"⟩).world.heap = .ok value h ∧
      value.same (plantedNaN.world.heap.referent ⟨0⟩) = false := by
  have hanswers : (Step.after ⟨plantedNaN, .find "&n"⟩).world.heap.Answers ⟨0⟩
      (plantedNaN.world.heap.stubAnswer (.ref ⟨0⟩) "main::n") :=
    Heap.answers_of_stubBody rfl
  exact ⟨⟨0⟩, .float ⟨0x7FF8000000000000⟩, _, rfl, rfl, hanswers [], by decide⟩

end Host

end Bindery
