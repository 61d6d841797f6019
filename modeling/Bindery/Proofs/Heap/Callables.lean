/-
What a callable answers is settled when it is made.

A callable that counts its calls answers another number each time.  All others do the
same at each call, and nothing that happens later changes what they do: cells are only
added, and of the callables that are there a call changes at most the one that is
called, if that one counts.  `Heap.Keeps` says this of two heaps, an earlier and a later
one, and it is what carries the answers of a callable through everything that follows.
-/
import Bindery.Entry
import Bindery.Heap.Call
import Bindery.Heap.Lemmas

namespace Bindery

/-- A callable does the same at each call, since it counts nothing. -/
def Body.isFixed : Body → Bool
  | .builtin (.counter _) => false
  | _ => true

namespace Heap

/-- No callable goes away, and those that count nothing do what they did. -/
structure Keeps (h h' : Heap) : Prop where
  size : h.callables.size ≤ h'.callables.size
  body : ∀ c : Handle .callable, c.index < h.callables.size → (h.body c).isFixed = true →
    h'.body c = h.body c

namespace Keeps

variable {h h' h'' : Heap}

theorem refl (h : Heap) : h.Keeps h :=
  ⟨Nat.le_refl _, fun _ _ _ => rfl⟩

theorem trans (hkeeps : h.Keeps h') (hkeeps' : h'.Keeps h'') : h.Keeps h'' := by
  refine ⟨Nat.le_trans hkeeps.size hkeeps'.size, ?_⟩
  intro c hc hfixed
  have hbody := hkeeps.body c hc hfixed
  rw [hkeeps'.body c (Nat.lt_of_lt_of_le hc hkeeps.size) (by rw [hbody]; exact hfixed), hbody]

/-- A heap with the same callables keeps them. -/
theorem of_callables (hsame : h'.callables = h.callables) : h.Keeps h' := by
  refine ⟨Nat.le_of_eq (congrArg Array.size hsame.symm), ?_⟩
  intro c _ _
  rw [Heap.body, Heap.body, hsame]

theorem newCallable (h : Heap) (body : Body) : h.Keeps (h.newCallable body).2 := by
  refine ⟨?_, ?_⟩
  · show h.callables.size ≤ (h.callables.push body).size
    rw [Array.size_push]
    omega
  · intro c hc _
    exact h.body_newCallable_of_lt body hc

/-- To change a callable that counts changes no other. -/
theorem setBody (h : Heap) {c : Handle .callable} (hcounts : (h.body c).isFixed = false)
    (body : Body) : h.Keeps (h.setBody c body) := by
  refine ⟨?_, ?_⟩
  · show h.callables.size ≤ (h.callables.setIfInBounds c.index body).size
    exact Nat.le_of_eq Array.size_setIfInBounds.symm
  · intro c' _ hfixed
    have hne : c.index ≠ c'.index := by
      intro heq
      have hsame : c' = c := by
        cases c
        cases c'
        simp_all
      rw [hsame, hcounts] at hfixed
      cases hfixed
    simp [Heap.body, Heap.setBody, Array.getD_eq_getD_getElem?, hne]

end Keeps

/-- What a callable of a stub does depends on references only. -/
theorem stubBody_congr {h h' : Heap} (hrefs : h'.refs = h.refs) (raw : Value) (name : String) :
    h'.stubBody raw name = h.stubBody raw name := by
  cases raw <;> simp [stubBody, referent, hrefs]

theorem refs_read (h : Heap) (reading : Reading) (name : String) :
    (h.read reading name).2.refs = h.refs := by
  cases reading <;> rfl

/-! ### Calls -/

/-- The heap that an outcome leaves behind. -/
def left {α : Type} : EStateM.Result BindError Heap α → Heap
  | .ok _ h => h
  | .error _ h => h

theorem get_bind_run {α : Type} (next : Heap → Action α) (h : Heap) :
    (MonadState.get >>= next : Action α) h = next h h := rfl

/-- A call changes at most the callable that is called, if that one counts. -/
theorem keeps_call (args : List Value) (callee : Handle .callable) (h : Heap) :
    h.Keeps (left (call args callee h)) := by
  induction args, callee using call.induct with
  | case1 args callee ih =>
    unfold call
    rw [get_bind_run]
    cases hbody : h.body callee with
    | constant value => exact .refl h
    | undefined name => exact .refl h
    | builtin builtin =>
        cases builtin with
        | allArguments => exact .of_callables rfl
        | sum => cases sum 0 args <;> exact .refl h
        | counter calls => exact .setBody h (by rw [hbody]; rfl) _
        | apply =>
            simp only
            split
            · exact ih
            · exact .refl h
        | _ => exact .refl h

/-- Every call of a callable answers the same, whatever the arguments, and changes nothing. -/
def Answers (h : Heap) (c : Handle .callable) (answer : Except BindError Value) : Prop :=
  ∀ args, (call args c).run h = match answer with
    | .ok value => .ok value h
    | .error e => .error e h

/--
What a stub answers, when its qualified name is `name`: what its reference refers to, or
that it was declared without a body.
-/
def stubAnswer (h : Heap) (raw : Value) (name : String) : Except BindError Value :=
  match raw with
  | .ref r => .ok (h.referent r)
  | _ => .error (.undefinedCallable name)

theorem isFixed_stubBody (h : Heap) (raw : Value) (name : String) :
    (h.stubBody raw name).isFixed = true := by
  cases raw <;> rfl

/-- A callable that does what a stub says answers what the stub answers. -/
theorem answers_of_stubBody {h h' : Heap} {c : Handle .callable} {raw : Value} {name : String}
    (hbody : h'.body c = h.stubBody raw name) : h'.Answers c (h.stubAnswer raw name) := by
  intro args
  show call args c h' = _
  unfold call
  rw [get_bind_run, hbody]
  cases raw <;> rfl

end Heap

end Bindery
