/-
Whatever is asked of a namespace.

A program works with a namespace in three ways: it asks for an operation, it edits the
table, or it puts another table in the place of the one that is there.  A request is any of
the three, so that what holds of all of them is said once.
-/
import Bindery.Proofs.Namespace.Apart

namespace Bindery

/-- What may be asked of a namespace. -/
inductive Request where
  | operation (operation : Operation Value)
  | edit (edit : Edit Value)
  /-- Puts another table in the place of the one that is there. -/
  | replace (table : SymbolTable)

/-- What a request gives back. -/
inductive Response where
  | reply (reply : Reply)
  | outcome (outcome : EditOutcome)
  | replaced

/-- The name that an edit is asked of. -/
def Edit.name {V : Type} : Edit V → String
  | plantStub name _ | insert name _ | setSlot name _ _ | clearSlot name _ | openSlots name
  | erase name => name

/-- All the names that an operation looks at are among some. -/
def Operation.Within (on : String → Prop) : Operation Value → Prop
  | .names _ | .bindings _ => ∀ name, on name
  | asked => ∀ name, asked.name? = some name → on name

/-- All the names that a request looks at are among some. -/
def Request.Within (on : String → Prop) : Request → Prop
  | .operation asked => asked.Within on
  | .edit change => on change.name
  | .replace _ => ∀ name, on name

/-- Does what is requested. -/
def Request.perform : Request → Scope.Action Response
  | .operation asked => return .reply (← asked.perform)
  | .edit change => return .outcome (← modifyGet change.apply)
  | .replace table => do modify (·.setTable table); return .replaced

/-- A request and the scope it is asked of. -/
structure Asked where
  before : Scope
  request : Request

namespace Asked

/-- What is given back, or why the request is refused. -/
def result (asked : Asked) : Except BindError Response :=
  Scope.answer (asked.request.perform.run asked.before)

/-- The scope that is left behind. -/
def after (asked : Asked) : Scope :=
  Scope.left (asked.request.perform.run asked.before)

variable (s : Scope)

/-- An operation is a step. -/
theorem after_operation (operation : Operation Value) :
    after ⟨s, .operation operation⟩ = Step.after ⟨s, operation⟩ :=
  Step.left_reply s _ Response.reply

theorem result_operation (operation : Operation Value) :
    result ⟨s, .operation operation⟩ = (Step.result ⟨s, operation⟩).map .reply :=
  Step.answer_reply s _ _

theorem after_edit (edit : Edit Value) : after ⟨s, .edit edit⟩ = (edit.apply s).2 := rfl

/-! ### What a request leaves as it is -/

/-- A namespace has this identifier and this debugger. -/
def Titled (ident : String) (debugger : DebuggerId) (s : Scope) : Prop :=
  s.space.ident = ident ∧ s.space.debugger = debugger

theorem kept_titled (ident : String) (debugger : DebuggerId) : Kept True (Titled ident debugger) where
  allocate _ _ h := h
  notice _ _ _ h := h
  place s spec value? origin _ _ h := by
    unfold Titled
    rw [Scope.space_place]
    exact h
  drop _ _ h := h

theorem titled_edit (edit : Edit Value) : Titled s.space.ident s.space.debugger (edit.apply s).2 := by
  have hopen (name : String) : Titled s.space.ident s.space.debugger (s.openSlots name) := by
    obtain ⟨table, hspace, -⟩ := s.openSlots_space name
    unfold Titled
    rw [hspace]
    exact ⟨rfl, rfl⟩
  cases edit with
  | setSlot name kind value => exact hopen name
  | openSlots name => exact hopen name
  | clearSlot name kind =>
      simp only [Edit.apply]
      split <;> exact ⟨rfl, rfl⟩
  | _ => exact ⟨rfl, rfl⟩

/-- **Of a namespace itself a request changes the table and nothing else.** -/
theorem space_after (asked : Asked) :
    asked.after.space = { asked.before.space with table := asked.after.table } := by
  obtain ⟨s, request⟩ := asked
  have htitled : Titled s.space.ident s.space.debugger (after ⟨s, request⟩) := by
    cases request with
    | operation operation =>
        rw [after_operation]
        exact (kept_titled _ _).after operation (fun _ => trivial) ⟨rfl, rfl⟩
    | edit edit => exact titled_edit s edit
    | replace table => exact ⟨rfl, rfl⟩
  obtain ⟨hident, hdebugger⟩ := htitled
  show (after ⟨s, request⟩).space
    = ⟨s.space.ident, (after ⟨s, request⟩).space.table, s.space.debugger⟩
  rw [← hident, ← hdebugger]

/-- An edit of one name leaves the entries of the others. -/
theorem getElem?_edit_of_ne {edit : Edit Value} {name : String} (hne : name ≠ edit.name) :
    (edit.apply s).2.table[name]? = s.table[name]? := by
  have hinsert (entry : Entry) : (s.table.insert edit.name entry)[name]? = s.table[name]? := by
    rw [Dict.getElem?_insert, if_neg hne]
  have hopen : (s.openSlots edit.name).table[name]? = s.table[name]? := by
    obtain ⟨table, hspace, -, hother⟩ := s.openSlots_space edit.name
    show (s.openSlots edit.name).space.table[name]? = _
    rw [hspace]
    exact hother name hne
  cases edit with
  | plantStub _ raw => exact hinsert (.stub raw)
  | insert _ draft => exact hinsert draft.toEntry
  | setSlot other kind value =>
      show ((s.openSlots other).table.insert other _)[name]? = _
      rw [Dict.getElem?_insert, if_neg (show name ≠ other from hne)]
      exact hopen
  | clearSlot other kind =>
      simp only [Edit.apply]
      split
      · rfl
      · rfl
      · exact hinsert _
  | openSlots _ => exact hopen
  | erase other =>
      show (s.table.erase other)[name]? = _
      rw [Dict.getElem?_erase, if_neg (show name ≠ other from hne)]

/-- **What a request does not look at it leaves as it is.** -/
theorem getElem?_after (asked : Asked) {on : String → Prop} (hwithin : asked.request.Within on)
    {name : String} (hname : ¬ on name) : asked.after.table[name]? = asked.before.table[name]? := by
  obtain ⟨s, request⟩ := asked
  cases request with
  | operation operation =>
      rw [after_operation]
      cases haddressed : operation.name? with
      | none => rw [Scope.table_after_of_no_name haddressed]
      | some other =>
          refine Scope.getElem?_after_of_ne haddressed ?_
          rintro rfl
          cases operation with
          | names kind? => cases haddressed
          | bindings kind => cases haddressed
          | _ => exact hname (hwithin name haddressed)
  | edit edit =>
      refine getElem?_edit_of_ne s ?_
      rintro rfl
      exact hname hwithin
  | replace table => exact absurd (hwithin name) hname

end Asked

end Bindery
