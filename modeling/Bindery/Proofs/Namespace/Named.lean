/-
What a namespace holds names cells that are there.

Whatever is asked of a namespace only makes cells and never changes one, so it extends the
heap.  A scope is closed if its heap is and if what its table holds is there.  A request whose
values are there leaves a closed scope closed, and what it tells is there too.

A request makes no values of its own but the empty ones and the callables of stubs.  All
others were given, or stood in a slot, in a stub or behind a reference.
-/
import Bindery.Proofs.Heap.Callables
import Bindery.Proofs.Heap.Named
import Bindery.Proofs.Namespace.Request

namespace Bindery

/-! ### Requests extend the heap -/

namespace Scope

variable (s : Scope)

theorem extends_read (spec : Spec) (reading : Reading) :
    s.world.heap.Extends (s.read spec reading).2.world.heap :=
  Heap.Extends.read _ _ _

theorem extends_readAll (found : List (Spec × Reading)) :
    s.world.heap.Extends (s.readAll found).2.world.heap := by
  induction found generalizing s with
  | nil => exact .refl _
  | cons pair rest ih => exact (s.extends_read pair.1 pair.2).trans (ih _)

/-- What a callable does that is read of a stub of one of some names. -/
def Declares (on : String → Prop) (body : Body) : Prop :=
  ∃ name raw, on name ∧ s.table[name]? = some (.stub raw) ∧
    body = s.world.heap.stubBody raw (s.qualify name)

variable {s} {on : String → Prop}

theorem makes_read {spec : Spec} {reading : Reading} (hreading : s.table.reading? spec = some reading)
    (hon : on spec.name) :
    s.world.heap.Makes (s.Declares on) (s.read spec reading).2.world.heap := by
  refine .read _ ?_
  rintro raw rfl
  rcases s.table.reading?_eq_some hreading with ⟨_, _, _, _, heq⟩ | ⟨raw', hentry, _, heq⟩
  · cases heq
  · cases heq
    exact ⟨spec.name, raw, hon, hentry, rfl⟩

theorem makes_readAll {found : List (Spec × Reading)}
    (hfound : ∀ pair ∈ found, s.table.reading? pair.1 = some pair.2)
    (hon : ∀ pair ∈ found, on pair.1.name) :
    s.world.heap.Makes (s.Declares on) (s.readAll found).2.world.heap := by
  induction found generalizing s with
  | nil => exact .refl _
  | cons pair rest ih =>
      have hfirst : s.world.heap.Makes (s.Declares on) (s.read pair.1 pair.2).2.world.heap :=
        makes_read (hfound pair (by simp)) (hon pair (by simp))
      have hrest := @ih (s.read pair.1 pair.2).2 (fun p hp => hfound p (by simp [hp]))
        fun p hp => hon p (by simp [hp])
      refine hfirst.trans (hrest.imp ?_)
      rintro body ⟨name, raw, hname, hentry, rfl⟩
      exact ⟨name, raw, hname, hentry, Heap.stubBody_congr (Heap.refs_read _ _ _) raw _⟩

/-- What is read of some specs is read of stubs of their names. -/
theorem makes_readings {specs : List Spec} (hon : ∀ spec ∈ specs, on spec.name) :
    s.world.heap.Makes (s.Declares on) (s.readAll (s.table.readings specs)).2.world.heap :=
  makes_readAll (fun _ => s.table.reading?_of_mem_readings)
    fun _ hpair => hon _ (s.table.mem_of_mem_readings hpair)

theorem makes_keep {spec : Spec} (hon : on spec.name) :
    s.world.heap.Makes (s.Declares on) (s.keep spec).2.world.heap :=
  makes_readings fun _ hsibling => (s.table.mem_siblingsOf.mp hsibling).1 ▸ hon

variable (s)

/-- All that a binding does to the heap is to make the value that is bound. -/
theorem heap_place (spec : Spec) (given? : Option Value) (origin : Origin) :
    (s.place spec given? origin).world.heap = (s.valueFor spec.kind given?).2.world.heap := by
  rw [world_place]
  rfl

theorem heap_place_some (spec : Spec) (value : Value) (origin : Origin) :
    (s.place spec (some value) origin).world.heap = s.world.heap :=
  s.heap_place spec (some value) origin

theorem makes_place (on : String → Prop) (spec : Spec) (given? : Option Value) (origin : Origin) :
    s.world.heap.Makes (s.Declares on) (s.place spec given? origin).world.heap := by
  rw [heap_place]
  cases given? with
  | some value => exact .refl _
  | none => exact .newEmpty _ _

theorem heap_renew (pairs : List (Spec × Value)) :
    (left (s.renew pairs)).world.heap = s.world.heap := by
  induction pairs generalizing s with
  | nil => rfl
  | cons pair rest ih =>
      rw [renew]
      split
      · rw [ih, heap_place_some]
      · rfl

/-- All that a removal does to the heap is to read the siblings. -/
theorem heap_remove {text : String} {spec : Spec} (hp : Spec.parse text = .ok spec) :
    (Step.after ⟨s, .remove text⟩).world.heap = (s.keep spec).2.world.heap := by
  rw [Step.after_remove, remove_run, hp]
  show (left ((s.emptied spec).renew (s.keep spec).1)).world.heap = _
  rw [heap_renew]
  rfl

/-- What is bound where nothing was found is all that is made. -/
theorem heap_vivify {text : String} {spec : Spec} {value : Value}
    (hp : Spec.parse text = .ok spec) (habsent : s.table.reading? spec = none)
    (hmade : (s.newEmpty spec.kind).1 = some value) :
    (Step.after ⟨s, .vivify text⟩).world.heap = (s.world.heap.newEmpty spec.kind).2 := by
  rw [Step.after_vivify, s.vivify_run_absent hp habsent hmade]
  exact (s.vivifying spec).heap_place_some spec value (.caller {})

/-- No edit changes the heap. -/
theorem heap_edit (edit : Edit Value) : (edit.apply s).2.world.heap = s.world.heap := by
  cases edit with
  | plantStub name raw => rfl
  | insert name draft => rfl
  | setSlot name kind value =>
      show (s.fill ⟨name, kind⟩ (some value)).world.heap = _
      rw [world_fill]
      rfl
  | clearSlot name kind =>
      simp only [Edit.apply]
      split <;> rfl
  | openSlots name =>
      show (s.openSlots name).world.heap = _
      rw [world_openSlots]
      rfl
  | erase name => rfl

end Scope

/--
**What a step makes.**  No cell goes away or changes, and the cells that come to be are blank
containers, and callables that do what stubs of the names say that the step looks at.
-/
theorem Step.makes {on : String → Prop} (step : Step) (hwithin : step.operation.Within on) :
    step.before.world.heap.Makes (step.before.Declares on) step.after.world.heap := by
  obtain ⟨s, operation⟩ := step
  show s.world.heap.Makes (s.Declares on) _
  have hon {text : String} {spec : Spec} (hp : Spec.parse text = .ok spec) :
      (Spec.parse text).toOption.map Spec.name = some spec.name := by
    rw [hp]
    rfl
  cases operation with
  | add text value? hint =>
      cases hp : Spec.parse text with
      | error e =>
          rw [Step.after_add, Scope.add_run, hp]
          exact .refl _
      | ok spec =>
          by_cases hfit : ∀ v, value? = some v → v.fits spec.kind = true
          · rw [(Step.add_of_fits hp value? hint hfit).2]
            exact s.makes_place on spec value? (.caller hint)
          · obtain ⟨e, -, hafter⟩ := Step.add_refused (s := s) hp hint hfit
            rw [hafter]
            exact .refl _
  | has text =>
      rw [Step.after_has, Scope.has_run]
      cases Spec.parse text <;> exact .refl _
  | find text =>
      rw [Step.after_find, Scope.find_run]
      cases hp : Spec.parse text with
      | error e => exact .refl _
      | ok spec =>
          simp only [Scope.lookup_eq]
          cases hreading : s.table.reading? spec with
          | none => exact .refl _
          | some reading => exact Scope.makes_read hreading (hwithin _ (hon hp))
  | vivify text =>
      cases hp : Spec.parse text with
      | error e =>
          rw [Step.after_vivify, Scope.vivify_run, hp]
          exact .refl _
      | ok spec =>
          cases hreading : s.table.reading? spec with
          | some reading =>
              rw [Step.after_vivify, Scope.vivify_run, hp]
              simp only [hreading]
              exact Scope.makes_read hreading (hwithin _ (hon hp))
          | none =>
              cases hmade : (s.newEmpty spec.kind).1 with
              | none =>
                  rw [Step.after_vivify, Scope.vivify_run, hp]
                  simp only [hreading, hmade]
                  exact .refl _
              | some value =>
                  rw [s.heap_vivify hp hreading hmade]
                  exact .newEmpty _ _
  | remove text =>
      cases hp : Spec.parse text with
      | error e =>
          rw [Step.after_remove, Scope.remove_run, hp]
          exact .refl _
      | ok spec =>
          rw [s.heap_remove hp]
          exact Scope.makes_keep (hwithin _ (hon hp))
  | removeAll name => exact .refl _
  | names kind? => exact .refl _
  | bindings kind => exact Scope.makes_readings fun spec _ => hwithin spec.name

/-- **What a request makes.** -/
theorem Asked.makes {on : String → Prop} (asked : Asked) (hwithin : asked.request.Within on) :
    asked.before.world.heap.Makes (asked.before.Declares on) asked.after.world.heap := by
  obtain ⟨s, request⟩ := asked
  cases request with
  | operation operation =>
      rw [after_operation]
      exact Step.makes ⟨s, operation⟩ hwithin
  | edit edit =>
      rw [after_edit, Scope.heap_edit]
      exact .refl _
  | replace table => exact .refl _

theorem Operation.within_all (operation : Operation Value) : operation.Within fun _ => True := by
  cases operation <;> exact fun _ => by simp

theorem Request.within_all (request : Request) : request.Within fun _ => True := by
  cases request with
  | operation operation => exact operation.within_all
  | edit edit => trivial
  | replace table => exact fun _ => trivial

theorem Step.extends (step : Step) : step.before.world.heap.Extends step.after.world.heap :=
  (step.makes step.operation.within_all).toExtends

/-- **No request takes a cell away or changes what one holds.** -/
theorem Asked.extends (asked : Asked) :
    asked.before.world.heap.Extends asked.after.world.heap :=
  (asked.makes asked.request.within_all).toExtends

/-- A value stands in an entry. -/
inductive Entry.Stores : Entry → Value → Prop where
  | slot {slots : Slots} {kind : Kind} {v : Value} (there : slots.get kind = some v) :
      Stores (.bindings slots) v
  | raw (v : Value) : Stores (.stub v) v

/-- A value stands in an entry of a table. -/
def SymbolTable.Stores (table : SymbolTable) (v : Value) : Prop :=
  ∃ (name : String) (entry : Entry), table[name]? = some entry ∧ entry.Stores v

/-- A value was found, held or behind a stub. -/
inductive Reading.Stores : Reading → Value → Prop where
  | held (v : Value) : Stores (.held v) v
  | declared (raw : Value) : Stores (.declared raw) raw

/-- A request gives a value to the namespace. -/
inductive Request.Gives : Request → Value → Prop where
  | add (text : String) (v : Value) (hint : RangeHint) :
      Gives (.operation (.add text (some v) hint)) v
  | plantStub (name : String) (raw : Value) : Gives (.edit (.plantStub name raw)) raw
  | insert (name : String) {draft : EntryDraft Value} {v : Value} (there : draft.toEntry.Stores v) :
      Gives (.edit (.insert name draft)) v
  | setSlot (name : String) (kind : Kind) (v : Value) : Gives (.edit (.setSlot name kind v)) v
  | replace {table : SymbolTable} {v : Value} (there : table.Stores v) : Gives (.replace table) v

/-- A response tells a value. -/
inductive Response.Tells : Response → Value → Prop where
  | value (v : Value) : Tells (.reply (.value (some v))) v
  | removed {entry : Entry} {v : Value} (there : entry.Stores v) :
      Tells (.reply (.entry (some entry))) v
  | bindings {found : List (String × Value)} {name : String} {v : Value}
      (there : (name, v) ∈ found) : Tells (.reply (.bindings found)) v
  | entry {entry : Entry} {v : Value} (there : entry.Stores v) :
      Tells (.outcome (.entry (some entry))) v
  | content (v : Value) : Tells (.outcome (.content (some v))) v
  | slots {slots : Slots} {kind : Kind} {v : Value} (there : slots.get kind = some v) :
      Tells (.outcome (.slots slots)) v

/-- Nothing stands in empty slots. -/
theorem Entry.not_stores_blank {v : Value} : ¬ (Entry.bindings {}).Stores v := by
  intro hstores
  cases hstores with
  | slot there => simp at there

namespace SymbolTable

variable {table : SymbolTable} {v : Value}

theorem not_stores_empty : ¬ (∅ : SymbolTable).Stores v := by
  intro hstores
  obtain ⟨name, entry, hentry, -⟩ := hstores
  rw [Std.ExtTreeMap.getElem?_empty] at hentry
  cases hentry

theorem stores_of_slots {name : String} {kind : Kind}
    (hget : (table.slots name).get kind = some v) : table.Stores v := by
  unfold SymbolTable.slots at hget
  cases hentry : table[name]? with
  | none => simp [hentry] at hget
  | some entry =>
      cases entry with
      | stub raw => simp [hentry, Entry.slots?] at hget
      | bindings slots => exact ⟨name, _, hentry, .slot (by simpa [hentry, Entry.slots?] using hget)⟩

/-- What an insertion leaves held was held, or stands in the entry. -/
theorem stores_insert {name : String} {entry : Entry}
    (hstores : SymbolTable.Stores (table.insert name entry) v) : table.Stores v ∨ entry.Stores v := by
  obtain ⟨other, found, hfound, hv⟩ := hstores
  rw [Dict.getElem?_insert] at hfound
  split at hfound
  · cases hfound
    exact Or.inr hv
  · exact Or.inl ⟨other, found, hfound, hv⟩

theorem stores_erase {name : String} (hstores : SymbolTable.Stores (table.erase name) v) :
    table.Stores v := by
  obtain ⟨other, found, hfound, hv⟩ := hstores
  rw [Dict.getElem?_erase] at hfound
  split at hfound
  · cases hfound
  · exact ⟨other, found, hfound, hv⟩

/-- What slots hold after one of them was filled was held, or fills it. -/
theorem stores_set {name : String} {kind : Kind} {value : Value}
    (hstores : (Entry.bindings ((table.slots name).set kind value)).Stores v) :
    table.Stores v ∨ v = value := by
  cases hstores with
  | slot there =>
      rw [Slots.get_set] at there
      split at there
      · exact Or.inr (Option.some.inj there).symm
      · exact Or.inl (stores_of_slots there)

/-- What a binding leaves held was held, or is bound. -/
theorem stores_bound {spec : Spec} {value? : Option Value} (hstores : (table.bound spec value?).Stores v) :
    table.Stores v ∨ value? = some v := by
  cases value? with
  | none =>
      by_cases hbound : table.contains spec.name = true
      · rw [bound, if_pos hbound] at hstores
        exact Or.inl hstores
      · rw [bound, if_neg hbound] at hstores
        rcases stores_insert hstores with hbefore | hslots
        · exact Or.inl hbefore
        · exact absurd hslots Entry.not_stores_blank
  | some value =>
      rcases stores_insert hstores with hbefore | hslots
      · exact Or.inl hbefore
      · rcases stores_set hslots with hbefore | rfl
        · exact Or.inl hbefore
        · exact Or.inr rfl

/-- What is found stands in the table. -/
theorem stores_of_reading {spec : Spec} {reading : Reading}
    (hreading : table.reading? spec = some reading) (hv : reading.Stores v) : table.Stores v := by
  obtain ⟨entry, hentry, hread⟩ := Option.bind_eq_some_iff.mp hreading
  cases entry with
  | bindings slots =>
      obtain ⟨value, hvalue, rfl⟩ := Option.map_eq_some_iff.mp hread
      cases hv
      exact ⟨_, _, hentry, .slot hvalue⟩
  | stub raw =>
      simp only [Entry.reading?] at hread
      split at hread
      · cases hread
        cases hv
        exact ⟨_, _, hentry, .raw _⟩
      · cases hread

/-- All that is found for some specs stands in the table. -/
theorem stores_of_readings {specs : List Spec} {pair : Spec × Reading}
    (hpair : pair ∈ table.readings specs) (hv : pair.2.Stores v) : table.Stores v := by
  obtain ⟨spec, -, hmap⟩ := List.mem_filterMap.mp hpair
  obtain ⟨reading, hreading, rfl⟩ := Option.map_eq_some_iff.mp hmap
  exact stores_of_reading hreading hv

end SymbolTable

/-! ### Closed scopes -/

/-- What stands in cells and in the table names cells that are there. -/
structure Scope.Closed (s : Scope) : Prop where
  heap : s.world.heap.Closed
  table : ∀ v, s.table.Stores v → s.world.heap.Has v

namespace Scope.Closed

variable {s : Scope} (hclosed : s.Closed)
include hclosed

/-- What is read off is there, and the scope stays closed. -/
theorem read (spec : Spec) {reading : Reading}
    (hreading : ∀ v, reading.Stores v → s.world.heap.Has v) :
    (s.read spec reading).2.Closed ∧
      (s.read spec reading).2.world.heap.Has (s.read spec reading).1 := by
  cases reading with
  | held value => exact ⟨hclosed, hreading value (.held value)⟩
  | declared raw =>
      have hgrows := (s.extends_read spec (.declared raw)).toGrows
      refine ⟨⟨?_, fun v hv => (hclosed.table v hv).grow hgrows⟩, Heap.has_newCallable _ _⟩
      exact hclosed.heap.newCallable fun v hv => hclosed.heap.stubBody hv

theorem readAll {found : List (Spec × Reading)}
    (hfound : ∀ pair ∈ found, ∀ v, pair.2.Stores v → s.world.heap.Has v) :
    (s.readAll found).2.Closed ∧
      ∀ pair ∈ (s.readAll found).1, (s.readAll found).2.world.heap.Has pair.2 := by
  induction found generalizing s with
  | nil => exact ⟨hclosed, nofun⟩
  | cons pair rest ih =>
      obtain ⟨hread, hvalue⟩ := hclosed.read pair.1 (hfound pair (by simp))
      have hgrows := (s.extends_read pair.1 pair.2).toGrows
      obtain ⟨hafter, hrest⟩ := ih hread fun pair' hpair' v hv =>
        (hfound pair' (by simp [hpair']) v hv).grow hgrows
      refine ⟨hafter, ?_⟩
      intro pair' hpair'
      rcases List.mem_cons.mp hpair' with rfl | hpair'
      · exact hvalue.grow ((s.read pair.1 pair.2).2.extends_readAll rest).toGrows
      · exact hrest pair' hpair'

/-- All that the table tells for some specs can be read. -/
theorem readings (specs : List Spec) :
    (s.readAll (s.table.readings specs)).2.Closed ∧
      ∀ pair ∈ (s.readAll (s.table.readings specs)).1,
        (s.readAll (s.table.readings specs)).2.world.heap.Has pair.2 :=
  hclosed.readAll fun _ hpair v hv => hclosed.table v (SymbolTable.stores_of_readings hpair hv)

theorem newEmpty (kind : Kind) : (s.newEmpty kind).2.Closed where
  heap := hclosed.heap.newEmpty kind
  table v hv := (hclosed.table v hv).grow (Heap.Extends.newEmpty _ kind).toGrows

theorem log (event : Event) : (s.log event).Closed :=
  ⟨hclosed.heap, hclosed.table⟩

/-- A table in which all that is held is there may take the place of the one that is there. -/
theorem setTable {table : SymbolTable} (htable : ∀ v, table.Stores v → s.world.heap.Has v) :
    (s.setTable table).Closed :=
  ⟨hclosed.heap, htable⟩

theorem place (spec : Spec) {given? : Option Value} (origin : Origin)
    (hgiven : ∀ v, given? = some v → s.world.heap.Has v) : (s.place spec given? origin).Closed := by
  have hmade : (s.valueFor spec.kind given?).2.Closed ∧
      ∀ v, (s.valueFor spec.kind given?).1 = some v →
        (s.valueFor spec.kind given?).2.world.heap.Has v := by
    cases given? with
    | some value => exact ⟨hclosed, hgiven⟩
    | none => exact ⟨hclosed.newEmpty spec.kind, fun v hv => Heap.has_newEmpty _ hv⟩
  have hgrows := (s.makes_place (fun _ => True) spec given? origin).toExtends.toGrows
  have hheap := s.heap_place spec given? origin
  refine ⟨hheap ▸ hmade.1.heap, ?_⟩
  intro v hv
  rw [table_place] at hv
  rcases SymbolTable.stores_bound hv with hbefore | hbound
  · exact (hclosed.table v hbefore).grow hgrows
  · rw [hheap]
    exact hmade.2 v hbound

theorem bind (spec : Spec) {value? : Option Value} (origin : Origin)
    (hgiven : ∀ v, value? = some v → s.world.heap.Has v) :
    (left ((Scope.bind spec value? origin).run s)).Closed := by
  by_cases hfit : ∀ v, value? = some v → v.fits spec.kind = true
  · rw [bind_run _ _ hfit]
    exact hclosed.place spec origin hgiven
  · obtain ⟨e, he⟩ := s.bind_refused origin hfit
    rw [he]
    exact hclosed

theorem renew {pairs : List (Spec × Value)} (hpairs : ∀ pair ∈ pairs, s.world.heap.Has pair.2) :
    (left (s.renew pairs)).Closed := by
  induction pairs generalizing s with
  | nil => exact hclosed
  | cons pair rest ih =>
      unfold Scope.renew
      split
      · refine ih (hclosed.place pair.1 .renewal ?_) ?_
        · intro v hv
          cases hv
          exact hpairs pair (by simp)
        · intro pair' hpair'
          rw [heap_place_some]
          exact hpairs pair' (by simp [hpair'])
      · exact hclosed

theorem drop (name : String) : (s.drop name).2.Closed :=
  ⟨hclosed.heap, fun v hv => hclosed.table v (SymbolTable.stores_erase hv)⟩

theorem emptied (spec : Spec) : (s.emptied spec).Closed :=
  ((hclosed.readings _).1.log _).drop spec.name

theorem add (text : String) {value? : Option Value} (hint : RangeHint)
    (hgiven : ∀ v, value? = some v → s.world.heap.Has v) :
    (left ((Scope.add text value? hint).run s)).Closed := by
  rw [add_run]
  cases Spec.parse text with
  | error e => exact hclosed
  | ok spec => exact hclosed.bind spec (.caller hint) hgiven

theorem remove (text : String) : (left ((Scope.remove text).run s)).Closed := by
  rw [remove_run]
  cases Spec.parse text with
  | error e => exact hclosed
  | ok spec => exact (hclosed.emptied spec).renew (hclosed.readings _).2

theorem find (text : String) :
    (left ((Scope.find text).run s)).Closed ∧
      ∀ v, answer ((Scope.find text).run s) = .ok (some v) →
        (left ((Scope.find text).run s)).world.heap.Has v := by
  rw [find_run]
  cases Spec.parse text with
  | error e => exact ⟨hclosed, nofun⟩
  | ok spec =>
      simp only [lookup_eq]
      cases hreading : s.table.reading? spec with
      | none => exact ⟨hclosed, nofun⟩
      | some reading =>
          have hread := hclosed.read spec fun v hv =>
            hclosed.table v (SymbolTable.stores_of_reading hreading hv)
          refine ⟨hread.1, ?_⟩
          intro v hv
          cases hv
          exact hread.2

theorem vivify (text : String) :
    (left ((Scope.vivify text).run s)).Closed ∧
      ∀ v, answer ((Scope.vivify text).run s) = .ok v →
        (left ((Scope.vivify text).run s)).world.heap.Has v := by
  rw [vivify_run]
  cases Spec.parse text with
  | error e => exact ⟨hclosed, nofun⟩
  | ok spec =>
      simp only
      cases hreading : s.table.reading? spec with
      | some reading =>
          have hread := hclosed.read spec fun v hv =>
            hclosed.table v (SymbolTable.stores_of_reading hreading hv)
          refine ⟨hread.1, ?_⟩
          intro v hv
          cases hv
          exact hread.2
      | none =>
          simp only
          cases hmade : (s.newEmpty spec.kind).1 with
          | none => exact ⟨hclosed, nofun⟩
          | some value =>
              simp only
              have hhas : (s.vivifying spec).world.heap.Has value :=
                Heap.has_newEmpty s.world.heap hmade
              have hmaking : (s.vivifying spec).Closed := (hclosed.newEmpty spec.kind).log _
              refine ⟨?_, ?_⟩
              · show ((s.vivifying spec).place spec (some value) (.caller {})).Closed
                refine hmaking.place spec (.caller {}) ?_
                intro v hv
                cases hv
                exact hhas
              · intro v hv
                cases hv
                show ((s.vivifying spec).place spec (some value) (.caller {})).world.heap.Has value
                rw [heap_place_some]
                exact hhas

/-- An edit that gives values that are there leaves a closed scope. -/
theorem edit {edit : Edit Value} (hgiven : ∀ v, (Request.edit edit).Gives v → s.world.heap.Has v) :
    (edit.apply s).2.Closed := by
  refine ⟨(s.heap_edit edit).symm ▸ hclosed.heap, ?_⟩
  intro v hv
  rw [heap_edit]
  have hopened (name : String) (h : (s.openSlots name).table.Stores v) : s.table.Stores v := by
    unfold openSlots at h
    split at h
    · exact h
    · exact (SymbolTable.stores_insert h).resolve_right Entry.not_stores_blank
    · exact (SymbolTable.stores_insert h).resolve_right Entry.not_stores_blank
  cases edit with
  | plantStub name raw =>
      rcases SymbolTable.stores_insert hv with hbefore | hraw
      · exact hclosed.table v hbefore
      · cases hraw
        exact hgiven _ (.plantStub name _)
  | insert name draft =>
      rcases SymbolTable.stores_insert hv with hbefore | hdraft
      · exact hclosed.table v hbefore
      · exact hgiven v (.insert name hdraft)
  | setSlot name kind value =>
      rcases SymbolTable.stores_insert hv with hbefore | hslots
      · exact hclosed.table v (hopened name hbefore)
      · rcases SymbolTable.stores_set hslots with hbefore | rfl
        · exact hclosed.table v (hopened name hbefore)
        · exact hgiven v (.setSlot name kind v)
  | clearSlot name kind =>
      simp only [Edit.apply] at hv
      split at hv
      · exact hclosed.table v hv
      · exact hclosed.table v hv
      · rename_i slots hentry
        rcases SymbolTable.stores_insert hv with hbefore | hslots
        · exact hclosed.table v hbefore
        · cases hslots with
          | slot there =>
              rw [Slots.get_clear] at there
              split at there
              · cases there
              · exact hclosed.table v ⟨name, _, hentry, .slot there⟩
  | openSlots name => exact hclosed.table v (hopened name hv)
  | erase name => exact hclosed.table v (SymbolTable.stores_erase hv)

/-- What an edit tells was held. -/
theorem told_edit {edit : Edit Value} {v : Value}
    (htells : (Response.outcome (edit.apply s).1).Tells v) : s.world.heap.Has v := by
  have hentry (name : String) (h : (Response.outcome (.entry s.table[name]?)).Tells v) :
      s.world.heap.Has v := by
    generalize hfound : s.table[name]? = found? at h
    cases h with
    | entry there => exact hclosed.table v ⟨name, _, hfound, there⟩
  have hcontent (content? : Option Value) (hheld : ∀ w, content? = some w → s.table.Stores w)
      (h : (Response.outcome (.content content?)).Tells v) : s.world.heap.Has v := by
    cases h
    exact hclosed.table v (hheld v rfl)
  cases edit with
  | plantStub name raw => exact hentry name htells
  | insert name draft => exact hentry name htells
  | setSlot name kind value => exact hcontent _ (fun w hw => SymbolTable.stores_of_slots hw) htells
  | clearSlot name kind =>
      simp only [Edit.apply] at htells
      split at htells
      · cases htells
      · cases htells
      · rename_i slots hslots
        exact hcontent _ (fun w hw => ⟨name, _, hslots, .slot hw⟩) htells
  | openSlots name =>
      cases htells with
      | slots there => exact hclosed.table v (SymbolTable.stores_of_slots there)
  | erase name => exact hentry name htells

end Scope.Closed

/-- What is answered by way of a function is answered to begin with. -/
theorem answer_of_map {α β : Type} {f : α → β} {outcome : Except BindError α} {b : β}
    (h : outcome.map f = .ok b) : ∃ a, outcome = .ok a ∧ f a = b := by
  cases outcome with
  | error e => cases h
  | ok a => exact ⟨a, rfl, Except.ok.inj h⟩

/-- Nothing is told where no reply that can be given tells anything. -/
theorem not_tells_of_map {α : Type} {f : α → Reply} {outcome : Except BindError α} {reply : Reply}
    (hreply : outcome.map f = .ok reply) (hsilent : ∀ a v, ¬ (Response.reply (f a)).Tells v)
    (v : Value) : ¬ (Response.reply reply).Tells v := by
  obtain ⟨a, -, rfl⟩ := answer_of_map hreply
  exact hsilent a v

/-- **A step whose value is there leaves a closed scope closed, and what it tells is there.** -/
theorem Step.closed {s : Scope} {operation : Operation Value} (hclosed : s.Closed)
    (hgiven : ∀ v, (Request.operation operation).Gives v → s.world.heap.Has v) :
    (Step.after ⟨s, operation⟩).Closed ∧ ∀ reply, Step.result ⟨s, operation⟩ = .ok reply →
      ∀ v, (Response.reply reply).Tells v → (Step.after ⟨s, operation⟩).world.heap.Has v := by
  cases operation with
  | add text value? hint =>
      rw [Step.after_add, Step.result_add]
      refine ⟨hclosed.add text hint ?_, ?_⟩
      · rintro v rfl
        exact hgiven v (.add text v hint)
      · intro reply hreply v htells
        exact absurd htells (not_tells_of_map hreply (fun _ _ h => by cases h) v)
  | has text =>
      rw [Step.after_has, Step.result_has]
      refine ⟨?_, ?_⟩
      · rw [Scope.has_run]
        cases Spec.parse text <;> exact hclosed
      · intro reply hreply v htells
        exact absurd htells (not_tells_of_map hreply (fun _ _ h => by cases h) v)
  | find text =>
      rw [Step.after_find, Step.result_find]
      obtain ⟨hafter, hvalue⟩ := hclosed.find text
      refine ⟨hafter, ?_⟩
      intro reply hreply v htells
      obtain ⟨value?, hanswer, rfl⟩ := answer_of_map hreply
      cases htells
      exact hvalue _ hanswer
  | vivify text =>
      rw [Step.after_vivify, Step.result_vivify]
      obtain ⟨hafter, hvalue⟩ := hclosed.vivify text
      refine ⟨hafter, ?_⟩
      intro reply hreply v htells
      obtain ⟨value, hanswer, rfl⟩ := answer_of_map hreply
      cases htells
      exact hvalue _ hanswer
  | remove text =>
      rw [Step.after_remove, Step.result_remove]
      refine ⟨hclosed.remove text, ?_⟩
      intro reply hreply v htells
      exact absurd htells (not_tells_of_map hreply (fun _ _ h => by cases h) v)
  | removeAll name =>
      refine ⟨hclosed.drop name, ?_⟩
      intro reply hreply v htells
      obtain rfl : Reply.entry s.table[name]? = reply := Except.ok.inj hreply
      generalize hentry : s.table[name]? = found? at htells
      cases htells with
      | removed there => exact hclosed.table v ⟨name, _, hentry, there⟩
  | names kind? =>
      refine ⟨hclosed, ?_⟩
      intro reply hreply v htells
      obtain rfl : Reply.names (s.table.names kind?) = reply := Except.ok.inj hreply
      cases htells
  | bindings kind =>
      obtain ⟨hafter, hvalues⟩ := hclosed.readings (s.table.specsOf kind)
      refine ⟨hafter, ?_⟩
      intro reply hreply v htells
      cases hreply
      cases htells with
      | bindings there =>
          obtain ⟨pair, hpair, heq⟩ := List.mem_map.mp there
          cases heq
          exact hvalues pair hpair

/-- **A request whose values are there leaves a closed scope closed, and what it tells is there.** -/
theorem Asked.closed {s : Scope} {request : Request} (hclosed : s.Closed)
    (hgiven : ∀ v, request.Gives v → s.world.heap.Has v) :
    (Asked.after ⟨s, request⟩).Closed ∧ ∀ response, Asked.result ⟨s, request⟩ = .ok response →
      ∀ v, response.Tells v → (Asked.after ⟨s, request⟩).world.heap.Has v := by
  cases request with
  | operation operation =>
      rw [after_operation, result_operation]
      obtain ⟨hafter, htold⟩ := Step.closed hclosed hgiven
      refine ⟨hafter, ?_⟩
      intro response hresponse v htells
      obtain ⟨reply, hreply, rfl⟩ := answer_of_map hresponse
      exact htold reply hreply v htells
  | edit edit =>
      refine ⟨hclosed.edit hgiven, ?_⟩
      intro response hresponse v htells
      cases hresponse
      rw [after_edit, Scope.heap_edit]
      exact hclosed.told_edit htells
  | replace table =>
      refine ⟨hclosed.setTable fun v hv => hgiven v (.replace hv), ?_⟩
      intro response hresponse v htells
      cases hresponse
      cases htells

end Bindery
