/-
The same request in two namespaces whose values are paired.

Two scopes are matched on some names if they have the same identifier and paired entries under
these names, and if the cells that are made next in the one and in the other are paired, one
after the other.  What else there is in the two worlds does not matter: the cells that were
there, the other names and all of debugging may be any.

The same request, of paired values, goes abreast in scopes that are matched on all names it
looks at: the answers are paired, and the scopes are matched again.  The recursions of the
namespace are followed one by one, as in the comparison of namespaces that are alike, but here
the heaps differ and it is the values that are compared.
-/
import Bindery.Proofs.Namespace.Alike
import Bindery.Proofs.Namespace.Pairing

namespace Bindery

/-! ### Cells that are made in step -/

/-- The cells that are made next in two heaps are paired, one after the other. -/
def Heap.InStep (p : Pairing) (h h' : Heap) : Prop :=
  ∀ cell i, p cell (h.count cell + i) (h'.count cell + i)

namespace Heap.InStep

variable {p : Pairing} {h h' after after' : Heap} (hstep : h.InStep p h')
include hstep

/-- Heaps stay in step as a cell of one sort is made in both. -/
theorem made {made : Cell}
    (hcount : ∀ cell, after.count cell = if cell = made then h.count cell + 1 else h.count cell)
    (hcount' : ∀ cell, after'.count cell = if cell = made then h'.count cell + 1 else h'.count cell) :
    after.InStep p after' := by
  intro cell i
  rw [hcount, hcount']
  split
  · rw [Nat.add_assoc, Nat.add_assoc]
    exact hstep cell (1 + i)
  · exact hstep cell i

theorem newEmpty (kind : Kind) :
    Option.Rel (Value.Paired p) (h.newEmpty kind).1 (h'.newEmpty kind).1 ∧
      (h.newEmpty kind).2.InStep p (h'.newEmpty kind).2 := by
  cases kind with
  | scalar => exact ⟨.some (.plain rfl), hstep⟩
  | sequence =>
      exact ⟨.some (@Value.Paired.cell p .sequence _ _ (hstep .sequence 0)),
        hstep.made (h.count_newSequence #[]) (h'.count_newSequence #[])⟩
  | mapping =>
      exact ⟨.some (@Value.Paired.cell p .mapping _ _ (hstep .mapping 0)),
        hstep.made (h.count_newMapping ∅) (h'.count_newMapping ∅)⟩
  | callable => exact ⟨.none, hstep⟩
  | stream =>
      exact ⟨.some (@Value.Paired.cell p .stream _ _ (hstep .stream 0)),
        hstep.made (h.count_newStream {}) (h'.count_newStream {})⟩

/-- What a reading gives is paired, whatever it makes a new callable do. -/
theorem read {reading reading' : Reading} (hreading : reading.Paired p reading')
    (name name' : String) :
    (h.read reading name).1.Paired p (h'.read reading' name').1 ∧
      (h.read reading name).2.InStep p (h'.read reading' name').2 := by
  cases hreading with
  | held hvw => exact ⟨hvw, hstep⟩
  | declared _ =>
      exact ⟨@Value.Paired.cell p .callable _ _ (hstep .callable 0),
        hstep.made (h.count_newCallable _) (h'.count_newCallable _)⟩

end Heap.InStep

/-! ### Matched scopes -/

/--
Two scopes have the same identifier and paired entries under some names, and the cells that
they make next are paired.
-/
structure Scope.Matched (p : Pairing) (on : String → Prop) (s t : Scope) : Prop where
  ident : s.space.ident = t.space.ident
  table : s.table.Paired p on t.table
  heap : s.world.heap.InStep p t.world.heap

/-- What was found for the same specs, of paired values. -/
abbrev PairedFinds (p : Pairing) : List (Spec × Value) → List (Spec × Value) → Prop :=
  List.Forall₂ fun pair pair' => pair.1 = pair'.1 ∧ pair.2.Paired p pair'.2

namespace Scope.Matched

variable {p : Pairing} {on : String → Prop} {s t : Scope} (h : s.Matched p on t)
include h

theorem qualify (name : String) : s.qualify name = t.qualify name :=
  congrArg (Bindery.qualify · name) h.ident

/-! ### Moves of a scope -/

theorem setTable {table table' : SymbolTable} (htable : table.Paired p on table') :
    (s.setTable table).Matched p on (t.setTable table') :=
  ⟨h.ident, htable, h.heap⟩

theorem log (event event' : Event) : (s.log event).Matched p on (t.log event') :=
  ⟨h.ident, h.table, h.heap⟩

theorem read (spec : Spec) {reading reading' : Reading} (hreading : reading.Paired p reading') :
    (s.read spec reading).1.Paired p (t.read spec reading').1 ∧
      (s.read spec reading).2.Matched p on (t.read spec reading').2 := by
  obtain ⟨hvalue, hheap⟩ := h.heap.read hreading (s.qualify spec.name) (t.qualify spec.name)
  exact ⟨hvalue, h.ident, h.table, hheap⟩

theorem lookup {spec : Spec} (hon : on spec.name) :
    Option.Rel (Value.Paired p) (s.lookup spec).1 (t.lookup spec).1 ∧
      (s.lookup spec).2.Matched p on (t.lookup spec).2 := by
  rw [lookup_eq, lookup_eq]
  rcases rel_cases (h.table.reading? hon)
    with ⟨hreading, hreading'⟩ | ⟨reading, reading', hreading, hreading', hpair⟩
  · rw [hreading, hreading']
    exact ⟨.none, h⟩
  · rw [hreading, hreading']
    exact ⟨.some (h.read spec hpair).1, (h.read spec hpair).2⟩

theorem readAll {found found' : List (Spec × Reading)}
    (hfound : List.Forall₂ (fun pair pair' => pair.1 = pair'.1 ∧ pair.2.Paired p pair'.2)
      found found') :
    PairedFinds p (s.readAll found).1 (t.readAll found').1 ∧
      (s.readAll found).2.Matched p on (t.readAll found').2 := by
  induction hfound generalizing s t with
  | nil => exact ⟨.nil, h⟩
  | @cons pair pair' rest rest' hpair _ ih =>
      obtain ⟨spec, reading⟩ := pair
      obtain ⟨spec', reading'⟩ := pair'
      obtain ⟨rfl, hreading⟩ : spec = spec' ∧ reading.Paired p reading' := hpair
      obtain ⟨hvalue, hread⟩ := h.read spec hreading
      obtain ⟨hvalues, hrest⟩ := ih hread
      exact ⟨.cons ⟨rfl, hvalue⟩ hvalues, hrest⟩

theorem newEmpty (kind : Kind) :
    Option.Rel (Value.Paired p) (s.newEmpty kind).1 (t.newEmpty kind).1 ∧
      (s.newEmpty kind).2.Matched p on (t.newEmpty kind).2 := by
  obtain ⟨hvalue, hheap⟩ := h.heap.newEmpty kind
  exact ⟨hvalue, h.ident, h.table, hheap⟩

theorem valueFor (kind : Kind) {given? given?' : Option Value}
    (hgiven : Option.Rel (Value.Paired p) given? given?') :
    Option.Rel (Value.Paired p) (s.valueFor kind given?).1 (t.valueFor kind given?').1 ∧
      (s.valueFor kind given?).2.Matched p on (t.valueFor kind given?').2 := by
  cases hgiven with
  | none => exact h.newEmpty kind
  | some hvw => exact ⟨.some hvw, h⟩

theorem place {spec : Spec} (hon : on spec.name) {given? given?' : Option Value}
    (hgiven : Option.Rel (Value.Paired p) given? given?') (origin origin' : Origin) :
    (s.place spec given? origin).Matched p on (t.place spec given?' origin') := by
  obtain ⟨hvalue, hmade⟩ := h.valueFor spec.kind hgiven
  refine ⟨?_, ?_, ?_⟩
  · rw [space_place, space_place]
    exact h.ident
  · rw [table_place, table_place]
    exact h.table.bound hon hvalue
  · rw [heap_place, heap_place]
    exact hmade.heap

theorem openSlots {name : String} (hon : on name) :
    (s.openSlots name).Matched p on (t.openSlots name) := by
  have hblank := h.table.insert name (.bindings Slots.paired_empty)
  unfold Scope.openSlots
  rcases rel_cases (h.table name hon) with ⟨hentry, hentry'⟩ | ⟨_, _, hentry, hentry', hpair⟩
  · rw [hentry, hentry']
    exact h.setTable hblank
  · rw [hentry, hentry']
    cases hpair with
    | bindings => exact h
    | stub => exact (h.log _ _).setTable hblank

theorem setSlots (name : String) {slots slots' : Slots} (hslots : slots.Paired p slots') :
    (s.setSlots name slots).Matched p on (t.setSlots name slots') :=
  h.setTable (h.table.insert name (.bindings hslots))

theorem fill {spec : Spec} (hon : on spec.name) {v w : Value} (hvw : v.Paired p w) :
    (s.fill spec (some v)).Matched p on (t.fill spec (some w)) := by
  have hopen := h.openSlots hon
  exact hopen.setSlots spec.name ((hopen.table.slots hon).put spec.kind (.some hvw))

theorem edit {change change' : Edit Value} (hchange : change.Paired p change')
    (hon : on change.name) :
    (change.apply s).1.Paired p (change'.apply t).1 ∧
      (change.apply s).2.Matched p on (change'.apply t).2 := by
  cases hchange with
  | plantStub name hraw =>
      exact ⟨.entry (h.table name hon), h.setTable (h.table.insert name (.stub hraw))⟩
  | insert name hdraft =>
      exact ⟨.entry (h.table name hon), h.setTable (h.table.insert name hdraft)⟩
  | setSlot name kind hvw =>
      exact ⟨.content (h.table.slots hon kind), h.fill (show on (⟨name, kind⟩ : Spec).name from hon) hvw⟩
  | clearSlot name kind =>
      unfold Edit.apply
      rcases rel_cases (h.table name hon) with ⟨hentry, hentry'⟩ | ⟨_, _, hentry, hentry', hpair⟩
      · simp only [hentry, hentry']
        exact ⟨.unbound, h⟩
      · simp only [hentry, hentry']
        cases hpair with
        | bindings hslots => exact ⟨.content (hslots kind), h.setSlots name (hslots.put kind .none)⟩
        | stub => exact ⟨.onlyStub, h⟩
  | openSlots name => exact ⟨.slots (h.table.slots hon), h.openSlots hon⟩
  | erase name => exact ⟨.entry (h.table name hon), h.setTable (h.table.erase name)⟩

theorem drop {name : String} (hon : on name) :
    Option.Rel (Entry.Paired p) (s.drop name).1 (t.drop name).1 ∧
      (s.drop name).2.Matched p on (t.drop name).2 :=
  ⟨h.table name hon, (h.setTable (h.table.erase name)).log _ _⟩

theorem keep {spec : Spec} (hon : on spec.name) :
    PairedFinds p (s.keep spec).1 (t.keep spec).1 ∧ (s.keep spec).2.Matched p on (t.keep spec).2 := by
  unfold Scope.keep
  rw [h.table.siblingsOf hon]
  refine h.readAll (h.table.readings fun sibling hsibling => ?_)
  rw [(SymbolTable.mem_siblingsOf _).mp hsibling |>.1]
  exact hon

theorem emptied {spec : Spec} (hon : on spec.name) :
    (s.emptied spec).Matched p on (t.emptied spec) := by
  rw [emptied_eq, emptied_eq]
  exact (((h.keep hon).2.log _ _).drop hon).2

theorem renew {pairs pairs' : List (Spec × Value)} (hpairs : PairedFinds p pairs pairs')
    (hon : ∀ pair ∈ pairs, on pair.1.name) :
    Parallel (Scope.Matched p on) Eq (s.renew pairs) (t.renew pairs') := by
  induction hpairs generalizing s t with
  | nil => exact .ok rfl h
  | @cons pair pair' rest rest' hpair _ ih =>
      obtain ⟨spec, v⟩ := pair
      obtain ⟨spec', w⟩ := pair'
      obtain ⟨rfl, hvw⟩ : spec = spec' ∧ v.Paired p w := hpair
      rw [Scope.renew, Scope.renew, hvw.fits, h.qualify, hvw.typeName]
      split
      · exact ih (h.place (hon (spec, v) (by simp)) (.some hvw) _ _)
          fun pair hmem => hon pair (by simp [hmem])
      · exact .error _ h

end Scope.Matched

/-! ### Operations -/

namespace Scope

variable {p : Pairing} {on : String → Prop}

theorem paired_bind {spec : Spec} (hon : on spec.name) {value? value?' : Option Value}
    (hvalue : Option.Rel (Value.Paired p) value? value?') (origin : Origin) :
    Abreast (Matched p on) Eq (Scope.bind spec value? origin) (Scope.bind spec value?' origin) := by
  intro s t h
  show Parallel (Matched p on) Eq ((Scope.bind spec value? origin).run s)
    ((Scope.bind spec value?' origin).run t)
  cases hvalue with
  | none =>
      rw [s.bind_run origin (by simp), t.bind_run origin (by simp)]
      exact .ok rfl (h.place hon .none origin origin)
  | @some v w hvw =>
      cases hfit : v.fits spec.kind with
      | true =>
          have hfit' : w.fits spec.kind = true := hvw.fits spec.kind ▸ hfit
          rw [s.bind_run origin (by simpa using hfit), t.bind_run origin (by simpa using hfit')]
          exact .ok rfl (h.place hon (.some hvw) origin origin)
      | false =>
          have hfit' : w.fits spec.kind = false := hvw.fits spec.kind ▸ hfit
          rw [s.bind_run_misfit origin hfit, t.bind_run_misfit origin hfit', h.qualify, hvw.typeName]
          exact .error _ h

/-- A spec is read in the same way anywhere, and what it addresses is among the names. -/
theorem paired_parse {text : String}
    (hon : ∀ name, (Spec.parse text).toOption.map Spec.name = some name → on name) :
    Abreast (Matched p on) (fun spec spec' => spec = spec' ∧ on spec.name) (Scope.parse text)
      (Scope.parse text) := by
  intro s t h
  show Parallel (Matched p on) _ ((Scope.parse text).run s) ((Scope.parse text).run t)
  rw [parse_run, parse_run]
  cases hp : Spec.parse text with
  | error e => exact .error e h
  | ok spec => exact .ok ⟨rfl, hon spec.name (by rw [hp]; rfl)⟩ h

/-- What is done with a spec goes abreast if it does for every spec of one of the names. -/
theorem paired_parse_bind {α β : Type} {R : α → β → Prop} {text : String}
    (hon : ∀ name, (Spec.parse text).toOption.map Spec.name = some name → on name)
    {next : Spec → Action α} {next' : Spec → Action β}
    (hnext : ∀ spec, on spec.name → Abreast (Matched p on) R (next spec) (next' spec)) :
    Abreast (Matched p on) R (Scope.parse text >>= next) (Scope.parse text >>= next') := by
  refine (paired_parse hon).bind fun spec spec' hspec => ?_
  obtain ⟨rfl, hname⟩ := hspec
  exact hnext spec hname

theorem paired_vivify {text : String}
    (hon : ∀ name, (Spec.parse text).toOption.map Spec.name = some name → on name) :
    Abreast (Matched p on) (Value.Paired p) (Scope.vivify text) (Scope.vivify text) := by
  refine paired_parse_bind hon fun spec hname => ?_
  refine Abreast.bind (.modifyGet fun s t h => h.lookup hname) fun found? found?' hfound => ?_
  cases hfound with
  | some hvw => exact .pure hvw
  | none =>
      refine Abreast.bind (.modifyGet fun s t h => h.newEmpty spec.kind) fun made? made?' hmade => ?_
      cases hmade with
      | none =>
          refine Abreast.get.bind fun s t h => ?_
          rw [h.qualify]
          exact .throw _
      | some hvw =>
          refine Abreast.bind_eq (.modify fun s t h => h.log _ _) fun _ => ?_
          exact (paired_bind hname (.some hvw) _).bind fun _ _ _ => .pure hvw

theorem paired_remove {text : String}
    (hon : ∀ name, (Spec.parse text).toOption.map Spec.name = some name → on name) :
    Abreast (Matched p on) Eq (Scope.remove text) (Scope.remove text) := by
  intro s t h
  show Parallel (Matched p on) Eq ((Scope.remove text).run s) ((Scope.remove text).run t)
  rw [remove_run, remove_run]
  cases hp : Spec.parse text with
  | error e => exact .error e h
  | ok spec =>
      have hname : on spec.name := hon spec.name (by rw [hp]; rfl)
      refine (h.emptied hname).renew (h.keep hname).1 fun pair hpair => ?_
      rw [((SymbolTable.mem_siblingsOf _).mp (s.fst_mem_of_readAll hpair)).1]
      exact hname

end Scope

open Scope in
/-- The same operation, of paired values, goes abreast in scopes that are matched. -/
theorem Operation.Paired.abreast {p : Pairing} {on : String → Prop} {operation operation' : Operation Value}
    (hpair : operation.Paired p operation') (hwithin : operation.Within on) :
    Abreast (Scope.Matched p on) (Reply.Paired p) operation.perform operation'.perform := by
  cases hpair with
  | add text hvalue hint =>
      refine Abreast.bind_eq ?_ fun _ => .pure .done
      exact paired_parse_bind hwithin fun spec hname => paired_bind hname hvalue _
  | has text =>
      refine Abreast.bind_eq ?_ fun holds => .pure (.answer holds)
      refine paired_parse_bind hwithin fun spec hname => ?_
      refine Abreast.get.bind fun s t h => ?_
      rw [h.table.has hname]
      exact .pure rfl
  | find text =>
      refine Abreast.bind ?_ fun _ _ hvalue => .pure (.value hvalue)
      exact paired_parse_bind hwithin fun spec hname => .modifyGet fun s t h => h.lookup hname
  | vivify text =>
      exact (paired_vivify hwithin).bind fun _ _ hvw => .pure (.value (.some hvw))
  | remove text => exact (paired_remove hwithin).bind_eq fun _ => .pure .done
  | removeAll name =>
      exact Abreast.bind (.modifyGet fun s t h => h.drop (hwithin name rfl))
        fun _ _ hfound => .pure (.entry hfound)
  | names kind? =>
      refine Abreast.bind_eq ?_ fun names => .pure (.names names)
      refine Abreast.get.bind fun s t h => ?_
      rw [h.table.names hwithin]
      exact .pure rfl
  | bindings kind =>
      refine Abreast.bind ?_ fun _ _ hfound => .pure (.bindings hfound)
      refine Abreast.bind (R := PairedFinds p) (.modifyGet fun s t h => ?_)
        fun found found' hfound => .pure ?_
      · unfold SymbolTable.specsOf
        rw [h.table.names hwithin]
        exact h.readAll (h.table.readings fun spec _ => hwithin spec.name)
      · rw [List.forall₂_map_left_iff, List.forall₂_map_right_iff]
        exact hfound.imp fun pair pair' hpair => ⟨congrArg Spec.name hpair.1, hpair.2⟩

/-- **The same request, of paired values, goes abreast in scopes that are matched.** -/
theorem Request.Paired.abreast {p : Pairing} {on : String → Prop} {request request' : Request}
    (hpair : request.Paired p request') (hwithin : request.Within on) :
    Abreast (Scope.Matched p on) (Response.Paired p) request.perform request'.perform := by
  cases hpair with
  | operation hasked =>
      exact (hasked.abreast hwithin).bind fun _ _ hreply => .pure (.reply hreply)
  | edit hchange =>
      exact Abreast.bind (.modifyGet fun s t h => h.edit hchange hwithin)
        fun _ _ houtcome => .pure (.outcome houtcome)
  | replace htable =>
      exact Abreast.bind_eq (.modify fun s t h => h.setTable fun name _ => htable name trivial)
        fun _ => .pure .replaced

/-! ### What was made of both requests -/

/-- A pairing, and the cells made from two heaps on, as many as there are after the first. -/
def Pairing.during (p : Pairing) (h h' after : Heap) : Pairing := fun cell i j =>
  p cell i j ∨ ∃ k, i = h.count cell + k ∧ j = h'.count cell + k ∧ i < after.count cell

/--
**The same request in two namespaces that have the same in other cells.**  Asked of namespaces
with paired entries, the same request of paired values makes equally many cells of each sort.
If these are paired in the order they are made in, so are the answers, or both are refused for
the same reason, and so are the entries afterwards.
-/
theorem Asked.paired {p : Pairing} {on : String → Prop} {s t : Scope} {request request' : Request}
    (hs : s.Closed) (ht : t.Closed) (hgiven : ∀ v, request.Gives v → s.world.heap.Has v)
    (hgiven' : ∀ v, request'.Gives v → t.world.heap.Has v) (hident : s.space.ident = t.space.ident)
    (htable : s.table.Paired p on t.table) (hrequest : request.Paired p request')
    (hwithin : request.Within on) :
    (∀ cell, (Asked.after ⟨s, request⟩).world.heap.count cell + t.world.heap.count cell
      = (Asked.after ⟨t, request'⟩).world.heap.count cell + s.world.heap.count cell) ∧
    Answer.Paired
      (p.during s.world.heap t.world.heap (Asked.after ⟨s, request⟩).world.heap)
      (Asked.result ⟨s, request⟩) (Asked.result ⟨t, request'⟩) ∧
    (Asked.after ⟨s, request⟩).table.Paired
      (p.during s.world.heap t.world.heap (Asked.after ⟨s, request⟩).world.heap) on
      (Asked.after ⟨t, request'⟩).table := by
  -- Only the cells that are there matter, and the cells that are made are not among them.
  let there : Pairing := fun cell i j =>
    p cell i j ∧ i < s.world.heap.count cell ∧ j < t.world.heap.count cell
  let q : Pairing := fun cell i j => there cell i j ∨
    ∃ k, i = s.world.heap.count cell + k ∧ j = t.world.heap.count cell + k
  have hthere {v w : Value} (hv : s.world.heap.Has v) (hw : t.world.heap.Has w) (hvw : v.Paired p w) :
      v.Paired q w :=
    hvw.imp fun cell i j hi hj hp => Or.inl ⟨hp, hv cell i hi, hw cell j hj⟩
  have hmatched : s.Matched q on t :=
    { ident := hident
      table := htable.imp fun v w hv hw => hthere (hs.table v hv) (ht.table w hw)
      heap := fun cell i => Or.inr ⟨i, rfl, rfl⟩ }
  have hasked : request.Paired q request' :=
    hrequest.imp fun v w hv hw => hthere (hgiven v hv) (hgiven' w hw)
  obtain ⟨hafter, htold⟩ := Asked.closed hs hgiven
  have hkept {v w : Value} (hv : (Asked.after ⟨s, request⟩).world.heap.Has v) (hvw : v.Paired q w) :
      v.Paired (p.during s.world.heap t.world.heap (Asked.after ⟨s, request⟩).world.heap) w := by
    refine hvw.imp fun cell i j hi _ hq => ?_
    rcases hq with ⟨hp, -⟩ | ⟨k, hk, hk'⟩
    · exact Or.inl hp
    · exact Or.inr ⟨k, hk, hk', hv cell i hi⟩
  have hcells : (Asked.after ⟨s, request⟩).Matched q on (Asked.after ⟨t, request'⟩) ∧
      Answer.Paired q (Asked.result ⟨s, request⟩) (Asked.result ⟨t, request'⟩) := by
    unfold Asked.after Asked.result
    rcases (hasked.abreast hwithin s t hmatched).cases
      with ⟨a, b, s', t', hrun, hrun', hresponse, hleft⟩ | ⟨e, s', t', hrun, hrun', hleft⟩
    · rw [show request.perform.run s = .ok a s' from hrun,
        show request'.perform.run t = .ok b t' from hrun']
      exact ⟨hleft, .ok hresponse⟩
    · rw [show request.perform.run s = .error e s' from hrun,
        show request'.perform.run t = .error e t' from hrun']
      exact ⟨hleft, .error e⟩
  obtain ⟨hleft, hanswer⟩ := hcells
  refine ⟨fun cell => ?_, ?_, ?_⟩
  · have hgrown := (Asked.extends ⟨s, request⟩).count cell
    rcases hleft.heap cell 0 with ⟨-, hlt, -⟩ | ⟨k, hk, hk'⟩
    · exact absurd hlt (Nat.not_lt.mpr (by simpa using hgrown))
    · omega
  · exact hanswer.imp fun response _ v w hok _ hv _ hvw => hkept (htold response hok v hv) hvw
  · exact hleft.table.imp fun v w hv _ hvw => hkept (hafter.table v hv) hvw

end Bindery
