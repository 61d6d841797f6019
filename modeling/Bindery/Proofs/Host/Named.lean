/-
What a host knows names cells that are there.

A host holds values in many places: in the slots and stubs of its namespaces, in tables that
it saved, in registers, and in cells.  A host is closed if all of them name cells that are
there.  Every command leaves a closed host closed.

An action is grounded if it does so and if what it gives is there.  To say so of an action in
the middle of a sequence one has to know that the values given before are still there; so it
is said relative to the values that are known, and sequencing adds what an action tells to
what is known by the next.  Cells only come to be, so what is known stays known.

What else is said of a heap before and after is left open.  Any order of heaps will do that
has every change a command can make (`Heap.Changes`); changes of streams are asked of it only
where the command is about streams, so that an order in which streams stay as they are will
do for all other commands.
-/
import Bindery.Proofs.Host.Arranged
import Bindery.Proofs.Host.Course
import Bindery.Proofs.Namespace.Named

namespace Bindery

namespace Heap

/-- An order of heaps in which cells only come to be. -/
class Growth (G : Heap → Heap → Prop) : Prop where
  refl : ∀ h, G h h
  trans : ∀ {h h' h''}, G h h' → G h' h'' → G h h''
  grows : ∀ {h h'}, G h h' → h.Grows h'

instance : Growth Grows := ⟨.refl, .trans, id⟩

instance : Growth Extends := ⟨.refl, .trans, Extends.toGrows⟩

/-- An order of heaps in which cells are made, and cells other than references and streams change. -/
class Changes (G : Heap → Heap → Prop) : Prop extends Growth G where
  made : ∀ {h h'}, h.Extends h' → G h h'
  setItems : ∀ (h : Heap) s items, G h (h.setItems s items)
  setPairs : ∀ (h : Heap) m pairs, G h (h.setPairs m pairs)
  setBody : ∀ (h : Heap) c body, G h (h.setBody c body)

instance : Changes Grows := ⟨Extends.toGrows, .setItems, .setPairs, .setBody⟩

/-- A call makes a cell or changes a callable, if it does anything. -/
theorem changes_call {G : Heap → Heap → Prop} [hG : Changes G] (args : List Value)
    (callee : Handle .callable) (h : Heap) : G h (left (call args callee h)) := by
  induction args, callee using call.induct with
  | case1 args callee ih =>
    unfold call
    rw [get_bind_run]
    cases h.body callee with
    | constant value => exact hG.refl h
    | undefined name => exact hG.refl h
    | builtin builtin =>
        cases builtin with
        | allArguments => exact hG.made (.newSequence h _)
        | sum => cases sum 0 args <;> exact hG.refl h
        | counter calls => exact hG.setBody h callee _
        | apply =>
            simp only
            split
            · exact ih
            · exact hG.refl h
        | _ => exact hG.refl h

end Heap

/-- An order of heaps in which streams change. -/
def Heap.StreamsChange (G : Heap → Heap → Prop) : Prop :=
  ∀ (h : Heap) s stream, G h (h.setStream s stream)

/-- To change a stream is what a command is about. -/
def CellCommand.Flows : CellCommand → Prop
  | .write .. | .read _ | .close _ => True
  | _ => False

/-- A command is about a change of a stream. -/
def Command.Flows : Command → Prop
  | .cell command => command.Flows
  | _ => False

/-- An answer tells a value. -/
def Answer.Tells (answer : Answer) (v : Value) : Prop :=
  answer = .value (some v)

namespace Host

/-! ### Closed hosts -/

/-- A value is somewhere in a host. -/
inductive Holds (host : Host) : Value → Prop where
  /-- In a slot or a stub of a namespace. -/
  | bound {place : Place} {space : Namespace} {v : Value}
      (there : host.spaceAt? place = some space) (stored : space.table.Stores v) : Holds host v
  /-- In a table that was saved. -/
  | saved {name : String} {table : SymbolTable} {v : Value}
      (there : host.tables[name]? = some table) (stored : table.Stores v) : Holds host v
  | register {name : String} {v : Value} (there : host.registers[name]? = some v) : Holds host v
  /-- In a cell. -/
  | cell {v : Value} (there : host.world.heap.Holds v) : Holds host v

/-- Whatever is somewhere in a host names cells that are there. -/
def Closed (host : Host) : Prop :=
  ∀ v, host.Holds v → host.world.heap.Has v

theorem closed_empty : Closed {} := by
  intro v hholds
  cases hholds with
  | @bound place space _ there stored =>
      cases place with
      | kept realm ident => simp [spaceAt?] at there
      | owned handle => simp [spaceAt?] at there
  | saved there stored => simp at there
  | register there => simp at there
  | cell there => exact Heap.closed_empty v there

namespace Closed

variable {host after : Host} (hclosed : host.Closed)
include hclosed

theorem heap : host.world.heap.Closed :=
  fun v hv => hclosed v (.cell hv)

/-- Each namespace is closed in the world that it shares. -/
theorem scope {place : Place} {space : Namespace} (hspace : host.spaceAt? place = some space) :
    Scope.Closed ⟨space, host.world⟩ :=
  ⟨hclosed.heap, fun v hv => hclosed v (.bound hspace hv)⟩

/-- A host stays closed as its heap grows if what comes to be in it is there. -/
theorem grow (hgrows : host.world.heap.Grows after.world.heap)
    (h : ∀ v, after.Holds v → host.Holds v ∨ after.world.heap.Has v) : after.Closed := by
  intro v hv
  rcases h v hv with hbefore | hhas
  · exact (hclosed v hbefore).grow hgrows
  · exact hhas

/-- What is done about debugging leaves a closed host closed. -/
theorem beside (h : host.Beside after) : after.Closed := by
  have hheap := h.world.heap
  refine hclosed.grow (by rw [← hheap]; exact .refl _) fun v hv => Or.inl ?_
  cases hv with
  | bound there stored => exact .bound ((spaceAt?_congr h.realms h.seats _).symm.trans there) stored
  | saved there stored => exact .saved (h.tables ▸ there) stored
  | register there => exact .register (h.registers ▸ there)
  | cell there => exact .cell (hheap ▸ there)

theorem setHeap {heap : Heap} (hgrows : host.world.heap.Grows heap) (hheap : heap.Closed) :
    (host.setHeap heap).Closed := by
  refine hclosed.grow hgrows fun v hv => ?_
  cases hv with
  | bound there stored => exact Or.inl (.bound there stored)
  | saved there stored => exact Or.inl (.saved there stored)
  | register there => exact Or.inl (.register there)
  | cell there => exact Or.inr (hheap v there)

theorem setRegister (name : String) {value : Value} (hvalue : host.world.heap.Has value) :
    Closed { host with registers := host.registers.insert name value } := by
  refine hclosed.grow (.refl _) fun v hv => ?_
  cases hv with
  | bound there stored => exact Or.inl (.bound there stored)
  | saved there stored => exact Or.inl (.saved there stored)
  | register there =>
      rw [Dict.getElem?_insert] at there
      split at there
      · cases there
        exact Or.inr hvalue
      · exact Or.inl (.register there)
  | cell there => exact Or.inl (.cell there)

theorem setTable (name : String) {table : SymbolTable}
    (htable : ∀ v, table.Stores v → host.world.heap.Has v) :
    Closed { host with tables := host.tables.insert name table } := by
  refine hclosed.grow (.refl _) fun v hv => ?_
  cases hv with
  | bound there stored => exact Or.inl (.bound there stored)
  | saved there stored =>
      rw [Dict.getElem?_insert] at there
      split at there
      · cases there
        exact Or.inr (htable v stored)
      · exact Or.inl (.saved there stored)
  | register there => exact Or.inl (.register there)
  | cell there => exact Or.inl (.cell there)

/-- A host stays closed when its realms and handles change, if every namespace then is closed. -/
theorem setSpaces (hheap : after.world.heap = host.world.heap)
    (htables : after.tables = host.tables) (hregisters : after.registers = host.registers)
    (hspaces : ∀ place space, after.spaceAt? place = some space →
      ∀ v, space.table.Stores v → host.world.heap.Has v) : after.Closed := by
  refine hclosed.grow (by rw [hheap]; exact .refl _) fun v hv => ?_
  cases hv with
  | bound there stored =>
      rw [hheap]
      exact Or.inr (hspaces _ _ there v stored)
  | saved there stored => exact Or.inl (.saved (htables ▸ there) stored)
  | register there => exact Or.inl (.register (hregisters ▸ there))
  | cell there => exact Or.inl (.cell (hheap ▸ there))

/-- Commands about realms and handles leave a closed host closed. -/
theorem arranges {command : RealmCommand} (h : host.Arranges command after) : after.Closed := by
  obtain ⟨hheap, hregisters, htables⟩ := h.values
  refine hclosed.setSpaces hheap htables hregisters ?_
  intro place space hspace v hv
  rcases h.space hspace with ⟨place', hbefore⟩ | hempty
  · exact hclosed v (.bound hbefore hv)
  · rw [hempty] at hv
    exact absurd hv SymbolTable.not_stores_empty

/-- A host stays closed when a scope of it changes and stays closed. -/
theorem withScope {handle : String} {space : Namespace} (hspace : host.spaceOf? handle = some space)
    {scope : Scope} (hgrows : host.world.heap.Grows scope.world.heap) (hscope : scope.Closed) :
    (host.withScope handle scope).Closed := by
  obtain ⟨place, hplace, hthere⟩ := placeOf?_of_space hspace
  have hworld : (host.withScope handle scope).world = scope.world := world_withSpace _ _ _
  obtain ⟨hregisters, htables⟩ := withSpace_rest { host with world := scope.world } handle scope.space
  refine hclosed.grow (by rw [hworld]; exact hgrows) fun v hv => ?_
  rw [hworld]
  cases hv with
  | @bound other found _ there stored =>
      have hplaces : (host.withScope handle scope).spaceAt? other
          = if other = place then some scope.space else host.spaceAt? other :=
        @spaceAt?_withSpace { host with world := scope.world } _ _ _ hplace hthere _ _
      rw [hplaces] at there
      split at there
      · cases there
        exact Or.inr (hscope.table v stored)
      · exact Or.inl (.bound there stored)
  | saved there stored => exact Or.inl (.saved (htables ▸ there) stored)
  | register there => exact Or.inl (.register (hregisters ▸ there))
  | cell there => exact Or.inr (hscope.heap v (hworld ▸ there))

end Closed

/-! ### Grounded actions -/

/-- An outcome leaves a closed host whose heap has grown, and what it tells is there. -/
structure Grounds {α : Type} (G : Heap → Heap → Prop) (host : Host)
    (outcome : EStateM.Result HostError Host α) (tells : α → Value → Prop) : Prop where
  heap : G host.world.heap (left outcome).world.heap
  closed : (left outcome).Closed
  told : ∀ a after, outcome = .ok a after → ∀ v, tells a v → after.world.heap.Has v

/-- An action comes to such outcomes from every closed host in which the known values are there. -/
def Grounded {α : Type} (G : Heap → Heap → Prop) (known : Value → Prop) (act : Action α)
    (tells : α → Value → Prop) : Prop :=
  ∀ host : Host, host.Closed → (∀ v, known v → host.world.heap.Has v) →
    Grounds G host (act host) tells

namespace Grounded

variable {G : Heap → Heap → Prop} [hG : Heap.Growth G] {α β : Type} {known : Value → Prop}
  {tells : α → Value → Prop} {tells' : β → Value → Prop} {act : Action α} {next : α → Action β}

theorem pure {a : α} (h : ∀ v, tells a v → known v) : Grounded G known (Pure.pure a) tells := by
  intro host hclosed hknown
  refine ⟨hG.refl _, hclosed, ?_⟩
  intro b after heq v hv
  cases heq
  exact hknown v (h v hv)

/-- A value that names no cell can be given anywhere. -/
theorem plain {value : Value} (h : value.cell? = none) :
    Grounded G known (Pure.pure value) fun a v => v = a := by
  intro host hclosed _
  refine ⟨hG.refl _, hclosed, ?_⟩
  rintro a after heq v rfl
  cases heq
  exact Heap.has_of_plain h _

theorem throw (e : HostError) : Grounded G known (MonadExcept.throw e : Action α) tells :=
  fun _ hclosed _ => ⟨hG.refl _, hclosed, nofun⟩

theorem bind (hact : Grounded G known act tells)
    (hnext : ∀ a, Grounded G (fun v => known v ∨ tells a v) (next a) tells') :
    Grounded G known (act >>= next) tells' := by
  intro host hclosed hknown
  have hfirst := hact host hclosed hknown
  rw [bind_run]
  cases heq : act host with
  | error e after =>
      rw [heq] at hfirst
      exact ⟨hfirst.heap, hfirst.closed, nofun⟩
  | ok a after =>
      rw [heq] at hfirst
      have hrest := hnext a after hfirst.closed fun v hv => by
        rcases hv with hv | hv
        · exact (hknown v hv).grow (hG.grows hfirst.heap)
        · exact hfirst.told a after rfl v hv
      exact ⟨hG.trans hfirst.heap hrest.heap, hrest.closed, hrest.told⟩

omit hG in
/-- To make cells is one way to change a heap. -/
theorem made [hchanges : Heap.Changes G] (h : Grounded Heap.Extends known act tells) :
    Grounded G known act tells := by
  intro host hclosed hknown
  have hact := h host hclosed hknown
  exact ⟨hchanges.made hact.heap, hact.closed, hact.told⟩

theorem map {f : α → β} (h : Grounded G known act tells) (hf : ∀ a v, tells' (f a) v → tells a v) :
    Grounded G known (f <$> act) tells' :=
  h.bind fun a => pure fun v hv => Or.inr (hf a v hv)

theorem require {found? : Option α} (e : HostError)
    (h : ∀ a, found? = some a → ∀ v, tells a v → known v) :
    Grounded G known (Host.require found? e) tells := by
  cases found? with
  | none => exact throw e
  | some found => exact pure (h found rfl)

/-- What is looked for in what a host requires tells nothing by itself. -/
theorem require_silent (found? : Option α) (e : HostError) :
    Grounded G known (Host.require found? e) fun _ _ => False :=
  require e fun _ _ _ => False.elim

/-- What is looked up in a host is there. -/
theorem get : Grounded G known (MonadState.get : Action Host) Holds := by
  intro host hclosed _
  refine ⟨hG.refl _, hclosed, ?_⟩
  intro found after heq v hv
  cases heq
  exact hclosed v hv

theorem heapAction : Grounded G known Host.heap Heap.Holds :=
  get.bind fun _ => pure fun _ hv => Or.inr (.cell hv)

theorem modifyHeap {f : Heap → α × Heap}
    (h : ∀ heap : Heap, heap.Closed → (∀ v, known v → heap.Has v) →
      G heap (f heap).2 ∧ (f heap).2.Closed ∧ ∀ v, tells (f heap).1 v → (f heap).2.Has v) :
    Grounded G known (Host.modifyHeap f) tells := by
  intro host hclosed hknown
  obtain ⟨hgrowth, hafter, htold⟩ := h host.world.heap hclosed.heap hknown
  refine ⟨hgrowth, hclosed.setHeap (hG.grows hgrowth) hafter, ?_⟩
  intro a after heq v hv
  cases heq
  exact htold v hv

/-! ### Written values -/

theorem wrap (wrapper : Wrapper) {value : Value} {h : Heap} (hclosed : h.Closed)
    (hvalue : h.Has value) : h.Extends (wrapper.wrap value h).2 ∧ (wrapper.wrap value h).2.Closed ∧
      (wrapper.wrap value h).2.Has (wrapper.wrap value h).1 := by
  cases wrapper with
  | ref => exact ⟨.newRef h value, hclosed.newRef hvalue, h.has_newRef value⟩
  | sequence =>
      exact ⟨.newSequence h _, hclosed.newSequence (by simpa using hvalue), h.has_newSequence _⟩
  | mapping =>
      refine ⟨.newMapping h _, hclosed.newMapping ?_, h.has_newMapping _⟩
      intro key v hv
      rw [Dict.getElem?_insert] at hv
      split at hv
      · cases hv
        exact hvalue
      · rw [Std.ExtTreeMap.getElem?_empty] at hv
        cases hv

theorem wrapAll (wrapper : Wrapper) (times : Nat) {value : Value} {h : Heap} (hclosed : h.Closed)
    (hvalue : h.Has value) : h.Extends (wrapper.wrapAll times value h).2 ∧
      (wrapper.wrapAll times value h).2.Closed ∧
      (wrapper.wrapAll times value h).2.Has (wrapper.wrapAll times value h).1 := by
  induction times generalizing value h with
  | zero => exact ⟨.refl h, hclosed, hvalue⟩
  | succ times ih =>
      obtain ⟨hext, hwrapped, hhas⟩ := wrap wrapper hclosed hvalue
      obtain ⟨hext', hall, hhas'⟩ := ih hwrapped hhas
      exact ⟨hext.trans hext', hall, hhas'⟩

/-- What a map holds that is filled from pairs comes from one of them. -/
theorem mem_of_ofList {pairs : List (String × Value)} {key : String} {v : Value}
    (hv : (Std.ExtTreeMap.ofList pairs compare : Dict Value)[key]? = some v) : (key, v) ∈ pairs := by
  rw [Std.ExtTreeMap.ofList_eq_insertMany_empty] at hv
  have hmany : ∀ (pairs : List (String × Value)) (d : Dict Value),
      (d.insertMany pairs)[key]? = some v → d[key]? = some v ∨ (key, v) ∈ pairs := by
    intro pairs
    induction pairs with
    | nil =>
        intro d h
        rw [Std.ExtTreeMap.insertMany_nil] at h
        exact Or.inl h
    | cons pair rest ih =>
        intro d h
        rw [Std.ExtTreeMap.insertMany_cons] at h
        rcases ih (d.insert pair.1 pair.2) h with h | h
        · rw [Dict.getElem?_insert] at h
          split at h
          · rename_i heq
            cases h
            exact Or.inr (by simp [heq])
          · exact Or.inl h
        · exact Or.inr (by simp [h])
  exact (hmany pairs ∅ hv).resolve_left (by simp)

mutual

/-- **A written value is made of new cells and of values that are there.** -/
theorem eval (e : Expr) (known : Value → Prop) :
    Grounded Heap.Extends known e.eval fun a v => v = a := by
  cases e with
  | ref target =>
      simp only [Expr.eval]
      refine (eval target known).bind fun target => modifyHeap fun h hclosed hknown => ?_
      refine ⟨.newRef h target, hclosed.newRef (hknown target (Or.inr rfl)), ?_⟩
      rintro v rfl
      exact h.has_newRef target
  | sequence items =>
      simp only [Expr.eval]
      refine (evalItems items known).bind fun items => modifyHeap fun h hclosed hknown => ?_
      refine ⟨.newSequence h _, hclosed.newSequence fun v hv => hknown v (Or.inr (by simpa using hv)), ?_⟩
      rintro v rfl
      exact h.has_newSequence _
  | mapping pairs =>
      simp only [Expr.eval]
      refine (evalPairs pairs known).bind fun pairs => modifyHeap fun h hclosed hknown => ?_
      refine ⟨.newMapping h _, hclosed.newMapping ?_, ?_⟩
      · exact fun key v hv => hknown v (Or.inr ⟨key, mem_of_ofList hv⟩)
      · rintro v rfl
        exact h.has_newMapping _
  | stream lines closed =>
      simp only [Expr.eval]
      refine modifyHeap fun h hclosed _ => ⟨.newStream h _, hclosed.newStream _, ?_⟩
      rintro v rfl
      exact h.has_newStream _
  | constant value =>
      simp only [Expr.eval]
      refine (eval value known).bind fun value => modifyHeap fun h hclosed hknown => ?_
      refine ⟨.newCallable h _, hclosed.newCallable ?_, ?_⟩
      · intro v hv
        cases hv
        exact hknown value (Or.inr rfl)
      · rintro v rfl
        exact h.has_newCallable _
  | builtin b =>
      simp only [Expr.eval]
      refine modifyHeap fun h hclosed _ => ⟨.newCallable h _, hclosed.newCallable nofun, ?_⟩
      rintro v rfl
      exact h.has_newCallable _
  | register name =>
      simp only [Expr.eval]
      refine get.bind fun host => require _ ?_
      rintro a ha v rfl
      exact Or.inr (.register ha)
  | nested wrapper times value =>
      simp only [Expr.eval]
      refine (eval value known).bind fun value => modifyHeap fun h hclosed hknown => ?_
      obtain ⟨hext, hafter, hhas⟩ := wrapAll wrapper times hclosed (hknown value (Or.inr rfl))
      refine ⟨hext, hafter, ?_⟩
      rintro v rfl
      exact hhas
  | _ =>
      simp only [Expr.eval]
      exact plain rfl

theorem evalItems (items : List Expr) (known : Value → Prop) :
    Grounded Heap.Extends known (Expr.evalItems items) fun values v => v ∈ values := by
  cases items with
  | nil =>
      simp only [Expr.evalItems]
      exact pure nofun
  | cons item rest =>
      simp only [Expr.evalItems]
      refine (eval item known).bind fun value => (evalItems rest _).bind fun values => pure ?_
      intro v hv
      rcases List.mem_cons.mp hv with rfl | hv
      · exact Or.inl (Or.inr rfl)
      · exact Or.inr hv

theorem evalPairs (pairs : List (String × Expr)) (known : Value → Prop) :
    Grounded Heap.Extends known (Expr.evalPairs pairs) fun values v => ∃ key, (key, v) ∈ values := by
  cases pairs with
  | nil =>
      simp only [Expr.evalPairs]
      exact pure (by simp)
  | cons pair rest =>
      simp only [Expr.evalPairs]
      refine (eval pair.2 known).bind fun value => (evalPairs rest _).bind fun values => pure ?_
      rintro v ⟨key, hv⟩
      rcases List.mem_cons.mp hv with heq | hv
      · cases heq
        exact Or.inl (Or.inr rfl)
      · exact Or.inr ⟨key, hv⟩

end

theorem optionMapM {f : α → Action β} {found? : Option α} (h : ∀ a, Grounded G known (f a) tells') :
    Grounded G known (found?.mapM f) fun made? v => ∃ b, made? = some b ∧ tells' b v := by
  cases found? with
  | none => exact pure nofun
  | some found => exact (h found).map fun b v ⟨c, hc, hv⟩ => by cases hc; exact hv

theorem listMapM {f : α → Action β} {items : List α}
    (h : ∀ a known, Grounded G known (f a) tells') :
    Grounded G known (items.mapM f) fun made v => ∃ b ∈ made, tells' b v := by
  induction items generalizing known with
  | nil =>
      rw [List.mapM_nil]
      exact pure nofun
  | cons item rest ih =>
      rw [List.mapM_cons]
      refine (h item known).bind fun b => ih.bind fun made => pure ?_
      rintro v ⟨c, hc, hv⟩
      rcases List.mem_cons.mp hc with rfl | hc
      · exact Or.inl (Or.inr hv)
      · exact Or.inr ⟨c, hc, hv⟩

theorem operationMapM (operation : Operation Expr) (known : Value → Prop) :
    Grounded Heap.Extends known (operation.mapM Expr.eval)
      fun made v => (Request.operation made).Gives v := by
  cases operation with
  | add text value? hint =>
      refine (optionMapM fun e => eval e known).bind fun value? => pure ?_
      intro v hv
      cases hv
      exact Or.inr ⟨v, rfl, rfl⟩
  | _ => exact pure nofun

/-- What stands in slots that are filled from pairs comes from one of them. -/
theorem mem_of_slots {pairs : List (Kind × Value)} {kind : Kind} {v : Value}
    (hv : (Slots.ofList pairs).get kind = some v) : (kind, v) ∈ pairs := by
  have hfold : ∀ (pairs : List (Kind × Value)) (slots : Slots),
      (pairs.foldl (fun slots pair => slots.set pair.1 pair.2) slots).get kind = some v →
        slots.get kind = some v ∨ (kind, v) ∈ pairs := by
    intro pairs
    induction pairs with
    | nil => exact fun _ h => Or.inl h
    | cons pair rest ih =>
        intro slots h
        rcases ih _ h with h | h
        · rw [Slots.get_set] at h
          split at h
          · rename_i heq
            cases h
            exact Or.inr (by simp [heq])
          · exact Or.inl h
        · exact Or.inr (by simp [h])
  exact (hfold pairs {} hv).resolve_left (by simp)

theorem draftMapM (draft : EntryDraft Expr) (known : Value → Prop) :
    Grounded Heap.Extends known (draft.mapM Expr.eval) fun made v => made.toEntry.Stores v := by
  cases draft with
  | bindings pairs =>
      have hpair (pair : Kind × Expr) (known : Value → Prop) :
          Grounded Heap.Extends known (do return (pair.1, ← pair.2.eval))
            fun (made : Kind × Value) v => v = made.2 :=
        (eval pair.2 known).bind fun value => pure fun v hv => Or.inr hv
      refine (listMapM hpair).bind fun made => pure ?_
      intro v hv
      cases hv with
      | slot there => exact Or.inr ⟨_, mem_of_slots there, rfl⟩
  | stub raw =>
      refine (eval raw known).bind fun raw => pure ?_
      intro v hv
      cases hv
      exact Or.inr rfl

theorem editMapM (change : Edit Expr) (known : Value → Prop) :
    Grounded Heap.Extends known (change.mapM Expr.eval) fun made v => (Request.edit made).Gives v := by
  cases change with
  | plantStub name raw =>
      refine (eval raw known).bind fun raw => pure fun v hv => ?_
      cases hv
      exact Or.inr rfl
  | insert name draft =>
      refine (draftMapM draft known).bind fun draft => pure fun v hv => ?_
      cases hv with
      | insert _ there => exact Or.inr there
  | setSlot name kind value =>
      refine (eval value known).bind fun value => pure fun v hv => ?_
      cases hv
      exact Or.inr rfl
  | _ => exact pure nofun

/-! ### Commands about values -/

section Changes

omit hG

variable [hchanges : Heap.Changes G]


theorem call (args : List Value) (callee : Handle .callable) (hargs : ∀ v ∈ args, known v) :
    Grounded G known (Host.onHeap (Heap.call args callee)) fun a v => v = a := by
  intro host hclosed hknown
  have hcall := Heap.answered_call args callee hclosed.heap fun v hv => hknown v (hargs v hv)
  have hchange : G host.world.heap (Heap.left (Heap.call args callee host.world.heap)) :=
    Heap.changes_call args callee host.world.heap
  unfold Host.onHeap
  cases heq : Heap.call args callee host.world.heap with
  | ok value heap =>
      rw [heq] at hcall hchange
      refine ⟨hchange, hclosed.setHeap hcall.grows hcall.closed, ?_⟩
      rintro a after hafter v rfl
      cases hafter
      exact hcall.has _ _ rfl
  | error e heap =>
      rw [heq] at hcall hchange
      exact ⟨hchange, hclosed.setHeap hcall.grows hcall.closed, nofun⟩

theorem callValue (callee : Value) (args : List Expr) (known : Value → Prop) :
    Grounded G known (Host.callValue callee args) Answer.Tells := by
  refine (require_silent callee.asCallable? .notCallable).bind fun callee => ?_
  refine (evalItems args _).made.bind fun args => ?_
  refine (call args callee fun v hv => Or.inr hv).bind fun value => pure fun v hv => ?_
  cases hv
  exact Or.inr rfl

/-- An answer that is no value tells none. -/
theorem silent {answer : Answer} (h : ∀ v, answer ≠ .value (some v)) :
    Grounded G known (Pure.pure answer : Action Answer) Answer.Tells :=
  pure fun v hv => absurd hv (h v)

theorem valueStep (command : ValueCommand) (known : Value → Prop) :
    Grounded G known (Host.valueStep command) Answer.Tells := by
  cases command with
  | read e =>
      refine (eval e known).made.bind fun value => pure fun v hv => ?_
      cases hv
      exact Or.inr rfl
  | display e => exact (eval e known).made.bind fun _ => heapAction.bind fun _ => silent nofun
  | debug e => exact (eval e known).made.bind fun _ => heapAction.bind fun _ => silent nofun
  | equal a b =>
      exact (eval a known).made.bind fun _ => (eval b _).made.bind fun _ =>
        heapAction.bind fun _ => silent nofun
  | same a b =>
      exact (eval a known).made.bind fun _ => (eval b _).made.bind fun _ => silent nofun
  | referent e =>
      refine (eval e known).made.bind fun value => heapAction.bind fun h => pure fun v hv => ?_
      obtain ⟨r, -, rfl⟩ := Option.map_eq_some_iff.mp (Answer.value.inj hv)
      exact Or.inr (.referent r)
  | invoke callee args =>
      exact (eval callee known).made.bind fun callee => callValue callee args _

theorem evalSequence (e : Expr) (known : Value → Prop) :
    Grounded Heap.Extends known (Host.evalSequence e) fun _ _ => False :=
  (eval e known).bind fun value => require_silent value.asSequence? .notSequence

theorem evalMapping (e : Expr) (known : Value → Prop) :
    Grounded Heap.Extends known (Host.evalMapping e) fun _ _ => False :=
  (eval e known).bind fun value => require_silent value.asMapping? .notMapping

theorem evalStream (e : Expr) (known : Value → Prop) :
    Grounded Heap.Extends known (Host.evalStream e) fun _ _ => False :=
  (eval e known).bind fun value => require_silent value.asStream? .notStream

/-- What is answered of a cell that is changed stood in the cell. -/
theorem changes {f : Heap → Option Value × Heap}
    (h : ∀ heap : Heap, heap.Closed → (∀ v, known v → heap.Has v) →
      G heap (f heap).2 ∧ (f heap).2.Closed ∧ ∀ v, (f heap).1 = some v → heap.Holds v) :
    Grounded G known (.value <$> Host.modifyHeap f) Answer.Tells := by
  have hchange : Grounded G known (Host.modifyHeap f) fun a v => a = some v := by
    refine modifyHeap fun heap hclosed hknown => ?_
    obtain ⟨hchange, hafter, htold⟩ := h heap hclosed hknown
    have hgrows := hchanges.grows hchange
    exact ⟨hchange, hafter, fun v hv => (hclosed v (htold v hv)).grow hgrows⟩
  exact hchange.map fun a v hv => Answer.value.inj hv

theorem push (s : Handle .sequence) {value : Value} (hvalue : known value) :
    Grounded G known
      (Host.modifyHeap fun h => ((h.items s).push value, h.setItems s ((h.items s).push value)))
      fun _ _ => False := by
  refine modifyHeap fun h hclosed hknown => ?_
  refine ⟨hchanges.setItems h s _, hclosed.setItems s ?_, fun _ => False.elim⟩
  intro v hv
  rcases Array.mem_push.mp hv with hv | rfl
  · exact hclosed v (.item s hv)
  · exact hknown v hvalue

theorem cellStep (command : CellCommand) (hflows : command.Flows → Heap.StreamsChange G)
    (known : Value → Prop) : Grounded G known (Host.cellStep command) Answer.Tells := by
  have hstream (hset : Heap.StreamsChange G) (β : Type) (s : Handle .stream)
      (f : LineStream → β × LineStream) (known : Value → Prop) :
      Grounded G known
        (Host.modifyHeap fun h => (f (h.lineStream s)).map id (h.setStream s)) fun _ _ => False :=
    modifyHeap fun h hclosed _ => ⟨hset h s _, hclosed.setStream s _, fun _ => False.elim⟩
  cases command with
  | push on e =>
      refine (evalSequence on known).made.bind fun s => (eval e _).made.bind fun value => ?_
      exact (push s (Or.inr rfl)).bind fun _ => silent nofun
  | pop on =>
      refine (evalSequence on known).made.bind fun s => changes fun h hclosed _ => ?_
      refine ⟨hchanges.setItems h s _, hclosed.setItems s ?_, ?_⟩
      · intro v hv
        have hmem : v ∈ (h.items s).toList :=
          List.dropLast_subset _ (by simpa using Array.mem_def.mp hv)
        exact hclosed v (.item s (Array.mem_def.mpr hmem))
      · intro v hv
        exact .item s (Array.mem_of_back? hv)
  | item on index =>
      refine (evalSequence on known).made.bind fun s => heapAction.bind fun h => pure fun v hv => ?_
      exact Or.inr (.item s (Array.mem_of_getElem? (Answer.value.inj hv)))
  | length on =>
      exact (evalSequence on known).made.bind fun s => heapAction.bind fun h => silent nofun
  | insert on key e =>
      refine (evalMapping on known).made.bind fun m => (eval e _).made.bind fun value => ?_
      refine changes fun h hclosed hknown => ?_
      refine ⟨hchanges.setPairs h m _, hclosed.setPairs m ?_, fun v hv => .entry m hv⟩
      intro other v hv
      rw [Dict.getElem?_insert] at hv
      split at hv
      · cases hv
        exact hknown value (Or.inr rfl)
      · exact hclosed v (.entry m hv)
  | lookup on key =>
      refine (evalMapping on known).made.bind fun m => heapAction.bind fun h => pure fun v hv => ?_
      exact Or.inr (.entry m (Answer.value.inj hv))
  | erase on key =>
      refine (evalMapping on known).made.bind fun m => changes fun h hclosed _ => ?_
      refine ⟨hchanges.setPairs h m _, hclosed.setPairs m ?_, fun v hv => .entry m hv⟩
      intro other v hv
      rw [Dict.getElem?_erase] at hv
      split at hv
      · cases hv
      · exact hclosed v (.entry m hv)
  | keys on =>
      exact (evalMapping on known).made.bind fun m => heapAction.bind fun h => silent nofun
  | size on =>
      exact (evalMapping on known).made.bind fun m => heapAction.bind fun h => silent nofun
  | write on line =>
      refine (evalStream on known).made.bind fun s => ?_
      exact (hstream (hflows trivial) Bool s (·.write line) _).map fun a v hv => by cases hv
  | read on =>
      refine (evalStream on known).made.bind fun s => ?_
      exact (hstream (hflows trivial) (Option String) s (·.read) _).map fun a v hv => by cases hv
  | close on =>
      refine (evalStream on known).made.bind fun s => modifyHeap fun h hclosed _ => ?_
      exact ⟨hflows trivial h s _, hclosed.setStream s _, fun v hv => by cases hv⟩
  | state on =>
      exact (evalStream on known).made.bind fun s => heapAction.bind fun h => silent nofun

/-! ### Commands about namespaces -/

theorem onSpace (handle : String) {act : Scope.Action α}
    (h : ∀ s : Scope, s.Closed → (∀ v, known v → s.world.heap.Has v) →
      G s.world.heap (Scope.left (act s)).world.heap ∧ (Scope.left (act s)).Closed ∧
        ∀ a t, act s = .ok a t → ∀ v, tells a v → t.world.heap.Has v) :
    Grounded G known (Host.onSpace handle act) tells := by
  intro host hclosed hknown
  rw [onSpace_run]
  cases hspace : host.spaceOf? handle with
  | none => exact throw .noNamespace host hclosed hknown
  | some space =>
      obtain ⟨place, -, hthere⟩ := placeOf?_of_space hspace
      have hact := h ⟨space, host.world⟩ (hclosed.scope hthere) hknown
      have hafter (t : Scope) (ht : G host.world.heap t.world.heap) (htclosed : t.Closed) :
          G host.world.heap (host.withScope handle t).world.heap ∧
            (host.withScope handle t).Closed :=
        ⟨by rw [Host.withScope, world_withSpace]; exact ht,
          hclosed.withScope hspace (hchanges.grows ht) htclosed⟩
      cases heq : act ⟨space, host.world⟩ with
      | error e t =>
          rw [heq] at hact
          obtain ⟨hchange, hclosed'⟩ := hafter t hact.1 hact.2.1
          simp only [heq]
          exact ⟨hchange, hclosed', fun _ _ hok => by cases hok⟩
      | ok a t =>
          rw [heq] at hact
          obtain ⟨hchange, hclosed'⟩ := hafter t hact.1 hact.2.1
          simp only [heq]
          refine ⟨hchange, hclosed', ?_⟩
          intro b after hok v hv
          cases hok
          rw [Host.withScope, world_withSpace]
          exact hact.2.2 a t rfl v hv

theorem performed (handle : String) (operation : Operation Value)
    (hknown : ∀ v, (Request.operation operation).Gives v → known v) :
    Grounded G known (Host.onSpace handle operation.perform)
      fun reply v => (Response.reply reply).Tells v := by
  refine onSpace handle fun s hclosed hthere => ?_
  obtain ⟨hafter, htold⟩ := Step.closed hclosed fun v hv => hthere v (hknown v hv)
  refine ⟨hchanges.made (Step.extends ⟨s, operation⟩), hafter, ?_⟩
  intro reply t heq v hv
  have hresult : Step.result ⟨s, operation⟩ = .ok reply := by
    unfold Step.result EStateM.run
    rw [heq]
    rfl
  have hleft : Step.after ⟨s, operation⟩ = t := by
    unfold Step.after EStateM.run
    rw [heq]
    rfl
  exact hleft ▸ htold reply hresult v hv

theorem operate (handle : String) (operation : Operation Expr) (known : Value → Prop) :
    Grounded G known (Host.operate handle operation) Answer.Tells := by
  refine (operationMapM operation known).made.bind fun made => ?_
  refine (performed handle made fun v hv => Or.inr hv).bind fun reply => pure fun v hv => ?_
  cases reply <;> cases hv
  exact Or.inr (.value v)

theorem callSpec (handle spec : String) (args : List Expr) (known : Value → Prop) :
    Grounded G known (Host.callSpec handle spec args) Answer.Tells := by
  have hfind : Grounded G known (Host.onSpace handle (Scope.find spec)) fun _ _ => False := by
    refine onSpace handle fun s hclosed _ => ⟨?_, (hclosed.find spec).1, fun _ _ _ _ => False.elim⟩
    have hstep := Step.extends ⟨s, .find spec⟩
    rw [Step.after_find] at hstep
    exact hchanges.made hstep
  refine hfind.bind fun callee? => ?_
  cases callee? with
  | none => exact silent nofun
  | some callee => exact callValue callee args _

theorem edit (handle : String) (change : Edit Expr) (known : Value → Prop) :
    Grounded G known (Host.edit handle change) Answer.Tells := by
  refine (editMapM change known).made.bind fun made => ?_
  have hedit : Grounded G (fun v => known v ∨ (Request.edit made).Gives v)
      (Host.onSpace handle (MonadState.modifyGet made.apply))
      fun outcome v => (Response.outcome outcome).Tells v := by
    refine onSpace handle fun s hclosed hknown => ?_
    refine ⟨?_, hclosed.edit fun v hv => hknown v (Or.inr hv), ?_⟩
    · show G s.world.heap (made.apply s).2.world.heap
      rw [s.heap_edit]
      exact hchanges.refl _
    · intro outcome t heq v hv
      obtain ⟨rfl, rfl⟩ : (made.apply s).1 = outcome ∧ (made.apply s).2 = t :=
        EStateM.Result.ok.inj heq
      rw [s.heap_edit]
      exact hclosed.told_edit hv
  refine hedit.bind fun outcome => ?_
  cases outcome with
  | content value? =>
      refine pure fun v hv => ?_
      cases hv
      exact Or.inr (.content v)
  | unbound => exact throw _
  | onlyStub => exact throw _
  | _ => exact silent nofun

/-- The namespace of a handle tells what stands in its table. -/
theorem space (handle : String) :
    Grounded G known (Host.space handle) fun space v => space.table.Stores v := by
  refine get.bind fun host => require _ ?_
  intro space hspace v hv
  obtain ⟨place, -, hthere⟩ := @placeOf?_of_space host _ _ hspace
  exact Or.inr (.bound hthere hv)

theorem tableStep (handle : String) (command : TableCommand) (known : Value → Prop) :
    Grounded G known (Host.tableStep handle command) Answer.Tells := by
  cases command with
  | entry name => exact (space handle).bind fun space => silent nofun
  | compare name draft =>
      exact (draftMapM draft known).made.bind fun draft => (space handle).bind fun space =>
        heapAction.bind fun h => silent nofun
  | contains name => exact (space handle).bind fun space => silent nofun
  | all => exact (space handle).bind fun space => silent nofun
  | save name =>
      refine (space handle).bind fun space => ?_
      have hsave : Grounded G (fun v => known v ∨ space.table.Stores v)
          (modify fun host => { host with tables := host.tables.insert name space.table } : Action PUnit)
          fun _ _ => False := by
        intro host hclosed hknown
        refine ⟨hchanges.refl _, hclosed.setTable name fun v hv => hknown v (Or.inr hv), ?_⟩
        exact fun _ _ _ _ => False.elim
      exact hsave.bind fun _ => silent nofun
  | load name =>
      intro host hclosed hknown
      rw [load_run]
      cases hspace : host.spaceOf? handle with
      | none => exact throw .noNamespace host hclosed hknown
      | some space =>
          cases htable : host.tables[name]? with
          | none => exact throw .noTable host hclosed hknown
          | some table =>
              have hscope : Scope.Closed ⟨{ space with table }, host.world⟩ :=
                ⟨hclosed.heap, fun v hv => hclosed v (.saved htable hv)⟩
              refine ⟨?_, hclosed.withScope hspace (.refl _) hscope, ?_⟩
              · show G host.world.heap (host.withSpace handle _).world.heap
                rw [world_withSpace]
                exact hchanges.refl _
              · rintro answer after heq v hv
                cases heq
                cases hv

/-! ### Commands -/

/-- An action that leaves values alone and answers none is grounded. -/
theorem of_no_value {act : Action Answer}
    (h : ∀ host : Host, host.Closed → (left (act host)).world.heap = host.world.heap ∧
      (left (act host)).Closed)
    (hanswer : Always (fun answer => ∀ value?, answer ≠ .value value?) act) :
    Grounded G known act Answer.Tells := by
  intro host hclosed _
  obtain ⟨hheap, hafter⟩ := h host hclosed
  refine ⟨by rw [hheap]; exact hchanges.refl _, hafter, ?_⟩
  intro answer after heq v hv
  exact absurd hv (hanswer host answer after heq _)

theorem realmStep (command : RealmCommand) (known : Value → Prop) :
    Grounded G known (Host.realmStep command) Answer.Tells := by
  refine of_no_value (fun host hclosed => ?_) (realmStep_no_value command)
  have harranges := arranges command host
  exact ⟨harranges.values.1, hclosed.arranges harranges⟩

theorem debugStep (command : DebugCommand) (known : Value → Prop) :
    Grounded G known (Host.debugStep command) Answer.Tells := by
  refine of_no_value (fun host hclosed => ?_) (debugStep_no_value command)
  have hbeside := (Aside.debugStep command).beside host
  exact ⟨hbeside.world.heap.symm, hclosed.beside hbeside⟩

theorem setRegister (name : String) {value : Value} (hvalue : known value) :
    Grounded G known (Host.setRegister name value) fun _ _ => False :=
  fun _ hclosed hknown =>
    ⟨hchanges.refl _, hclosed.setRegister name (hknown value hvalue), fun _ _ _ _ => False.elim⟩

/-- **Whatever a host is asked, what it knows names cells that are there.** -/
theorem perform (command : Command) (hflows : command.Flows → Heap.StreamsChange G)
    (known : Value → Prop) : Grounded G known (Host.perform command) Answer.Tells := by
  cases command with
  | operation handle operation => exact operate handle operation known
  | call handle spec args => exact callSpec handle spec args known
  | describe handle name? => exact (space handle).bind fun space => silent nofun
  | edit handle change => exact edit handle change known
  | table handle command => exact tableStep handle command known
  | realm command => exact realmStep command known
  | debugging command => exact debugStep command known
  | hold register value =>
      exact (eval value known).made.bind fun value =>
        (setRegister register (Or.inr rfl)).bind fun _ => silent nofun
  | value command => exact valueStep command known
  | cell command => exact cellStep command hflows known

theorem step (command : Command) (register? : Option String)
    (hflows : command.Flows → Heap.StreamsChange G)
    (known : Value → Prop) : Grounded G known (Host.step command register?) Answer.Tells := by
  refine (perform command hflows known).bind fun answer => ?_
  split
  · rename_i value register
    refine (setRegister register (Or.inr rfl)).bind fun _ => pure fun v hv => ?_
    exact Or.inl (Or.inr hv)
  · have hnone (known : Value → Prop) :
        Grounded G known (Pure.pure () : Action Unit) fun _ _ => False :=
      pure fun _ => False.elim
    exact (hnone _).bind fun _ => pure fun v hv => Or.inl (Or.inr hv)

end Changes

end Grounded

/-! ### Sessions -/

/-- Events can be taken out of a closed host. -/
theorem Closed.attempt {α : Type} {act : Action α} {host : Host} (h : (left (act host)).Closed) :
    (attempt act host).host.Closed := by
  rw [attempt_host]
  refine h.grow (.refl _) fun v hv => Or.inl ?_
  cases hv with
  | @bound place space _ there stored =>
      have hplace := @spaceAt?_congr (left (act host)) _ rfl rfl place
      exact .bound (hplace.symm.trans there) stored
  | saved there stored => exact .saved there stored
  | register there => exact .register there
  | cell there => exact .cell there

/-- A turn leaves a closed host closed, and changes the heap as its command may. -/
theorem Turn.changes {G : Heap → Heap → Prop} [Heap.Changes G] (turn : Turn)
    (hflows : turn.command.Flows → Heap.StreamsChange G) (h : turn.before.Closed) :
    turn.outcome.host.Closed ∧ G turn.before.world.heap turn.outcome.host.world.heap := by
  have hstep := Grounded.step turn.command turn.register? hflows (fun _ => False) turn.before h
    fun _ => False.elim
  refine ⟨hstep.closed.attempt, ?_⟩
  rw [Turn.outcome, attempt_host]
  exact hstep.heap

/-- **A turn leaves a closed host closed, and cells only come to be.** -/
theorem Turn.closed (turn : Turn) (h : turn.before.Closed) :
    turn.outcome.host.Closed ∧ turn.before.world.heap.Grows turn.outcome.host.world.heap :=
  turn.changes (fun _ => .setStream) h

theorem Course.closed {host last : Host} {turns : List Turn} (course : Course host turns last)
    (h : host.Closed) : last.Closed ∧ host.world.heap.Grows last.world.heap := by
  induction course with
  | done host => exact ⟨h, .refl _⟩
  | turn turn _ ih =>
      obtain ⟨hafter, hgrows⟩ := turn.closed h
      obtain ⟨hlast, hgrows'⟩ := ih hafter
      exact ⟨hlast, hgrows.trans hgrows'⟩

/-- **In every session, whatever a host knows names cells that are there.** -/
theorem Session.closed {turns : List Turn} {host : Host} (session : Session turns host) :
    host.Closed := by
  induction session with
  | empty => exact closed_empty
  | start settings ident =>
      have hopened := (closed_empty.arranges (arranges_newRealm "r" settings {})).arranges
        (arranges_openSpace "main" "r" ident _)
      have hstart : Host.start settings ident {}
          = (openSpace "main" "r" ident >>= fun _ => pure ())
            (left (newRealm "r" settings {})) := rfl
      refine Closed.attempt ?_
      rw [hstart, bind_run]
      cases heq : openSpace "main" "r" ident (left (newRealm "r" settings {})) with
      | ok found after =>
          rw [heq] at hopened
          exact hopened
      | error e after =>
          rw [heq] at hopened
          exact hopened
  | turn session command register? ih => exact (Turn.closed ⟨_, command, register?⟩ ih).1

end Host

end Bindery
