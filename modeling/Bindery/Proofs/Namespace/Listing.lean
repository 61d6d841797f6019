/-
Listing, testing and reading a namespace tell the same.

Four questions can be asked about what is bound: which names are there, which of them
count as bound as a kind, what all of these are bound to, and whether or what one spec
addresses.  Each is answered from the entries in its own way.  That they agree comes down
to one fact about entries: an entry counts as bound as a kind exactly when something is
found there, and for a scalar something that is defined.

What is found is shown as a value.  A slot shows the value it holds; a stub shows a new
callable, which is made while the answer is made, so that a listing of callables has as
many new ones in it as there are stubs.
-/
import Bindery.Proofs.Namespace.Named
import Mathlib.Data.List.Nodup

namespace Bindery

/-! ### Entries -/

/-- An entry counts when something is found in it, and for a scalar something defined. -/
theorem Entry.has_iff_reading {entry : Entry} {kind : Kind} :
    entry.has kind = true ↔ ∃ reading, entry.reading? kind = some reading ∧
      (kind = .scalar → reading ≠ .held .undefined) := by
  cases entry with
  | stub raw => cases kind <;> simp [has, reading?]
  | bindings slots =>
      have hdefined (value : Value) : value.isDefined = true ↔ value ≠ .undefined := by
        cases value <;> simp [Value.isDefined]
      simp [has, reading?, Slots.hasDefined_iff, hdefined]

namespace SymbolTable

variable (table : SymbolTable)

/-- A spec addresses what counts when something is found there, and for a scalar something defined. -/
theorem has_iff_reading {spec : Spec} :
    table.has spec = true ↔ ∃ reading, table.reading? spec = some reading ∧
      (spec.kind = .scalar → reading ≠ .held .undefined) := by
  unfold has reading?
  cases table[spec.name]? with
  | none => simp
  | some entry => simpa using Entry.has_iff_reading

/-- The names that are listed are those whose entries count, or all that have entries. -/
theorem mem_names {kind? : Option Kind} {name : String} :
    name ∈ table.names kind? ↔
      ∃ entry, table[name]? = some entry ∧ ∀ kind, kind? = some kind → entry.has kind = true := by
  unfold names
  simp only [List.mem_map, List.mem_filter, Prod.exists, exists_and_right, exists_eq_right,
    Std.ExtTreeMap.mem_toList_iff_getElem?_eq_some]
  refine exists_congr fun entry => and_congr_right fun _ => ?_
  cases kind? with
  | none => simp
  | some kind => simp

theorem mem_names_none {name : String} :
    name ∈ table.names none ↔ ∃ entry, table[name]? = some entry := by
  simp [mem_names]

/-- A name is listed under a kind when its spec addresses what counts. -/
theorem mem_names_some {name : String} {kind : Kind} :
    name ∈ table.names (some kind) ↔ table.has ⟨name, kind⟩ = true := by
  rw [mem_names, has, Option.any_eq_true]
  simp

/-- Names are listed in the order of their bytes, each once. -/
theorem names_ascending (kind? : Option Kind) :
    (table.names kind?).Pairwise fun a b => Text.bytes a < Text.bytes b := by
  have hall := Dict.keys_ascending table
  rw [← Std.ExtTreeMap.map_fst_toList_eq_keys] at hall
  refine hall.sublist ?_
  exact List.filter_sublist.map Prod.fst

/-- Names that are listed under no kind have slots, which hold at most an undefined scalar. -/
theorem unlisted_iff {name : String} :
    (name ∈ table.names none ∧ ∀ kind, name ∉ table.names (some kind)) ↔
      ∃ slots, table[name]? = some (.bindings slots) ∧
        ∀ kind value, slots.get kind = some value → kind = .scalar ∧ value = .undefined := by
  simp only [mem_names_none, mem_names_some, has_iff_reading, reading?]
  cases table[name]? with
  | none => simp
  | some entry =>
      cases entry with
      | stub raw =>
          refine iff_of_false ?_ (by simp)
          intro hunlisted
          exact hunlisted.2 .callable ⟨.declared raw, rfl, fun hkind => absurd hkind (by decide)⟩
      | bindings slots =>
          constructor
          · intro hunlisted
            refine ⟨slots, rfl, ?_⟩
            intro kind value hheld
            by_contra hcounts
            refine hunlisted.2 kind ⟨.held value, by simp [Entry.reading?, hheld], ?_⟩
            intro hkind heq
            exact hcounts ⟨hkind, by simpa using heq⟩
          · intro hslots
            obtain ⟨slots', heq, hheld⟩ := hslots
            obtain rfl : slots = slots' := by simpa using heq
            refine ⟨⟨_, rfl⟩, ?_⟩
            intro kind hcounts
            obtain ⟨reading, hreading, hdefined⟩ := hcounts
            obtain ⟨value, hvalue, rfl⟩ : ∃ value, slots.get kind = some value ∧
                Reading.held value = reading := by simpa [Entry.reading?] using hreading
            obtain ⟨hkind, rfl⟩ := hheld kind value hvalue
            exact hdefined hkind rfl

/-- The specs of the names that are listed under a kind are all found. -/
theorem map_fst_readings_specsOf (kind : Kind) :
    (table.readings (table.specsOf kind)).map Prod.fst = table.specsOf kind := by
  have hfound : ∀ spec ∈ table.specsOf kind, ∃ reading, table.reading? spec = some reading := by
    intro spec hspec
    obtain ⟨name, hname, rfl⟩ := List.mem_map.mp hspec
    obtain ⟨reading, hreading, -⟩ := table.has_iff_reading.mp (table.mem_names_some.mp hname)
    exact ⟨reading, hreading⟩
  unfold readings
  generalize table.specsOf kind = specs at hfound
  induction specs with
  | nil => rfl
  | cons spec rest ih =>
      obtain ⟨reading, hreading⟩ := hfound spec (by simp)
      rw [List.filterMap_cons_some (by rw [hreading]; rfl), List.map_cons,
        ih fun spec' hspec' => hfound spec' (by simp [hspec'])]

end SymbolTable

/-! ### What is shown -/

namespace Scope

/--
A value shows, by the time of a later heap, what a spec addresses: the value that a slot
holds, or a new callable that does what the stub says.
-/
inductive Shows (s : Scope) (after : Heap) (spec : Spec) : Value → Prop where
  | held {slots : Slots} {value : Value} (entry : s.table[spec.name]? = some (.bindings slots))
      (held : slots.get spec.kind = some value) : Shows s after spec value
  | declared {raw : Value} {c : Handle .callable}
      (entry : s.table[spec.name]? = some (.stub raw)) (kind : spec.kind = .callable)
      (fresh : s.world.heap.callables.size ≤ c.index) (made : c.index < after.callables.size)
      (body : after.body c = s.world.heap.stubBody raw (s.qualify spec.name)) :
      Shows s after spec (.callable c)

variable {s : Scope}

theorem read_shows {spec : Spec} {reading : Reading} (h : s.table.reading? spec = some reading) :
    s.Shows (s.read spec reading).2.world.heap spec (s.read spec reading).1 := by
  rcases s.table.reading?_eq_some h with ⟨slots, value, hentry, hvalue, rfl⟩ | ⟨raw, hentry, hkind, rfl⟩
  · exact .held hentry hvalue
  · refine .declared hentry hkind (Nat.le_refl _) ?_ (Heap.body_newCallable _ _)
    show s.world.heap.callables.size < (s.world.heap.callables.push _).size
    rw [Array.size_push]
    omega

/-- What is shown stays shown. -/
theorem Shows.later {after later : Heap} {spec : Spec} {value : Value}
    (h : s.Shows after spec value) (hkeeps : after.Keeps later) : s.Shows later spec value := by
  cases h with
  | held hentry hheld => exact .held hentry hheld
  | declared hentry hkind hfresh hmade hbody =>
      refine .declared hentry hkind hfresh (Nat.lt_of_lt_of_le hmade hkeeps.size) ?_
      rw [hkeeps.body _ hmade (by rw [hbody]; exact Heap.isFixed_stubBody _ _ _), hbody]

/-- What is shown in a heap with the same references, and more callables, is shown in this one. -/
theorem Shows.earlier {heap after : Heap} {spec : Spec} {value : Value}
    (h : (s.setHeap heap).Shows after spec value) (hkeeps : s.world.heap.Keeps heap)
    (hrefs : heap.refs = s.world.heap.refs) : s.Shows after spec value := by
  cases h with
  | held hentry hheld => exact .held hentry hheld
  | @declared raw c hentry hkind hfresh hmade hbody =>
      refine .declared hentry hkind (Nat.le_trans hkeeps.size hfresh) hmade ?_
      rw [hbody]
      exact Heap.stubBody_congr hrefs raw _

/-- What is read one after the other is all shown at the end. -/
theorem readAll_shows {found : List (Spec × Reading)}
    (h : ∀ pair ∈ found, s.table.reading? pair.1 = some pair.2) :
    ∀ pair ∈ (s.readAll found).1, s.Shows (s.readAll found).2.world.heap pair.1 pair.2 := by
  induction found generalizing s with
  | nil => simp [readAll]
  | cons pair rest ih =>
      intro shown hshown
      have hfirst := read_shows (h pair (by simp))
      have hrest := ih (s := (s.read pair.1 pair.2).2) fun p hp => h p (by simp [hp])
      rcases List.mem_cons.mp hshown with rfl | hshown
      · exact hfirst.later ((s.read pair.1 pair.2).2.extends_readAll rest).keeps
      · exact (hrest shown hshown).earlier (s.extends_read pair.1 pair.2).keeps (Heap.refs_read _ _ _)

/-- What a removal keeps is shown. -/
theorem keep_shows (s : Scope) (spec : Spec) :
    ∀ pair ∈ (s.keep spec).1, s.Shows (s.keep spec).2.world.heap pair.1 pair.2 :=
  readAll_shows fun _ => s.table.reading?_of_mem_readings

/-! ### Answers -/

/-- What is bound as a kind, with its names, and the scope after it is read. -/
def collect (s : Scope) (kind : Kind) : List (Spec × Value) × Scope :=
  s.readAll (s.table.readings (s.table.specsOf kind))

/-- What is collected has the names that are listed. -/
theorem map_fst_collect (s : Scope) (kind : Kind) :
    (s.collect kind).1.map Prod.fst = s.table.specsOf kind := by
  unfold collect
  rw [map_fst_readAll, SymbolTable.map_fst_readings_specsOf]

/-- What is collected is shown. -/
theorem collect_shows (s : Scope) (kind : Kind) :
    ∀ pair ∈ (s.collect kind).1, s.Shows (s.collect kind).2.world.heap pair.1 pair.2 :=
  readAll_shows fun _ => s.table.reading?_of_mem_readings

/-- What is answered when all that is bound as a kind is asked for. -/
def found (s : Scope) (kind : Kind) : List (String × Value) :=
  (s.collect kind).1.map fun pair => (pair.1.name, pair.2)

theorem result_bindings (s : Scope) (kind : Kind) :
    Step.result ⟨s, .bindings kind⟩ = .ok (.bindings (s.found kind)) := rfl

theorem map_fst_found (s : Scope) (kind : Kind) :
    (s.found kind).map Prod.fst = s.table.names (some kind) := by
  have hspecs := congrArg (List.map Spec.name) (s.map_fst_collect kind)
  simpa [found, SymbolTable.specsOf, Function.comp_def] using hspecs

theorem found_shows {s : Scope} {kind : Kind} {name : String} {value : Value}
    (hmem : (name, value) ∈ s.found kind) :
    s.Shows (Step.after ⟨s, .bindings kind⟩).world.heap ⟨name, kind⟩ value := by
  obtain ⟨⟨spec, value'⟩, hpair, heq⟩ := List.mem_map.mp hmem
  obtain ⟨rfl, rfl⟩ : spec.name = name ∧ value' = value := by simpa using heq
  have hspec : spec ∈ s.table.specsOf kind := by
    rw [← s.map_fst_collect kind]
    exact List.mem_map_of_mem (f := Prod.fst) hpair
  obtain ⟨name', -, rfl⟩ := List.mem_map.mp hspec
  exact s.collect_shows kind _ hpair

/-- What is listed under a kind is found there. -/
theorem exists_found {s : Scope} {kind : Kind} {name : String}
    (hlisted : name ∈ s.table.names (some kind)) : ∃ value, (name, value) ∈ s.found kind := by
  rw [← s.map_fst_found kind] at hlisted
  obtain ⟨⟨_, value⟩, hpair, rfl⟩ := List.mem_map.mp hlisted
  exact ⟨value, hpair⟩

/-- What is found as a kind is found once under each name. -/
theorem eq_of_found {s : Scope} {kind : Kind} {name : String} {v w : Value}
    (hv : (name, v) ∈ s.found kind) (hw : (name, w) ∈ s.found kind) : v = w := by
  have hnodup : ((s.found kind).map Prod.fst).Nodup := by
    rw [map_fst_found]
    refine (s.table.names_ascending (some kind)).imp ?_
    intro a b hlt heq
    rw [heq] at hlt
    exact List.lt_irrefl _ hlt
  have hpair := List.inj_on_of_nodup_map hnodup hv hw rfl
  exact congrArg Prod.snd hpair

/-- A spec addresses what counts when a read gives a value, and for a scalar a defined one. -/
theorem has_iff_lookup (s : Scope) (spec : Spec) :
    s.table.has spec = true ↔ ∃ value, (s.lookup spec).1 = some value ∧
      (spec.kind = .scalar → value ≠ .undefined) := by
  rw [SymbolTable.has_iff_reading, lookup_eq]
  cases s.table.reading? spec with
  | none => simp
  | some reading =>
      cases reading with
      | held value => simp [read, Heap.read]
      | declared raw => simp [read, Heap.read, Heap.newCallable]

/-! ### Equal tables -/

/-- What is read depends on the identifier and the heap only. -/
theorem readAll_congr {s t : Scope} (hident : t.space.ident = s.space.ident)
    (hheap : t.world.heap = s.world.heap) (found : List (Spec × Reading)) :
    (t.readAll found).1 = (s.readAll found).1 ∧
      (t.readAll found).2.world.heap = (s.readAll found).2.world.heap := by
  induction found generalizing s t with
  | nil => exact ⟨rfl, hheap⟩
  | cons pair rest ih =>
      have hread : t.world.heap.read pair.2 (t.qualify pair.1.name)
          = s.world.heap.read pair.2 (s.qualify pair.1.name) := by
        rw [qualify, qualify, hident, hheap]
      have hrest := ih (s := (s.read pair.1 pair.2).2) (t := (t.read pair.1 pair.2).2) hident
        (congrArg Prod.snd hread)
      have hvalue : (t.read pair.1 pair.2).1 = (s.read pair.1 pair.2).1 := by
        show (t.world.heap.read _ _).1 = (s.world.heap.read _ _).1
        rw [hread]
      refine ⟨?_, hrest.2⟩
      show (pair.1, (t.read pair.1 pair.2).1) :: ((t.read pair.1 pair.2).2.readAll rest).1 = _
      rw [hvalue, hrest.1]
      rfl

/-- Two shown values of one slot are the same value, whoever looks. -/
theorem Shows.eq_of_slot {s t : Scope} {after after' : Heap} {spec : Spec} {value value' : Value}
    (h : s.Shows after spec value) (h' : t.Shows after' spec value')
    (htable : t.table = s.table) (hstub : s.table.isStub spec.name = false) : value' = value := by
  cases h with
  | declared hentry => simp [SymbolTable.isStub, hentry, Entry.isStub] at hstub
  | held hentry hheld =>
      cases h' with
      | declared hentry' =>
          rw [htable, hentry] at hentry'
          cases hentry'
      | held hentry' hheld' =>
          rw [htable, hentry] at hentry'
          cases hentry'
          rw [hheld] at hheld'
          exact (Option.some.inj hheld').symm

end Scope

/--
**Listing, testing and reading agree.**  In every namespace whatsoever the names that are
listed are those with an entry; those listed under a kind are the names of what is bound as
that kind, and each is bound to what its slot holds or its stub declares.  A spec has a
binding exactly when its name is listed under its kind, and exactly when a read gives a
value, for a scalar a defined one.  Only names whose slots hold at most an undefined scalar
are listed under no kind.  Lists ascend in the order of bytes, and tables with the same
entries give the same lists and the same values, however they came about.
-/
theorem listings_agree (s : Scope) :
    (∀ kind?, Step.result ⟨s, .names kind?⟩ = .ok (.names (s.table.names kind?)) ∧
      (s.table.names kind?).Pairwise fun a b => Text.bytes a < Text.bytes b) ∧
    (∀ name, name ∈ s.table.names none ↔ ∃ entry, s.table[name]? = some entry) ∧
    (∀ kind, ∃ found, Step.result ⟨s, .bindings kind⟩ = .ok (.bindings found) ∧
      found.map Prod.fst = s.table.names (some kind) ∧
      ∀ name value, (name, value) ∈ found →
        s.Shows (Step.after ⟨s, .bindings kind⟩).world.heap ⟨name, kind⟩ value) ∧
    (∀ name, (name ∈ s.table.names none ∧ ∀ kind, name ∉ s.table.names (some kind)) ↔
      ∃ slots, s.table[name]? = some (.bindings slots) ∧
        ∀ kind value, slots.get kind = some value → kind = .scalar ∧ value = .undefined) ∧
    (∀ text name kind, Spec.parse text = .ok ⟨name, kind⟩ →
      ∃ holds value?, Step.result ⟨s, .has text⟩ = .ok (.answer holds) ∧
        Step.result ⟨s, .find text⟩ = .ok (.value value?) ∧
        (holds = true ↔ name ∈ s.table.names (some kind)) ∧
        (holds = true ↔ ∃ value, value? = some value ∧ (kind = .scalar → value ≠ .undefined))) ∧
    ∀ t : Scope, (∀ name : String, t.table[name]? = s.table[name]?) →
      (∀ kind?, Step.result ⟨t, .names kind?⟩ = Step.result ⟨s, .names kind?⟩) ∧
      ∀ kind, ∃ found found', Step.result ⟨s, .bindings kind⟩ = .ok (.bindings found) ∧
        Step.result ⟨t, .bindings kind⟩ = .ok (.bindings found') ∧
        found'.map Prod.fst = found.map Prod.fst ∧
        (∀ name value value', (name, value) ∈ found → (name, value') ∈ found' →
          s.table.isStub name = false → value' = value) ∧
        (t.space.ident = s.space.ident → t.world.heap = s.world.heap → found' = found) := by
  refine ⟨fun kind? => ⟨rfl, s.table.names_ascending kind?⟩, fun _ => s.table.mem_names_none,
    fun kind => ⟨_, s.result_bindings kind, s.map_fst_found kind, fun _ _ => Scope.found_shows⟩,
    fun _ => s.table.unlisted_iff, ?_, ?_⟩
  · intro text name kind hp
    refine ⟨s.table.has ⟨name, kind⟩, (s.lookup ⟨name, kind⟩).1, ?_, ?_, ?_, ?_⟩
    · rw [Step.result_has, Scope.has_run, hp]
      rfl
    · rw [Step.result_find, Scope.find_run, hp]
      rfl
    · exact s.table.mem_names_some.symm
    · exact s.has_iff_lookup ⟨name, kind⟩
  · intro t hentries
    have htable : t.table = s.table := Std.ExtTreeMap.ext_getElem? hentries
    refine ⟨fun kind? => ?_, fun kind => ?_⟩
    · show Except.ok (Reply.names (t.table.names kind?)) = _
      rw [htable]
      rfl
    · refine ⟨_, _, s.result_bindings kind, t.result_bindings kind, ?_, ?_, ?_⟩
      · rw [s.map_fst_found, t.map_fst_found, htable]
      · intro name value value' hvalue hvalue' hstub
        exact (Scope.found_shows hvalue).eq_of_slot (Scope.found_shows hvalue') htable hstub
      · intro hident hheap
        have hcollect : (t.collect kind).1 = (s.collect kind).1 := by
          unfold Scope.collect
          rw [htable]
          exact (Scope.readAll_congr hident hheap _).1
        rw [Scope.found, hcollect, Scope.found]

/-- A slot that does not fit its kind counts and is read; an undefined scalar is listed bare. -/
theorem listings_of_misfit :
    ∃ s : Scope, s.table["w"]? = some (.bindings (({} : Slots).set .mapping (.int 7))) ∧
      s.table["u"]? = some (.bindings (({} : Slots).set .scalar .undefined)) ∧
      Step.result ⟨s, .has "%w"⟩ = .ok (.answer true) ∧
      Step.result ⟨s, .find "%w"⟩ = .ok (.value (some (.int 7))) ∧
      "u" ∈ s.table.names none ∧ ∀ kind, "u" ∉ s.table.names (some kind) := by
  let table : SymbolTable := ((∅ : SymbolTable).insert "w"
    (.bindings (({} : Slots).set .mapping (.int 7)))).insert "u"
    (.bindings (({} : Slots).set .scalar .undefined))
  have h := listings_agree ⟨⟨"main", table, ⟨0⟩⟩, {}⟩
  obtain ⟨holds, value?, hhas, hfind, -, hcounts⟩ := h.2.2.2.2.1 "%w" "w" .mapping rfl
  have hvalue : value? = some (.int 7) := by
    cases hfind
    rfl
  have hunlisted := (h.2.2.2.1 "u").mpr ⟨_, rfl, by
    intro kind value hheld
    cases kind <;> cases hheld
    exact ⟨rfl, rfl⟩⟩
  refine ⟨_, rfl, rfl, ?_, ?_, hunlisted⟩
  · rw [hhas, hcounts.mpr ⟨_, hvalue, nofun⟩]
  · rw [hfind, hvalue]

end Bindery
