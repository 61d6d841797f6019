/-
Values that are the same but for the names of cells.

Cells are numbered as they are made, so the same request makes cells of other numbers when
others were made before it.  A pairing says which cells of one heap stand for which cells of
another.  Values are paired if they are the same plain datum or name cells that are paired, and
whatever is made of values is paired part by part.

No operation looks at the number of a cell.  What it does look at, such as whether a value fits
a kind, is the same for values that are paired.
-/
import Bindery.Proofs.Heap.Content
import Bindery.Proofs.Namespace.Named

namespace Bindery

/-- Which cells of one heap stand for which cells of another. -/
abbrev Pairing := Cell → Nat → Nat → Prop

/-- No cell stands for two, and for none do two stand. -/
structure Pairing.OneToOne (p : Pairing) : Prop where
  left : ∀ {cell : Cell} {i i' j : Nat}, p cell i j → p cell i' j → i = i'
  right : ∀ {cell : Cell} {i j j' : Nat}, p cell i j → p cell i j' → j = j'

/-! ### Values -/

/-- Two values are the same plain datum, or name cells that are paired. -/
inductive Value.Paired (p : Pairing) : Value → Value → Prop where
  | plain {v : Value} (h : v.cell? = none) : Paired p v v
  | cell {cell : Cell} {i j : Nat} (h : p cell i j) : Paired p (.handle cell i) (.handle cell j)

namespace Value.Paired

variable {p q : Pairing} {v w : Value}

theorem fits (h : Paired p v w) (kind : Kind) : v.fits kind = w.fits kind := by
  cases h with
  | plain => rfl
  | @cell cell => cases cell <;> cases kind <;> rfl

theorem isDefined (h : Paired p v w) : v.isDefined = w.isDefined := by
  cases h with
  | plain => rfl
  | @cell cell => cases cell <;> rfl

theorem typeName (h : Paired p v w) : v.typeName = w.typeName := by
  cases h with
  | plain => rfl
  | @cell cell => cases cell <;> rfl

/-- A value is paired with itself if the cell that it names is. -/
theorem self (h : ∀ cell i, v.cell? = some (cell, i) → p cell i i) : Paired p v v := by
  cases hcell : v.cell? with
  | none => exact .plain hcell
  | some named =>
      obtain ⟨cell, i⟩ := named
      rw [Value.eq_handle hcell]
      exact .cell (h cell i hcell)

theorem imp (h : Paired p v w)
    (hpq : ∀ cell i j, v.cell? = some (cell, i) → w.cell? = some (cell, j) → p cell i j →
      q cell i j) : Paired q v w := by
  cases h with
  | plain hplain => exact .plain hplain
  | cell hp => exact .cell (hpq _ _ _ (cell?_handle _ _) (cell?_handle _ _) hp)

end Value.Paired

/-! ### What cells hold -/

/-- Two cells hold the same, of paired values. -/
inductive Content.Paired (p : Pairing) : Content → Content → Prop where
  | referent {v w : Value} (h : v.Paired p w) : Paired p (.referent v) (.referent w)
  | items {items items' : Array Value} (h : List.Forall₂ (Value.Paired p) items.toList items'.toList) :
      Paired p (.items items) (.items items')
  | pairs {pairs pairs' : Dict Value} (h : Dict.Rel (Value.Paired p) pairs pairs') :
      Paired p (.pairs pairs) (.pairs pairs')
  | constant {v w : Value} (h : v.Paired p w) :
      Paired p (.body (.constant v)) (.body (.constant w))
  | undefined (name : String) : Paired p (.body (.undefined name)) (.body (.undefined name))
  | builtin (builtin : Builtin) : Paired p (.body (.builtin builtin)) (.body (.builtin builtin))
  | lineStream (stream : LineStream) : Paired p (.lineStream stream) (.lineStream stream)

/-- What a cell holds is paired with itself if the values that stand in it are. -/
theorem Content.paired_self {p : Pairing} {held : Content} (h : ∀ v, held.Holds v → v.Paired p v) :
    held.Paired p held := by
  cases held with
  | referent v => exact .referent (h v (.referent v))
  | items items =>
      refine .items (List.forall₂_same.mpr fun v hv => h v (.item ?_))
      simpa using hv
  | pairs pairs =>
      refine .pairs fun key => ?_
      cases hentry : pairs[key]? with
      | none => exact .none
      | some v => exact .some (h v (.entry hentry))
  | body body =>
      cases body with
      | constant v => exact .constant (h v (.answer v))
      | undefined name => exact .undefined name
      | builtin builtin => exact .builtin builtin
  | lineStream stream => exact .lineStream stream

/-! ### Entries -/

/-- Slots hold paired values, kind by kind. -/
def Slots.Paired (p : Pairing) (slots slots' : Slots) : Prop :=
  ∀ kind, Option.Rel (Value.Paired p) (slots.get kind) (slots'.get kind)

/-- Entries are both slots or both stubs, of paired values. -/
inductive Entry.Paired (p : Pairing) : Entry → Entry → Prop where
  | bindings {slots slots' : Slots} (h : slots.Paired p slots') :
      Paired p (.bindings slots) (.bindings slots')
  | stub {raw raw' : Value} (h : raw.Paired p raw') : Paired p (.stub raw) (.stub raw')

/-- What is found is both held or both declared, of paired values. -/
inductive Reading.Paired (p : Pairing) : Reading → Reading → Prop where
  | held {v w : Value} (h : v.Paired p w) : Paired p (.held v) (.held w)
  | declared {raw raw' : Value} (h : raw.Paired p raw') : Paired p (.declared raw) (.declared raw')

section Entries

variable {p q : Pairing}

theorem Slots.paired_empty : Slots.Paired p {} {} := by
  intro kind
  rw [Slots.get_empty]
  exact .none

theorem Slots.Paired.put {slots slots' : Slots} (h : slots.Paired p slots') (kind : Kind)
    {content content' : Option Value} (hcontent : Option.Rel (Value.Paired p) content content') :
    (slots.put kind content).Paired p (slots'.put kind content') := by
  intro other
  rw [Slots.get_put, Slots.get_put]
  by_cases hkind : other = kind
  · rw [if_pos hkind, if_pos hkind]
    exact hcontent
  · rw [if_neg hkind, if_neg hkind]
    exact h other

theorem Slots.Paired.hasDefined {slots slots' : Slots} (h : slots.Paired p slots') (kind : Kind) :
    slots.hasDefined kind = slots'.hasDefined kind := by
  unfold Slots.hasDefined
  rcases rel_cases (h kind) with ⟨hget, hget'⟩ | ⟨v, w, hget, hget', hvw⟩
  · rw [hget, hget']
  · rw [hget, hget']
    cases kind with
    | scalar => exact hvw.isDefined
    | _ => rfl

theorem Slots.Paired.imp {slots slots' : Slots} (h : slots.Paired p slots')
    (hpq : ∀ v w kind, slots.get kind = some v → slots'.get kind = some w → v.Paired p w →
      v.Paired q w) : slots.Paired q slots' := by
  intro kind
  rcases rel_cases (h kind) with ⟨hget, hget'⟩ | ⟨v, w, hget, hget', hvw⟩
  · rw [hget, hget']
    exact .none
  · rw [hget, hget']
    exact .some (hpq v w kind hget hget' hvw)

namespace Entry.Paired

variable {entry entry' : Entry} (h : entry.Paired p entry')
include h

theorem has (kind : Kind) : entry.has kind = entry'.has kind := by
  cases h with
  | bindings hslots => exact hslots.hasDefined kind
  | stub => rfl

theorem reading? (kind : Kind) :
    Option.Rel (Reading.Paired p) (entry.reading? kind) (entry'.reading? kind) := by
  cases h with
  | @bindings slots slots' hslots =>
      show Option.Rel _ ((slots.get kind).map Reading.held) ((slots'.get kind).map Reading.held)
      rcases rel_cases (hslots kind) with ⟨hget, hget'⟩ | ⟨v, w, hget, hget', hvw⟩
      · rw [hget, hget']
        exact .none
      · rw [hget, hget']
        exact .some (.held hvw)
  | @stub raw raw' hraw =>
      show Option.Rel _ (if kind = .callable then some (Reading.declared raw) else none)
        (if kind = .callable then some (Reading.declared raw') else none)
      by_cases hkind : kind = .callable
      · rw [if_pos hkind, if_pos hkind]
        exact .some (.declared hraw)
      · rw [if_neg hkind, if_neg hkind]
        exact .none

/-- Entries stay paired under another pairing that pairs the values that stand in them. -/
theorem imp (hpq : ∀ v w, entry.Stores v → entry'.Stores w → v.Paired p w → v.Paired q w) :
    entry.Paired q entry' := by
  cases h with
  | bindings hslots =>
      exact .bindings (hslots.imp fun v w _ hv hw => hpq v w (.slot hv) (.slot hw))
  | stub hraw => exact .stub (hpq _ _ (.raw _) (.raw _) hraw)

end Entry.Paired

/-- An entry is paired with itself if the values that stand in it are. -/
theorem Entry.paired_self {entry : Entry} (h : ∀ v, entry.Stores v → v.Paired p v) :
    entry.Paired p entry := by
  cases entry with
  | stub raw => exact .stub (h raw (.raw raw))
  | bindings slots =>
      refine .bindings fun kind => ?_
      cases hget : slots.get kind with
      | none => exact .none
      | some v => exact .some (h v (.slot hget))

end Entries

/-! ### Tables -/

/-- Two tables have paired entries under some names, or none in either. -/
def SymbolTable.Paired (p : Pairing) (on : String → Prop) (table table' : SymbolTable) : Prop :=
  ∀ name : String, on name → Option.Rel (Entry.Paired p) table[name]? table'[name]?

namespace SymbolTable

variable {p q : Pairing} {on : String → Prop} {table table' : SymbolTable}

/-- A table is paired with itself if the values that stand in it are. -/
theorem paired_self (h : ∀ v, table.Stores v → v.Paired p v) : table.Paired p on table := by
  intro name _
  cases hentry : table[name]? with
  | none => exact .none
  | some entry => exact .some (Entry.paired_self fun v hv => h v ⟨name, entry, hentry, hv⟩)

namespace Paired

variable (h : table.Paired p on table')
include h

theorem has {spec : Spec} (hon : on spec.name) : table.has spec = table'.has spec := by
  unfold SymbolTable.has
  rcases rel_cases (h spec.name hon) with ⟨hentry, hentry'⟩ | ⟨entry, entry', hentry, hentry', hpair⟩
  · rw [hentry, hentry']
  · rw [hentry, hentry']
    exact hpair.has spec.kind

theorem contains {name : String} (hon : on name) : table.contains name = table'.contains name := by
  rw [Dict.contains_eq, Dict.contains_eq]
  rcases rel_cases (h name hon) with ⟨hentry, hentry'⟩ | ⟨entry, entry', hentry, hentry', -⟩
  · rw [hentry, hentry']
  · rw [hentry, hentry']
    rfl

theorem slots {name : String} (hon : on name) : (table.slots name).Paired p (table'.slots name) := by
  unfold SymbolTable.slots
  rcases rel_cases (h name hon) with ⟨hentry, hentry'⟩ | ⟨entry, entry', hentry, hentry', hpair⟩
  · rw [hentry, hentry']
    exact Slots.paired_empty
  · rw [hentry, hentry']
    cases hpair with
    | bindings hslots => exact hslots
    | stub => exact Slots.paired_empty

theorem reading? {spec : Spec} (hon : on spec.name) :
    Option.Rel (Reading.Paired p) (table.reading? spec) (table'.reading? spec) := by
  unfold SymbolTable.reading?
  rcases rel_cases (h spec.name hon) with ⟨hentry, hentry'⟩ | ⟨entry, entry', hentry, hentry', hpair⟩
  · rw [hentry, hentry']
    exact .none
  · rw [hentry, hentry']
    exact hpair.reading? spec.kind

theorem insert (name : String) {entry entry' : Entry} (hentry : entry.Paired p entry') :
    SymbolTable.Paired p on (table.insert name entry) (table'.insert name entry') := by
  intro other hon
  rw [Dict.getElem?_insert, Dict.getElem?_insert]
  by_cases hname : other = name
  · rw [if_pos hname, if_pos hname]
    exact .some hentry
  · rw [if_neg hname, if_neg hname]
    exact h other hon

theorem erase (name : String) :
    SymbolTable.Paired p on (table.erase name) (table'.erase name) := by
  intro other hon
  rw [Dict.getElem?_erase, Dict.getElem?_erase]
  by_cases hname : other = name
  · rw [if_pos hname, if_pos hname]
    exact .none
  · rw [if_neg hname, if_neg hname]
    exact h other hon

theorem bound {spec : Spec} (hon : on spec.name) {value? value?' : Option Value}
    (hvalue : Option.Rel (Value.Paired p) value? value?') :
    (table.bound spec value?).Paired p on (table'.bound spec value?') := by
  cases hvalue with
  | none =>
      unfold SymbolTable.bound
      rw [h.contains hon]
      by_cases hbound : table'.contains spec.name = true
      · rw [if_pos hbound, if_pos hbound]
        exact h
      · rw [if_neg hbound, if_neg hbound]
        exact h.insert spec.name (.bindings Slots.paired_empty)
  | some hvw =>
      exact h.insert spec.name (.bindings ((h.slots hon).put spec.kind (.some hvw)))

theorem siblingsOf {spec : Spec} (hon : on spec.name) :
    table.siblingsOf spec = table'.siblingsOf spec := by
  unfold SymbolTable.siblingsOf
  refine List.filter_congr fun sibling hsibling => ?_
  obtain ⟨kind, -, rfl⟩ := List.mem_map.mp hsibling
  exact h.has (show on ({ spec with kind } : Spec).name from hon)

theorem readings {specs : List Spec} (hon : ∀ spec ∈ specs, on spec.name) :
    List.Forall₂ (fun found found' => found.1 = found'.1 ∧ found.2.Paired p found'.2)
      (table.readings specs) (table'.readings specs) := by
  unfold SymbolTable.readings
  induction specs with
  | nil => exact .nil
  | cons spec rest ih =>
      have hrest := ih fun spec' hspec' => hon spec' (by simp [hspec'])
      rcases rel_cases (h.reading? (hon spec (by simp)))
        with ⟨hreading, hreading'⟩ | ⟨reading, reading', hreading, hreading', hpair⟩
      · rw [List.filterMap_cons_none (by rw [hreading]; rfl),
          List.filterMap_cons_none (by rw [hreading']; rfl)]
        exact hrest
      · rw [List.filterMap_cons_some (b := (spec, reading)) (by rw [hreading]; rfl),
          List.filterMap_cons_some (b := (spec, reading')) (by rw [hreading']; rfl)]
        exact .cons ⟨rfl, hpair⟩ hrest

/-- Tables that are paired under all names list the same names. -/
theorem names (hon : ∀ name, on name) (kind? : Option Kind) :
    table.names kind? = table'.names kind? := by
  have hrel : Dict.Rel (Entry.Paired p) table table' := fun name => h name (hon name)
  have hlists : List.Forall₂ (fun pair pair' => pair.1 = pair'.1 ∧ pair.2.Paired p pair'.2)
      table.toList table'.toList := by
    rw [Dict.forall₂_toList]
    refine ⟨hrel.keys, fun name entry entry' hentry hentry' => ?_⟩
    have hpair := h name (hon name)
    rw [hentry, hentry'] at hpair
    cases hpair with
    | some hpair => exact hpair
  unfold SymbolTable.names
  generalize table.toList = pairs, table'.toList = pairs' at hlists
  induction hlists with
  | nil => rfl
  | @cons pair pair' _ _ hpair _ ih =>
      have hhas : (kind?.all fun kind => pair.2.has kind) = kind?.all fun kind => pair'.2.has kind := by
        cases kind? with
        | none => rfl
        | some kind => exact hpair.2.has kind
      rw [List.filter_cons, List.filter_cons, hhas]
      split
      · rw [List.map_cons, List.map_cons, hpair.1, ih]
      · exact ih

/-- Tables stay paired under another pairing that pairs the values that stand in them. -/
theorem imp (hpq : ∀ v w, table.Stores v → table'.Stores w → v.Paired p w → v.Paired q w) :
    table.Paired q on table' := by
  intro name hon
  rcases rel_cases (h name hon) with ⟨hentry, hentry'⟩ | ⟨entry, entry', hentry, hentry', hpair⟩
  · rw [hentry, hentry']
    exact .none
  · rw [hentry, hentry']
    exact .some (hpair.imp fun v w hv hw =>
      hpq v w ⟨name, entry, hentry, hv⟩ ⟨name, entry', hentry', hw⟩)

end Paired

end SymbolTable

/-! ### Requests and responses -/

/-- Two operations are the same, of paired values. -/
inductive Operation.Paired (p : Pairing) : Operation Value → Operation Value → Prop where
  | add (text : String) {value? value?' : Option Value}
      (h : Option.Rel (Value.Paired p) value? value?') (hint : RangeHint) :
      Paired p (.add text value? hint) (.add text value?' hint)
  | has (text : String) : Paired p (.has text) (.has text)
  | find (text : String) : Paired p (.find text) (.find text)
  | vivify (text : String) : Paired p (.vivify text) (.vivify text)
  | remove (text : String) : Paired p (.remove text) (.remove text)
  | removeAll (name : String) : Paired p (.removeAll name) (.removeAll name)
  | names (kind? : Option Kind) : Paired p (.names kind?) (.names kind?)
  | bindings (kind : Kind) : Paired p (.bindings kind) (.bindings kind)

/-- Two edits are the same, of paired values. -/
inductive Edit.Paired (p : Pairing) : Edit Value → Edit Value → Prop where
  | plantStub (name : String) {raw raw' : Value} (h : raw.Paired p raw') :
      Paired p (.plantStub name raw) (.plantStub name raw')
  | insert (name : String) {draft draft' : EntryDraft Value}
      (h : draft.toEntry.Paired p draft'.toEntry) : Paired p (.insert name draft) (.insert name draft')
  | setSlot (name : String) (kind : Kind) {v w : Value} (h : v.Paired p w) :
      Paired p (.setSlot name kind v) (.setSlot name kind w)
  | clearSlot (name : String) (kind : Kind) : Paired p (.clearSlot name kind) (.clearSlot name kind)
  | openSlots (name : String) : Paired p (.openSlots name) (.openSlots name)
  | erase (name : String) : Paired p (.erase name) (.erase name)

/-- Two requests are the same, of paired values. -/
inductive Request.Paired (p : Pairing) : Request → Request → Prop where
  | operation {asked asked' : Operation Value} (h : asked.Paired p asked') :
      Paired p (.operation asked) (.operation asked')
  | edit {change change' : Edit Value} (h : change.Paired p change') :
      Paired p (.edit change) (.edit change')
  | replace {table table' : SymbolTable} (h : table.Paired p (fun _ => True) table') :
      Paired p (.replace table) (.replace table')

/-- Two replies are the same, of paired values. -/
inductive Reply.Paired (p : Pairing) : Reply → Reply → Prop where
  | done : Paired p .done .done
  | answer (holds : Bool) : Paired p (.answer holds) (.answer holds)
  | value {value? value?' : Option Value} (h : Option.Rel (Value.Paired p) value? value?') :
      Paired p (.value value?) (.value value?')
  | entry {found? found?' : Option Entry} (h : Option.Rel (Entry.Paired p) found? found?') :
      Paired p (.entry found?) (.entry found?')
  | names (names : List String) : Paired p (.names names) (.names names)
  | bindings {found found' : List (String × Value)}
      (h : List.Forall₂ (fun pair pair' => pair.1 = pair'.1 ∧ pair.2.Paired p pair'.2) found found') :
      Paired p (.bindings found) (.bindings found')

/-- Two outcomes of edits are the same, of paired values. -/
inductive EditOutcome.Paired (p : Pairing) : EditOutcome → EditOutcome → Prop where
  | entry {found? found?' : Option Entry} (h : Option.Rel (Entry.Paired p) found? found?') :
      Paired p (.entry found?) (.entry found?')
  | content {value? value?' : Option Value} (h : Option.Rel (Value.Paired p) value? value?') :
      Paired p (.content value?) (.content value?')
  | slots {slots slots' : Slots} (h : slots.Paired p slots') : Paired p (.slots slots) (.slots slots')
  | unbound : Paired p .unbound .unbound
  | onlyStub : Paired p .onlyStub .onlyStub

/-- Two responses are the same, of paired values. -/
inductive Response.Paired (p : Pairing) : Response → Response → Prop where
  | reply {reply reply' : Reply} (h : reply.Paired p reply') : Paired p (.reply reply) (.reply reply')
  | outcome {outcome outcome' : EditOutcome} (h : outcome.Paired p outcome') :
      Paired p (.outcome outcome) (.outcome outcome')
  | replaced : Paired p .replaced .replaced

/-- Two requests both get responses that are paired, or are both refused for the same reason. -/
inductive Answer.Paired (p : Pairing) :
    Except BindError Response → Except BindError Response → Prop where
  | ok {response response' : Response} (h : response.Paired p response') :
      Paired p (.ok response) (.ok response')
  | error (e : BindError) : Paired p (.error e) (.error e)

section Requests

variable {p q : Pairing}

/-- A request is paired with itself if the values that it gives are. -/
theorem Request.paired_self {request : Request} (h : ∀ v, request.Gives v → v.Paired p v) :
    request.Paired p request := by
  cases request with
  | operation asked =>
      refine .operation ?_
      cases asked with
      | add text value? hint =>
          cases value? with
          | none => exact .add text .none hint
          | some v => exact .add text (.some (h v (.add text v hint))) hint
      | has text => exact .has text
      | find text => exact .find text
      | vivify text => exact .vivify text
      | remove text => exact .remove text
      | removeAll name => exact .removeAll name
      | names kind? => exact .names kind?
      | bindings kind => exact .bindings kind
  | edit change =>
      refine .edit ?_
      cases change with
      | plantStub name raw => exact .plantStub name (h raw (.plantStub name raw))
      | insert name draft =>
          exact .insert name (Entry.paired_self fun v hv => h v (.insert name hv))
      | setSlot name kind v => exact .setSlot name kind (h v (.setSlot name kind v))
      | clearSlot name kind => exact .clearSlot name kind
      | openSlots name => exact .openSlots name
      | erase name => exact .erase name
  | replace table => exact .replace (SymbolTable.paired_self fun v hv => h v (.replace hv))

/-- Requests stay paired under another pairing that pairs the values that they give. -/
theorem Request.Paired.imp {request request' : Request} (h : request.Paired p request')
    (hpq : ∀ v w, request.Gives v → request'.Gives w → v.Paired p w → v.Paired q w) :
    request.Paired q request' := by
  cases h with
  | operation hasked =>
      refine .operation ?_
      cases hasked with
      | add text hvalue hint =>
          cases hvalue with
          | none => exact .add text .none hint
          | some hvw => exact .add text (.some (hpq _ _ (.add ..) (.add ..) hvw)) hint
      | has text => exact .has text
      | find text => exact .find text
      | vivify text => exact .vivify text
      | remove text => exact .remove text
      | removeAll name => exact .removeAll name
      | names kind? => exact .names kind?
      | bindings kind => exact .bindings kind
  | edit hchange =>
      refine .edit ?_
      cases hchange with
      | plantStub name hraw => exact .plantStub name (hpq _ _ (.plantStub ..) (.plantStub ..) hraw)
      | insert name hdraft =>
          exact .insert name (hdraft.imp fun v w hv hw => hpq v w (.insert name hv) (.insert name hw))
      | setSlot name kind hvw =>
          exact .setSlot name kind (hpq _ _ (.setSlot ..) (.setSlot ..) hvw)
      | clearSlot name kind => exact .clearSlot name kind
      | openSlots name => exact .openSlots name
      | erase name => exact .erase name
  | replace htable =>
      exact .replace (htable.imp fun v w hv hw => hpq v w (.replace hv) (.replace hw))

/-- Responses stay paired under another pairing that pairs the values that they tell. -/
theorem Response.Paired.imp {response response' : Response} (h : response.Paired p response')
    (hpq : ∀ v w, response.Tells v → response'.Tells w → v.Paired p w → v.Paired q w) :
    response.Paired q response' := by
  cases h with
  | reply hreply =>
      refine .reply ?_
      cases hreply with
      | done => exact .done
      | answer holds => exact .answer holds
      | value hvalue =>
          cases hvalue with
          | none => exact .value .none
          | some hvw => exact .value (.some (hpq _ _ (.value _) (.value _) hvw))
      | entry hfound =>
          cases hfound with
          | none => exact .entry .none
          | some hentry =>
              exact .entry (.some (hentry.imp fun v w hv hw => hpq v w (.removed hv) (.removed hw)))
      | names names => exact .names names
      | @bindings found found' hfound =>
          refine .bindings (List.forall₂_iff_zip.mpr ⟨hfound.length_eq, ?_⟩)
          intro pair pair' hmem
          obtain ⟨hname, hvw⟩ := (List.forall₂_iff_zip.mp hfound).2 hmem
          obtain ⟨hpair, hpair'⟩ := List.of_mem_zip hmem
          exact ⟨hname, hpq _ _ (.bindings hpair) (.bindings hpair') hvw⟩
  | outcome houtcome =>
      refine .outcome ?_
      cases houtcome with
      | entry hfound =>
          cases hfound with
          | none => exact .entry .none
          | some hentry =>
              exact .entry (.some (hentry.imp fun v w hv hw => hpq v w (.entry hv) (.entry hw)))
      | content hvalue =>
          cases hvalue with
          | none => exact .content .none
          | some hvw => exact .content (.some (hpq _ _ (.content _) (.content _) hvw))
      | slots hslots =>
          exact .slots (hslots.imp fun v w _ hv hw => hpq v w (.slots hv) (.slots hw))
      | unbound => exact .unbound
      | onlyStub => exact .onlyStub
  | replaced => exact .replaced

/-- Answers stay paired under another pairing that pairs the values that they tell. -/
theorem Answer.Paired.imp {answer answer' : Except BindError Response}
    (h : Answer.Paired p answer answer')
    (hpq : ∀ response response' v w, answer = .ok response → answer' = .ok response' →
      response.Tells v → response'.Tells w → v.Paired p w → v.Paired q w) :
    Answer.Paired q answer answer' := by
  cases h with
  | ok hresponse => exact .ok (hresponse.imp fun v w => hpq _ _ v w rfl rfl)
  | error e => exact .error e

end Requests

end Bindery
