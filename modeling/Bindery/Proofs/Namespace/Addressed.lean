/-
Every binding that is listed can be addressed.

Operations are asked of written specs, but some of what they do is done to specs that no
one wrote: a removal binds again whatever else has the name.  So it has to be seen that no
binding gets under a name it could not be addressed by.  There are two ways this could
happen.  An entry could have the empty name; and since streams have no tag, a stream could
have a name that begins with one, as the scalar `$$x` does.

Neither happens.  An entry of the empty name would have to come from an operation on that
name, and none that can be written makes one.  And a stream that is there was installed by
a step that was asked of its spec: what a removal binds again stood there before.
-/
import Bindery.Proofs.Namespace.Installed
import Bindery.Proofs.Namespace.Listing
import Bindery.Proofs.Spec

namespace Bindery

/-! ### What is installed is addressed -/

/-- What a step installs is addressed by what was written. -/
theorem Step.Installs.addressable {step : Step} {spec : Spec} {value : Value}
    (hinstalls : step.Installs spec value) : spec.Addressable := by
  cases hinstalls with
  | given asked addressed => exact (Spec.of_parse addressed).2
  | default asked addressed => exact (Spec.of_parse addressed).2
  | vivified asked addressed => exact (Spec.of_parse addressed).2

theorem Stands.addressable {steps : List Step} {spec : Spec} {value : Value}
    (hstands : Stands steps spec value) : spec.Addressable := by
  obtain ⟨_, _, _, -, hinstalls, -⟩ := hstands
  exact hinstalls.addressable

/-! ### The empty name -/

namespace Scope

variable {s : Scope}

/-- What is asked of the empty name can only be to remove it. -/
theorem removeAll_of_empty_name {operation : Operation Value} (hname : operation.name? = some "") :
    operation = .removeAll "" := by
  have hparse {text : String} (h : (Spec.parse text).toOption.map Spec.name = some "") : False := by
    obtain ⟨spec, hp, hempty⟩ := parse_of_name h
    exact (Spec.of_parse hp).2.named hempty
  cases operation with
  | removeAll name => simpa [Operation.name?] using hname
  | names kind? => cases hname
  | bindings kind => cases hname
  | _ => exact (hparse hname).elim

/-- No step gives the empty name an entry. -/
theorem empty_name_after (h : s.table[""]? = none) (operation : Operation Value) :
    (Step.after ⟨s, operation⟩).table[""]? = none := by
  cases hname : operation.name? with
  | none => rw [table_after_of_no_name hname, h]
  | some other =>
      by_cases hempty : other = ""
      · subst hempty
        rw [removeAll_of_empty_name hname]
        show (s.table.erase "")[""]? = none
        rw [Dict.getElem?_erase, if_pos rfl]
      · rw [getElem?_after_of_ne hname (Ne.symm hempty), h]

end Scope

theorem Run.empty_name {s t : Scope} {steps : List Step} (h : s.table[""]? = none)
    (run : Run (fun _ => False) s steps t) : t.table[""]? = none := by
  induction run with
  | start => exact h
  | step _ operation ih => exact Scope.empty_name_after ih operation
  | edit _ edit he => exact he.elim
  | elsewhere _ world ih => exact ih

/-! ### What is listed -/

namespace Scope.Plain

variable {s : Scope} (h : s.Plain)
include h

/-- What is shown where no name has a stub is what a slot holds. -/
theorem held_of_shows {after : Heap} {spec : Spec} {value : Value}
    (hshows : s.Shows after spec value) : s.table.held spec = some value := by
  cases hshows with
  | held hentry hheld => simp [SymbolTable.held, SymbolTable.slots, hentry, Entry.slots?, hheld]
  | declared hentry =>
      have hstub := h.noStub spec.name
      simp [SymbolTable.isStub, hentry, Entry.isStub] at hstub

/-- What is found under a name that is listed is what a read of its spec gives. -/
theorem result_find_of_found {text : String} {name : String} {kind : Kind} {value : Value}
    (hp : Spec.parse text = .ok ⟨name, kind⟩) (hfound : (name, value) ∈ s.found kind) :
    Step.result ⟨s, .find text⟩ = .ok (.value (some value)) := by
  rw [h.result_find hp, h.held_of_shows (found_shows hfound)]

end Scope.Plain

/-- What can be addressed and is listed is found by its written form. -/
theorem Scope.result_has_of_listed {s : Scope} {text name : String} {kind : Kind}
    (hp : Spec.parse text = .ok ⟨name, kind⟩) (hlisted : name ∈ s.table.names (some kind)) :
    Step.result ⟨s, .has text⟩ = .ok (.answer true) := by
  rw [Step.result_has, Scope.has_run, hp]
  show Except.ok (Reply.answer (s.table.has ⟨name, kind⟩)) = _
  rw [s.table.mem_names_some.mp hlisted]

/--
**Every binding that is listed can be addressed.**  In a namespace that began empty and was
never edited, whatever was asked of it and whatever failed, no listed name is empty and no
stream has a name that begins with a tag.  So the tag of a kind and a name that is listed
under it read as the spec of that binding: it is there, and a read gives what the listing
of its kind gives.
-/
theorem listed_are_addressed {ident : String} {debugger : DebuggerId} {space : Namespace}
    (hmake : Namespace.make ident debugger = .ok space) {world : World} {steps : List Step}
    {t : Scope} (run : Run (fun _ => False) ⟨space, world⟩ steps t) :
    (∃ listed, Step.result ⟨t, .names none⟩ = .ok (.names listed) ∧ ∀ name ∈ listed, name ≠ "") ∧
    (∀ (name : String) (slots : Slots) (value : Value), t.table[name]? = some (.bindings slots) →
      slots.get .stream = some value →
      ∀ c, name.toList.head? = some c → c ∉ ['$', '@', '%', '&']) ∧
    ∀ kind : Kind, ∃ listed found, Step.result ⟨t, .names (some kind)⟩ = .ok (.names listed) ∧
      Step.result ⟨t, .bindings kind⟩ = .ok (.bindings found) ∧
      ∀ name ∈ listed, Spec.parse (kind.tagText ++ name) = .ok ⟨name, kind⟩ ∧
        Step.result ⟨t, .has (kind.tagText ++ name)⟩ = .ok (.answer true) ∧
        (∃ value, (name, value) ∈ found) ∧
        ∀ value, (name, value) ∈ found →
          Step.result ⟨t, .find (kind.tagText ++ name)⟩ = .ok (.value (some value)) := by
  obtain ⟨hplain, hempty⟩ := Namespace.plain_make hmake world
  have hend : t.Plain := hplain.run run
  have hnamed : t.table[""]? = none := by
    refine run.empty_name ?_
    show space.table[""]? = none
    rw [Namespace.table_make hmake]
    simp
  have haddressable {spec : Spec} {value : Value} (hheld : t.table.held spec = some value) :
      spec.Addressable :=
    ((run.held_iff_stands hplain hempty spec value).mp hheld).addressable
  refine ⟨⟨_, rfl, ?_⟩, ?_, ?_⟩
  · intro name hname hnone
    obtain ⟨entry, hentry⟩ := t.table.mem_names_none.mp hname
    rw [hnone, hnamed] at hentry
    cases hentry
  · intro name slots value hentry hvalue c hc
    have hheld : t.table.held ⟨name, .stream⟩ = some value := by
      simp [SymbolTable.held, SymbolTable.slots, hentry, Entry.slots?, hvalue]
    exact Kind.ofTag?_eq_none_iff.mp ((haddressable hheld).untagged rfl c hc)
  · intro kind
    refine ⟨_, _, rfl, t.result_bindings kind, ?_⟩
    intro name hname
    obtain ⟨value, hfound⟩ := Scope.exists_found hname
    have hheld := hend.held_of_shows (Scope.found_shows hfound)
    have hp := Spec.parse_text (haddressable hheld)
    rw [Spec.text] at hp
    exact ⟨hp, Scope.result_has_of_listed hp hname, ⟨value, hfound⟩,
      fun value hvalue => hend.result_find_of_found hp hvalue⟩

/-- The scalar `$$x` is listed as `$x`, and is addressed again by its tag and that name. -/
theorem doubly_tagged_is_addressed :
    ∃ steps t, Run (fun _ => False) ⟨⟨"main", ∅, ⟨0⟩⟩, {}⟩ steps t ∧
      steps.map Step.operation = [.add "$$x" (some (.int 1)) {}, .add "x" none {}] ∧
      "$x" ∈ t.table.names (some .scalar) ∧
      Step.result ⟨t, .find "$$x"⟩ = .ok (.value (some (.int 1))) := by
  have run := (Run.start : Run (fun _ => False) ⟨⟨"main", ∅, ⟨0⟩⟩, {}⟩ [] _)
    |>.step (.add "$$x" (some (.int 1)) {}) |>.step (.add "x" none {})
  have hmake : Namespace.make "main" ⟨0⟩ = .ok ⟨"main", ∅, ⟨0⟩⟩ := rfl
  obtain ⟨-, -, hkinds⟩ := listed_are_addressed hmake run
  obtain ⟨listed, found, hnames, hfound, hall⟩ := hkinds .scalar
  have hlisted : "$x" ∈ listed := by
    cases hnames
    exact (SymbolTable.mem_names_some _).mpr rfl
  have hshown : ("$x", .int 1) ∈ found := by
    cases hfound
    exact List.mem_singleton.mpr rfl
  exact ⟨_, _, run, rfl, (SymbolTable.mem_names_some _).mpr rfl,
    (hall "$x" hlisted).2.2.2 _ hshown⟩

end Bindery
