/-
What a finite map from texts holds after a change, and the order it is read out in.

The library states both by comparing keys.  Comparing texts decides whether they are
equal and which is the lesser, so here both are said of the texts themselves.

Two maps that are read out side by side agree pair by pair exactly when they have the
same keys and agree on each, since either order of reading is the order of the keys.
-/
import Bindery.Dict
import Bindery.Proofs.Text.ByteOrder
import Mathlib.Data.List.Forall2

namespace Bindery.Dict

variable {α : Type} (d : Dict α)

theorem getElem?_insert (key : String) (a : α) (name : String) :
    (d.insert key a)[name]? = if name = key then some a else d[name]? := by
  rw [Std.ExtTreeMap.getElem?_insert]
  by_cases h : name = key
  · simp [h]
  · rw [if_neg h, if_neg]
    simpa using fun e => h e.symm

theorem getElem?_erase (key name : String) :
    (d.erase key)[name]? = if name = key then none else d[name]? := by
  rw [Std.ExtTreeMap.getElem?_erase]
  by_cases h : name = key
  · simp [h]
  · rw [if_neg h, if_neg]
    simpa using fun e => h e.symm

theorem contains_eq (name : String) : d.contains name = d[name]?.isSome :=
  Std.ExtTreeMap.contains_eq_isSome_getElem?

theorem mem_keys (name : String) : name ∈ d.keys ↔ d[name]?.isSome = true := by
  rw [Std.ExtTreeMap.mem_keys, Std.ExtTreeMap.mem_iff_isSome_getElem?]

/-- A map is read out in the order of the bytes of its keys. -/
theorem keys_ascending : d.keys.Pairwise fun a b => Text.bytes a < Text.bytes b := by
  refine Std.ExtTreeMap.ordered_keys.imp ?_
  intro a b h
  exact Text.bytes_lt (compareOfLessAndEq_eq_lt.mp h)

/-! ### Comparing maps -/

/-- Lists of pairs agree pair by pair when they have the same keys and agree key by key. -/
theorem forall₂_pairs {R : α → α → Prop} :
    ∀ {l m : List (String × α)}, (l.map Prod.fst).Nodup →
      (List.Forall₂ (fun p q => p.1 = q.1 ∧ R p.2 q.2) l m ↔
        l.map Prod.fst = m.map Prod.fst ∧
          ∀ key v w, (key, v) ∈ l → (key, w) ∈ m → R v w) := by
  intro l
  induction l with
  | nil => intro m _; cases m <;> simp
  | cons p rest ih =>
      intro m hnodup
      cases m with
      | nil => simp
      | cons q rest' =>
          obtain ⟨hfresh, hrest⟩ := List.nodup_cons.mp hnodup
          rw [List.forall₂_cons, ih hrest]
          constructor
          · intro h
            obtain ⟨⟨hkey, hvalue⟩, hkeys, hvalues⟩ := h
            have hfresh' : q.1 ∉ rest'.map Prod.fst := by rw [← hkey, ← hkeys]; exact hfresh
            refine ⟨by simp [hkey, hkeys], ?_⟩
            intro key v w hv hw
            rcases List.mem_cons.mp hv with rfl | hv
            · rcases List.mem_cons.mp hw with rfl | hw
              · exact hvalue
              · have hkey' : key = q.1 := hkey
                exact absurd (List.mem_map_of_mem (f := Prod.fst) hw) (hkey' ▸ hfresh')
            · rcases List.mem_cons.mp hw with rfl | hw
              · have hkey' : p.1 = key := hkey
                exact absurd (List.mem_map_of_mem (f := Prod.fst) hv) (hkey' ▸ hfresh)
              · exact hvalues key v w hv hw
          · intro h
            obtain ⟨hkeys, hvalues⟩ := h
            simp only [List.map_cons, List.cons.injEq] at hkeys
            refine ⟨⟨hkeys.1, hvalues p.1 p.2 q.2 (by simp) (by simp [hkeys.1])⟩, hkeys.2, ?_⟩
            intro key v w hv hw
            exact hvalues key v w (by simp [hv]) (by simp [hw])

/-- Maps agree pair by pair in the order of their keys when they agree key by key. -/
theorem forall₂_toList {e : Dict α} {R : α → α → Prop} :
    List.Forall₂ (fun p q => p.1 = q.1 ∧ R p.2 q.2) d.toList e.toList ↔
      d.keys = e.keys ∧ ∀ (key : String) (v w : α), d[key]? = some v → e[key]? = some w → R v w := by
  have hnodup : (d.toList.map Prod.fst).Nodup := by
    rw [Std.ExtTreeMap.map_fst_toList_eq_keys]
    exact Std.ExtTreeMap.nodup_keys
  rw [forall₂_pairs hnodup]
  simp only [Std.ExtTreeMap.map_fst_toList_eq_keys,
    Std.ExtTreeMap.mem_toList_iff_getElem?_eq_some]

end Bindery.Dict

namespace Bindery

/-! ### Maps that are related -/

/-- What is related is there on both sides or on neither. -/
theorem rel_cases {α β : Type} {R : α → β → Prop} {a? : Option α} {b? : Option β}
    (h : Option.Rel R a? b?) :
    (a? = none ∧ b? = none) ∨ ∃ a b, a? = some a ∧ b? = some b ∧ R a b := by
  cases h with
  | none => exact Or.inl ⟨rfl, rfl⟩
  | some h => exact Or.inr ⟨_, _, rfl, rfl, h⟩

/-- Two maps have the same keys, and what they hold under each is related. -/
def Dict.Rel {α : Type} (R : α → α → Prop) (d e : Dict α) : Prop :=
  ∀ key : String, Option.Rel R d[key]? e[key]?

namespace Dict.Rel

variable {α : Type} {R : α → α → Prop} {d e : Dict α}

theorem refl (hR : ∀ a, R a a) (d : Dict α) : Rel R d d := by
  intro key
  cases d[key]? with
  | none => exact .none
  | some a => exact .some (hR a)

theorem insert (h : Rel R d e) (key : String) {a b : α} (hab : R a b) :
    Rel R (d.insert key a) (e.insert key b) := by
  intro other
  rw [Dict.getElem?_insert, Dict.getElem?_insert]
  split
  · exact .some hab
  · exact h other

theorem erase (h : Rel R d e) (key : String) : Rel R (d.erase key) (e.erase key) := by
  intro other
  rw [Dict.getElem?_erase, Dict.getElem?_erase]
  split
  · exact .none
  · exact h other

theorem keys (h : Rel R d e) : d.keys = e.keys := by
  have hbare : d.map (fun _ _ => ()) = e.map (fun _ _ => ()) := by
    apply Std.ExtTreeMap.ext_getElem?
    intro key
    rw [Std.ExtTreeMap.getElem?_map, Std.ExtTreeMap.getElem?_map]
    rcases rel_cases (h key) with ⟨hd, he⟩ | ⟨a, b, hd, he, -⟩
    · rw [hd, he]
    · rw [hd, he]
      rfl
  have hkeys := congrArg Std.ExtTreeMap.keys hbare
  rwa [Std.ExtTreeMap.keys_map, Std.ExtTreeMap.keys_map] at hkeys

end Dict.Rel

end Bindery
