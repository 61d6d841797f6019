/-
Equality and identity are laws to themselves but for a NaN.

Both are symmetric and transitive, identity is the finer of the two, and the only value
that differs from its own copy is a floating point NaN.  A cell equals itself whatever
it holds, a NaN included, since it is compared by its handle first.

Identity mixes handles and numbers, and zero is the same number with either sign.  So
transitivity comes down to what identical values have in common: they are the same value
or they are both numbers, and a number agrees with nothing but a number.
-/
import Bindery.Entry
import Bindery.Proofs.Heap.Agreement

namespace Bindery

/-! ### Numbers -/

namespace Binary64

variable {x y z : Binary64}

theorem equal_self (x : Binary64) : x.equal x = !x.isNaN := by
  simp [equal]

theorem equal_comm (x y : Binary64) : x.equal y = y.equal x := by
  unfold equal
  rw [Bool.beq_comm, Bool.and_comm x.isZero, Bool.and_comm (!x.isNaN)]

theorem equal_trans (hxy : x.equal y = true) (hyz : y.equal z = true) : x.equal z = true := by
  unfold equal at hxy hyz ⊢
  simp only [Bool.and_eq_true, Bool.or_eq_true, beq_iff_eq] at hxy hyz ⊢
  obtain ⟨⟨hx, -⟩, hxy⟩ := hxy
  obtain ⟨⟨-, hz⟩, hyz⟩ := hyz
  refine ⟨⟨hx, hz⟩, ?_⟩
  have hzero : ∀ {u v : Binary64}, u.bits = v.bits → u.isZero = v.isZero := by
    intro u v hbits
    obtain rfl : u = v := congrArg Binary64.mk hbits
    rfl
  rcases hxy with hxy | ⟨hx0, hy0⟩
  · rcases hyz with hyz | ⟨hy0, hz0⟩
    · exact Or.inl (hxy.trans hyz)
    · exact Or.inr ⟨(hzero hxy).trans hy0, hz0⟩
  · rcases hyz with hyz | ⟨-, hz0⟩
    · exact Or.inr ⟨hx0, (hzero hyz).symm.trans hy0⟩
    · exact Or.inr ⟨hx0, hz0⟩

end Binary64

/-! ### Identity -/

namespace Value

variable {a b c : Value}

/-- A value is a NaN, and does not only hold one. -/
def isNaN : Value → Bool
  | float x => x.isNaN
  | _ => false

theorem same_self (a : Value) : a.same a = !a.isNaN := by
  cases a <;> simp [same, isNaN, Binary64.equal_self]

theorem same_comm (a b : Value) : a.same b = b.same a := by
  cases a <;> cases b <;> simp [same, Binary64.equal_comm, eq_comm]

/-- Identical values are one value, or they are both numbers. -/
theorem same_cases (hsame : a.same b = true) :
    a = b ∨ ∃ x y, a = float x ∧ b = float y ∧ x.equal y = true := by
  cases a <;> cases b <;> simp_all [same]

theorem same_trans (hab : a.same b = true) (hbc : b.same c = true) : a.same c = true := by
  rcases same_cases hab with rfl | ⟨x, y, rfl, rfl, hxy⟩
  · exact hbc
  · rcases same_cases hbc with rfl | ⟨y', z, hy, rfl, hyz⟩
    · exact hab
    · cases hy
      exact Binary64.equal_trans hxy hyz

/-- What is identical to a value that is no number is that value. -/
theorem eq_of_same (hsame : a.same b = true) (ha : ∀ x, a ≠ float x) : b = a := by
  rcases same_cases hsame with rfl | ⟨x, -, hx, -⟩
  · rfl
  · exact absurd hx (ha x)

end Value

namespace Heap

variable {h : Heap} {a b : Value}

/-! ### Equality -/

/-- Agreement on the ground of identity passes from one value to the next. -/
theorem agree_trans (hab : h.Agree Same a b) : ∀ c, h.Agree Same b c → h.Agree Same a c := by
  induction hab with
  | @base a b hsame =>
      intro c hbc
      rcases Value.same_cases hsame with rfl | ⟨x, y, rfl, rfl, -⟩
      · exact hbc
      · cases hbc with
        | base hsame' => exact .base (Value.same_trans hsame hsame')
  | @refs r s hagree ih =>
      intro c hbc
      cases hbc with
      | base hsame =>
          rw [Value.eq_of_same hsame nofun]
          exact .refs hagree
      | refs hagree' => exact .refs (ih _ hagree')
  | @sequences s t hsize hitems ih =>
      intro c hbc
      cases hbc with
      | base hsame =>
          rw [Value.eq_of_same hsame nofun]
          exact .sequences hsize hitems
      | sequences hsize' hitems' =>
          refine .sequences (hsize.trans hsize') ?_
          intro i v w hv hw
          -- the item between the two is there because the sizes agree
          obtain ⟨hi, -⟩ := Array.getElem?_eq_some_iff.mp hv
          have hu := Array.getElem?_eq_getElem (hsize ▸ hi)
          exact ih i v _ hv hu w (hitems' i _ w hu hw)
  | @mappings m n hkeys hvalues ih =>
      intro c hbc
      cases hbc with
      | base hsame =>
          rw [Value.eq_of_same hsame nofun]
          exact .mappings hkeys hvalues
      | mappings hkeys' hvalues' =>
          refine .mappings (hkeys.trans hkeys') ?_
          intro key v w hv hw
          have hkey : key ∈ (h.pairs n).keys := by
            rw [← hkeys, Dict.mem_keys, hv]
            rfl
          obtain ⟨u, hu⟩ := Option.isSome_iff_exists.mp ((Dict.mem_keys _ _).mp hkey)
          exact ih key v u hv hu w (hvalues' key u w hu hw)

theorem equal_of_same (h : Heap) (hsame : a.same b = true) : h.equal a b = true :=
  equalWithin_of_same hsame _

theorem equal_self_iff (h : Heap) (a : Value) : h.equal a a = true ↔ a.isNaN = false := by
  cases a with
  | float x =>
      have hfloat : h.equal (.float x) (.float x) = x.equal x := Bool.or_false _
      rw [hfloat, Binary64.equal_self, Bool.not_eq_true']
      rfl
  | _ => exact iff_of_true (h.equal_of_same (Value.same_self _)) rfl

end Heap

/-- A value is in an entry: in one of its slots, or as the value that its stub is made of. -/
def Entry.Holds : Entry → Value → Prop
  | bindings slots, v => ∃ kind, slots.get kind = some v
  | stub raw, v => v = raw

/-- An entry equals its copy unless it holds a NaN. -/
theorem Heap.equalEntries_self_iff (h : Heap) (entry : Entry) :
    h.equalEntries entry entry = true ↔ ∀ v, entry.Holds v → v.isNaN = false := by
  cases entry with
  | stub raw =>
      simp only [equalEntries, Entry.Holds, forall_eq]
      exact h.equal_self_iff raw
  | bindings slots =>
      simp only [equalEntries, List.all_eq_true, Kind.mem_all, true_imp_iff, Entry.Holds,
        forall_exists_index]
      rw [forall_comm]
      refine forall_congr' fun kind => ?_
      cases slots.get kind with
      | none => simp [equalContents]
      | some v => simpa [equalContents] using h.equal_self_iff v

/--
**Laws of equality and identity.**  In an acyclic heap equality is symmetric and
transitive, and a value equals its copy unless it is itself a NaN.  Identity is symmetric
and transitive, identical values are equal, and a value is identical to its copy unless
it is a NaN.  An entry equals its copy unless it holds a NaN.
-/
theorem equality_laws {h : Heap} (acyclic : h.Acyclic) :
    (∀ a b, h.equal a b = h.equal b a) ∧
    (∀ a b c, h.equal a b = true → h.equal b c = true → h.equal a c = true) ∧
    (∀ a, h.equal a a = true ↔ a.isNaN = false) ∧
    (∀ a b : Value, a.same b = b.same a) ∧
    (∀ a b c : Value, a.same b = true → b.same c = true → a.same c = true) ∧
    (∀ a b : Value, a.same b = true → h.equal a b = true) ∧
    (∀ a : Value, a.same a = true ↔ a.isNaN = false) ∧
    ∀ entry, h.equalEntries entry entry = true ↔ ∀ v, entry.Holds v → v.isNaN = false := by
  have hsymm : ∀ a b, h.Agree Heap.Same a b → h.Agree Heap.Same b a := by
    intro a b hagree
    exact hagree.symm fun v w hsame => (Value.same_comm w v).trans hsame
  refine ⟨?_, ?_, h.equal_self_iff, Value.same_comm, fun _ _ _ => Value.same_trans,
    fun _ _ => h.equal_of_same, ?_, h.equalEntries_self_iff⟩
  · intro a b
    rw [Bool.eq_iff_iff, Heap.equal_iff_agree acyclic, Heap.equal_iff_agree acyclic]
    exact ⟨hsymm a b, hsymm b a⟩
  · intro a b c
    rw [Heap.equal_iff_agree acyclic, Heap.equal_iff_agree acyclic, Heap.equal_iff_agree acyclic]
    exact fun hab hbc => Heap.agree_trans hab c hbc
  · intro a
    rw [Value.same_self, Bool.not_eq_true']

/-- A heap of one cell, a sequence that holds a NaN. -/
def Heap.withNaN : Heap :=
  { sequences := #[#[.float ⟨0x7FF8000000000000⟩]] }

theorem Heap.acyclic_withNaN : Heap.withNaN.Acyclic := by
  refine acyclic_of_flat ?_
  intro v w hcontains
  obtain rfl : w = .float ⟨0x7FF8000000000000⟩ := by simpa [withNaN] using hcontains.held
  rfl

/-- The NaN differs from itself, but the sequence that holds it does not, nor does a stub of it. -/
theorem sequence_of_nan_equals_itself :
    Heap.withNaN.Acyclic ∧
      Heap.withNaN.equal (.float ⟨0x7FF8000000000000⟩) (.float ⟨0x7FF8000000000000⟩) = false ∧
      Heap.withNaN.equal (.sequence ⟨0⟩) (.sequence ⟨0⟩) = true ∧
      Heap.withNaN.equalEntries (.stub (.sequence ⟨0⟩)) (.stub (.sequence ⟨0⟩)) = true := by
  obtain ⟨-, -, hself, -, -, -, -, hentry⟩ := equality_laws Heap.acyclic_withNaN
  refine ⟨Heap.acyclic_withNaN, ?_, (hself _).mpr rfl, (hentry _).mpr ?_⟩
  · rw [Bool.eq_false_iff]
    intro hequal
    exact absurd ((hself _).mp hequal) (by decide)
  · intro v hv
    obtain rfl : v = .sequence ⟨0⟩ := hv
    rfl

end Bindery
