/-
What reading a namespace leaves behind.

To read what a stub declares makes a callable, so a reading can change the heap; it
changes nothing else.  Where no name has a stub a reading changes nothing at all and
gives what the slots hold.
-/
import Bindery.Namespace.Read
import Bindery.Proofs.Namespace.Place

namespace Bindery.Scope

variable (s : Scope)

theorem read_scope (spec : Spec) (reading : Reading) :
    ∃ heap, (s.read spec reading).2 = s.setHeap heap :=
  ⟨_, rfl⟩

theorem lookup_eq (spec : Spec) :
    s.lookup spec = match s.table.reading? spec with
      | none => (none, s)
      | some reading => (some (s.read spec reading).1, (s.read spec reading).2) := by
  unfold lookup
  cases s.table.reading? spec <;> rfl

theorem lookup_scope (spec : Spec) : ∃ heap, (s.lookup spec).2 = s.setHeap heap := by
  rw [lookup_eq]
  cases s.table.reading? spec with
  | none => exact ⟨s.world.heap, rfl⟩
  | some reading => exact s.read_scope spec reading

theorem readAll_scope (found : List (Spec × Reading)) :
    ∃ heap, (s.readAll found).2 = s.setHeap heap := by
  induction found generalizing s with
  | nil => exact ⟨s.world.heap, rfl⟩
  | cons pair rest ih =>
      obtain ⟨heap, hread⟩ := s.read_scope pair.1 pair.2
      obtain ⟨heap', hrest⟩ := ih (s.read pair.1 pair.2).2
      refine ⟨heap', ?_⟩
      show ((s.read pair.1 pair.2).2.readAll rest).2 = _
      rw [hrest, hread]
      rfl

/-- What is read keeps its place in the list. -/
theorem map_fst_readAll (found : List (Spec × Reading)) :
    (s.readAll found).1.map Prod.fst = found.map Prod.fst := by
  induction found generalizing s with
  | nil => rfl
  | cons pair rest ih =>
      show pair.1 :: ((s.read pair.1 pair.2).2.readAll rest).1.map Prod.fst = _
      rw [ih]
      rfl

/-- What is found for some specs is found for each of them. -/
theorem fst_mem_of_readAll {table : SymbolTable} {specs : List Spec} {pair : Spec × Value}
    (hpair : pair ∈ (s.readAll (table.readings specs)).1) : pair.1 ∈ specs := by
  have hmem : pair.1 ∈ (s.readAll (table.readings specs)).1.map Prod.fst :=
    List.mem_map_of_mem hpair
  rw [map_fst_readAll] at hmem
  obtain ⟨pair', hpair', heq⟩ := List.mem_map.mp hmem
  obtain ⟨spec, hspec, hmap⟩ := List.mem_filterMap.mp hpair'
  obtain ⟨reading, -, rfl⟩ := Option.map_eq_some_iff.mp hmap
  rw [← heq]
  exact hspec

/-- To read what slots hold changes nothing and gives what they hold. -/
theorem readAll_held (found : List (Spec × Value)) :
    s.readAll (found.map fun pair => (pair.1, .held pair.2)) = (found, s) := by
  induction found with
  | nil => rfl
  | cons pair rest ih =>
      have hread : s.read pair.1 (.held pair.2) = (pair.2, s) := rfl
      simp only [List.map_cons, readAll, hread, ih]

end Bindery.Scope
