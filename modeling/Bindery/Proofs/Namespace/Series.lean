/-
A namespace is what was asked of it.

A series of requests is asked of one namespace, one after the other.  Between two of them
anything may happen elsewhere, so that the heap has grown and cells have changed; but the
namespace is then as the request before left it.

Two series of the same requests, of namespaces that held the same to begin with, come to the
same.  The cells that corresponding requests make are paired in the order they are made in, and
all other cells may be paired in any way, one to one; under this pairing the answers are the
same and so are the tables in the end.  So what a namespace holds depends on nothing but what
was asked of it, up to the names of cells.
-/
import Bindery.Proofs.Namespace.Paired

namespace Bindery

/-- Requests are asked of a namespace one after the other, from a heap on. -/
inductive Series : Heap → Namespace → List Asked → Namespace → Prop where
  | done (heap : Heap) (space : Namespace) : Series heap space [] space
  | asked {heap : Heap} {asked : Asked} {asks : List Asked} {last : Namespace}
      (grown : heap.Grows asked.before.world.heap) (closed : asked.before.Closed)
      (given : ∀ v, asked.request.Gives v → asked.before.world.heap.Has v)
      (rest : Series asked.after.world.heap asked.after.space asks last) :
      Series heap asked.before.space (asked :: asks) last

/-- A series may be begun earlier. -/
theorem Series.earlier {heap heap' : Heap} {space last : Namespace} {asks : List Asked}
    (hgrown : heap.Grows heap') (series : Series heap' space asks last) :
    Series heap space asks last := by
  cases series with
  | done => exact .done heap space
  | asked grown closed given rest => exact .asked (hgrown.trans grown) closed given rest

/-- The cells that two requests make are paired in the order they are made in. -/
def Asked.made (asked asked' : Asked) : Pairing := fun cell i j =>
  ∃ k, i = asked.before.world.heap.count cell + k ∧ j = asked'.before.world.heap.count cell + k ∧
    i < asked.after.world.heap.count cell

/-- A cell is one of those that a request makes. -/
def Asked.MakesCell (asked : Asked) (cell : Cell) (i : Nat) : Prop :=
  asked.before.world.heap.count cell ≤ i ∧ i < asked.after.world.heap.count cell

/-- Two requests make equally many cells of each sort. -/
def Asked.MakesAsMany (asked asked' : Asked) : Prop :=
  ∀ cell, asked.after.world.heap.count cell + asked'.before.world.heap.count cell
    = asked'.after.world.heap.count cell + asked.before.world.heap.count cell

/-- A pairing together with the cells that the requests of two series make. -/
def Pairing.over (p : Pairing) (asks asks' : List Asked) : Pairing := fun cell i j =>
  p cell i j ∨ ∃ pair ∈ asks.zip asks', pair.1.made pair.2 cell i j

/-- A pairing is of cells that none of some requests makes, on either side. -/
structure Pairing.Avoids (p : Pairing) (asks asks' : List Asked) : Prop where
  left : ∀ asked ∈ asks, ∀ cell i j, p cell i j → ¬ asked.MakesCell cell i
  right : ∀ asked ∈ asks', ∀ cell i j, p cell i j → ¬ asked.MakesCell cell j

/-- Two namespaces hold the same under a pairing, and the same is asked of them. -/
structure Pairing.Relates (p : Pairing) (space : Namespace) (asks : List Asked) (space' : Namespace)
    (asks' : List Asked) : Prop where
  oneToOne : p.OneToOne
  avoids : p.Avoids asks asks'
  ident : space.ident = space'.ident
  table : space.table.Paired p (fun _ => True) space'.table
  requests : List.Forall₂
    (fun asked asked' => asked.request.Paired (p.over asks asks') asked'.request) asks asks'

namespace Series

variable {heap heap' : Heap} {space space' last last' : Namespace} {asks asks' : List Asked}

/-! ### The same requests -/

/-- The same requests make as many cells, are answered in the same way and leave the same. -/
theorem paired {q : Pairing} (series : Series heap space asks last)
    (series' : Series heap' space' asks' last')
    (hmade : ∀ pair ∈ asks.zip asks', ∀ cell i j, pair.1.made pair.2 cell i j → q cell i j)
    (hident : space.ident = space'.ident)
    (htable : space.table.Paired q (fun _ => True) space'.table)
    (hrequests : List.Forall₂ (fun asked asked' => asked.request.Paired q asked'.request) asks asks') :
    List.Forall₂ (fun asked asked' => asked.MakesAsMany asked' ∧
      Answer.Paired q asked.result asked'.result) asks asks' ∧
    last.table.Paired q (fun _ => True) last'.table := by
  induction series generalizing heap' space' asks' with
  | done heap space =>
      cases hrequests
      cases series'
      exact ⟨.nil, htable⟩
  | @asked heap asked asks last grown closed given rest ih =>
      cases hrequests with
      | @cons _ asked' _ asks' hrequest hrequests =>
          cases series' with
          | asked grown' closed' given' rest' =>
              have hduring {cell : Cell} {i j : Nat}
                  (h : q.during asked.before.world.heap asked'.before.world.heap
                    asked.after.world.heap cell i j) : q cell i j := by
                rcases h with h | h
                · exact h
                · exact hmade (asked, asked') (by simp) cell i j h
              obtain ⟨hcount, hanswer, hafter⟩ := Asked.paired closed closed' given given' hident
                htable hrequest asked.request.within_all
              have hident' : asked.after.space.ident = asked'.after.space.ident := by
                rw [Asked.space_after, Asked.space_after]
                exact hident
              obtain ⟨hrest, hlast⟩ := ih rest'
                (fun pair hpair => hmade pair (List.mem_cons_of_mem _ hpair)) hident'
                (hafter.imp fun v w _ _ hvw => hvw.imp fun cell i j _ _ => hduring) hrequests
              refine ⟨.cons ⟨hcount, ?_⟩ hrest, hlast⟩
              exact hanswer.imp fun _ _ v w _ _ _ _ hvw => hvw.imp fun cell i j _ _ => hduring

/-! ### The cells that are made -/

/-- The cells that are made in a series come after all that were there. -/
theorem le_of_made (series : Series heap space asks last) (series' : Series heap' space' asks' last')
    {pair : Asked × Asked} (hpair : pair ∈ asks.zip asks') {cell : Cell} {i j : Nat}
    (hmade : pair.1.made pair.2 cell i j) : heap.count cell ≤ i ∧ heap'.count cell ≤ j := by
  induction series generalizing heap' space' asks' with
  | done => simp at hpair
  | @asked heap asked asks last grown closed given rest ih =>
      cases series' with
      | done => simp at hpair
      | @asked _ asked' asks' _ grown' closed' given' rest' =>
          have hle := grown.count cell
          have hle' := grown'.count cell
          rcases List.mem_cons.mp hpair with rfl | hpair
          · obtain ⟨k, rfl, rfl, -⟩ := hmade
            exact ⟨Nat.le_trans hle (Nat.le_add_right _ _), Nat.le_trans hle' (Nat.le_add_right _ _)⟩
          · obtain ⟨hi, hj⟩ := ih rest' hpair
            have hafter := (Asked.extends asked).count cell
            have hafter' := (Asked.extends asked').count cell
            exact ⟨Nat.le_trans hle (Nat.le_trans hafter hi),
              Nat.le_trans hle' (Nat.le_trans hafter' hj)⟩

/-- The cells that two series make are paired one to one, if as many are made by each request. -/
theorem oneToOne_made (series : Series heap space asks last)
    (series' : Series heap' space' asks' last')
    (hmany : List.Forall₂ Asked.MakesAsMany asks asks') :
    Pairing.OneToOne fun cell i j => ∃ pair ∈ asks.zip asks', pair.1.made pair.2 cell i j := by
  induction series generalizing heap' space' asks' with
  | done => exact ⟨by simp, by simp⟩
  | @asked heap asked asks last grown closed given rest ih =>
      cases hmany with
      | @cons _ asked' _ asks' hcount hmany =>
          cases series' with
          | asked grown' closed' given' rest' =>
              have hrest := ih rest' hmany
              -- What is made by a later request comes after what this one makes, on both sides.
              have hlater {pair : Asked × Asked} (hpair : pair ∈ asks.zip asks') {cell : Cell}
                  {i j : Nat} (h : pair.1.made pair.2 cell i j) :
                  asked.after.world.heap.count cell ≤ i ∧ asked'.after.world.heap.count cell ≤ j :=
                le_of_made rest rest' hpair h
              refine ⟨?_, ?_⟩
              · rintro cell i i' j ⟨pair, hpair, h⟩ ⟨pair', hpair', h'⟩
                have hcells := hcount cell
                rcases List.mem_cons.mp hpair with rfl | hpair <;>
                  rcases List.mem_cons.mp hpair' with rfl | hpair'
                · obtain ⟨k, hi, hj, -⟩ := h
                  obtain ⟨k', hi', hj', -⟩ := h'
                  simp only at hi hj hi' hj'
                  omega
                · have hafter := (hlater hpair' h').2
                  obtain ⟨k, hi, hj, hlt⟩ := h
                  simp only at hi hj hlt
                  omega
                · have hafter := (hlater hpair h).2
                  obtain ⟨k, hi, hj, hlt⟩ := h'
                  simp only at hi hj hlt
                  omega
                · exact hrest.left ⟨pair, hpair, h⟩ ⟨pair', hpair', h'⟩
              · rintro cell i j j' ⟨pair, hpair, h⟩ ⟨pair', hpair', h'⟩
                rcases List.mem_cons.mp hpair with rfl | hpair <;>
                  rcases List.mem_cons.mp hpair' with rfl | hpair'
                · obtain ⟨k, hi, hj, -⟩ := h
                  obtain ⟨k', hi', hj', -⟩ := h'
                  simp only at hi hj hi' hj'
                  omega
                · have hafter := (hlater hpair' h').1
                  obtain ⟨k, hi, hj, hlt⟩ := h
                  simp only at hi hj hlt
                  omega
                · have hafter := (hlater hpair h).1
                  obtain ⟨k, hi, hj, hlt⟩ := h'
                  simp only at hi hj hlt
                  omega
                · exact hrest.right ⟨pair, hpair, h⟩ ⟨pair', hpair', h'⟩

/-- What is paired of the cells that two requests make is made by both. -/
theorem makesCell_of_made {asked asked' : Asked} (hmany : asked.MakesAsMany asked') {cell : Cell}
    {i j : Nat} (h : asked.made asked' cell i j) :
    asked.MakesCell cell i ∧ asked'.MakesCell cell j := by
  have hcells := hmany cell
  obtain ⟨k, hi, hj, hlt⟩ := h
  exact ⟨⟨by omega, hlt⟩, by omega, by omega⟩

/-- The pairing of two series is one to one if that of the other cells is. -/
theorem oneToOne_over {p : Pairing} (series : Series heap space asks last)
    (series' : Series heap' space' asks' last')
    (hmany : List.Forall₂ Asked.MakesAsMany asks asks') (hp : p.OneToOne)
    (havoids : p.Avoids asks asks') : (p.over asks asks').OneToOne := by
  have hmade := series.oneToOne_made series' hmany
  have hcells {pair : Asked × Asked} (hpair : pair ∈ asks.zip asks') {cell : Cell} {i j : Nat}
      (h : pair.1.made pair.2 cell i j) :
      (∀ j', ¬ p cell i j') ∧ ∀ i', ¬ p cell i' j := by
    obtain ⟨hleft, hright⟩ := List.of_mem_zip hpair
    obtain ⟨hi, hj⟩ := makesCell_of_made ((List.forall₂_iff_zip.mp hmany).2 hpair) h
    exact ⟨fun j' h' => havoids.left pair.1 hleft cell i j' h' hi,
      fun i' h' => havoids.right pair.2 hright cell i' j h' hj⟩
  refine ⟨?_, ?_⟩
  · rintro cell i i' j (h | ⟨pair, hpair, h⟩) (h' | ⟨pair', hpair', h'⟩)
    · exact hp.left h h'
    · exact absurd h ((hcells hpair' h').2 i)
    · exact absurd h' ((hcells hpair h).2 i')
    · exact hmade.left ⟨pair, hpair, h⟩ ⟨pair', hpair', h'⟩
  · rintro cell i j j' (h | ⟨pair, hpair, h⟩) (h' | ⟨pair', hpair', h'⟩)
    · exact hp.right h h'
    · exact absurd h ((hcells hpair' h').1 j)
    · exact absurd h' ((hcells hpair h).1 j')
    · exact hmade.right ⟨pair, hpair, h⟩ ⟨pair', hpair', h'⟩

/--
**The same requests come to the same.**  Of namespaces that hold the same, the same requests make
as many cells, in whatever worlds they are asked.  With these paired in their order the pairing is
one to one, the answers are the same and so are the tables.
-/
theorem same {p : Pairing} (series : Series heap space asks last)
    (series' : Series heap' space' asks' last') (h : p.Relates space asks space' asks') :
    (p.over asks asks').OneToOne ∧
      List.Forall₂ (fun asked asked' => Answer.Paired (p.over asks asks') asked.result asked'.result)
        asks asks' ∧
      last.table.Paired (p.over asks asks') (fun _ => True) last'.table := by
  have htable := h.table.imp fun v w _ _ hvw =>
    hvw.imp (q := p.over asks asks') fun cell i j _ _ h => Or.inl h
  obtain ⟨hall, hlast⟩ := series.paired series' (fun pair hpair cell i j h => Or.inr ⟨pair, hpair, h⟩)
    h.ident htable h.requests
  have hmany : List.Forall₂ Asked.MakesAsMany asks asks' := hall.imp fun _ _ h => h.1
  exact ⟨series.oneToOne_over series' hmany h.oneToOne h.avoids, hall.imp fun _ _ h => h.2, hlast⟩

end Series

end Bindery
