/-
Two actions side by side.

Two actions keep abreast if, from states that are related, they come to states that are
related: both give results that are related, or both fail for the same reason.  Keeping
abreast goes through sequencing, so that of two long actions only the parts in which they
differ need to be looked at.
-/
namespace Bindery

variable {ε σ α β γ δ : Type}

/-- Two outcomes are related: both give results or both fail, for the same reason. -/
inductive Parallel (S : σ → σ → Prop) (R : α → β → Prop) :
    EStateM.Result ε σ α → EStateM.Result ε σ β → Prop where
  | ok {a : α} {b : β} {s t : σ} (result : R a b) (state : S s t) : Parallel S R (.ok a s) (.ok b t)
  | error (e : ε) {s t : σ} (state : S s t) : Parallel S R (.error e s) (.error e t)

/-- Related outcomes are two results or two failures. -/
theorem Parallel.cases {S : σ → σ → Prop} {R : α → β → Prop} {outcome : EStateM.Result ε σ α}
    {outcome' : EStateM.Result ε σ β} (h : Parallel S R outcome outcome') :
    (∃ a b s t, outcome = .ok a s ∧ outcome' = .ok b t ∧ R a b ∧ S s t) ∨
      ∃ e s t, outcome = .error e s ∧ outcome' = .error e t ∧ S s t := by
  cases h with
  | ok hresult hstate => exact Or.inl ⟨_, _, _, _, rfl, rfl, hresult, hstate⟩
  | error e hstate => exact Or.inr ⟨e, _, _, rfl, rfl, hstate⟩

/-- From related states two actions come to related outcomes. -/
def Abreast (S : σ → σ → Prop) (R : α → β → Prop) (act : EStateM ε σ α) (act' : EStateM ε σ β) :
    Prop :=
  ∀ s t, S s t → Parallel S R (act s) (act' t)

namespace Abreast

variable {S : σ → σ → Prop} {R : α → β → Prop} {Q : γ → δ → Prop}
  {act : EStateM ε σ α} {act' : EStateM ε σ β}

theorem pure {a : α} {b : β} (h : R a b) :
    Abreast S R (Pure.pure a : EStateM ε σ α) (Pure.pure b : EStateM ε σ β) :=
  fun _ _ hst => .ok h hst

theorem throw (e : ε) : Abreast S R (MonadExcept.throw e : EStateM ε σ α)
    (MonadExcept.throw e : EStateM ε σ β) :=
  fun _ _ hst => .error e hst

theorem get : Abreast S S (MonadState.get : EStateM ε σ σ) (MonadState.get : EStateM ε σ σ) :=
  fun _ _ hst => .ok hst hst

theorem modifyGet {f : σ → α × σ} {f' : σ → β × σ}
    (h : ∀ s t, S s t → R (f s).1 (f' t).1 ∧ S (f s).2 (f' t).2) :
    Abreast S R (MonadState.modifyGet f : EStateM ε σ α) (MonadState.modifyGet f') :=
  fun s t hst => .ok (h s t hst).1 (h s t hst).2

theorem modify {f f' : σ → σ} (h : ∀ s t, S s t → S (f s) (f' t)) :
    Abreast S Eq (modify f : EStateM ε σ PUnit) (modify f') :=
  modifyGet fun s t hst => ⟨rfl, h s t hst⟩

theorem bind {next : α → EStateM ε σ γ} {next' : β → EStateM ε σ δ} (h : Abreast S R act act')
    (hnext : ∀ a b, R a b → Abreast S Q (next a) (next' b)) :
    Abreast S Q (act >>= next) (act' >>= next') := by
  intro s t hst
  show Parallel S Q (EStateM.bind act next s) (EStateM.bind act' next' t)
  unfold EStateM.bind
  rcases (h s t hst).cases with ⟨a, b, s', t', hact, hact', hresult, hstate⟩ |
    ⟨e, s', t', hact, hact', hstate⟩
  · rw [hact, hact']
    exact hnext a b hresult s' t' hstate
  · rw [hact, hact']
    exact .error e hstate

theorem imp {R' : α → β → Prop} (h : Abreast S R act act') (hR : ∀ a b, R a b → R' a b) :
    Abreast S R' act act' := by
  intro s t hst
  rcases (h s t hst).cases with ⟨a, b, s', t', hact, hact', hresult, hstate⟩ |
    ⟨e, s', t', hact, hact', hstate⟩
  · rw [hact, hact']
    exact .ok (hR a b hresult) hstate
  · rw [hact, hact']
    exact .error e hstate

/-- An action that gives the same result in both runs goes on in the same way. -/
theorem bind_eq {β γ : Type} {act act' : EStateM ε σ β} {next next' : β → EStateM ε σ γ}
    {R : γ → γ → Prop} (h : Abreast S Eq act act') (hnext : ∀ b, Abreast S R (next b) (next' b)) :
    Abreast S R (act >>= next) (act' >>= next') := by
  refine h.bind ?_
  intro a b hab
  rw [hab]
  exact hnext b

theorem map {f : α → γ} {f' : β → δ} (h : Abreast S R act act') (hf : ∀ a b, R a b → Q (f a) (f' b)) :
    Abreast S Q (f <$> act) (f' <$> act') :=
  h.bind fun a b hab => pure (hf a b hab)

end Abreast

end Bindery
