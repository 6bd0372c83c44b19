import Mathlib.Data.List.Basic

/-!
# Runs of a labelled system

A system that takes steps with labels, and the lists of labels of its runs.  An invariant that every
step keeps holds after every run (`Trace.invariant`), and what a simulation relates takes the same
labels (`Trace.simulates`).
-/

namespace Labelled

variable {σ τ ℓ : Type*} {step : σ → ℓ → σ → Prop} {s s' s'' : σ} {l : ℓ} {ls ls' : List ℓ}

/-- The system goes from a state to another one by steps with these labels. -/
inductive Trace (step : σ → ℓ → σ → Prop) : σ → List ℓ → σ → Prop
  | nil (s : σ) : Trace step s [] s
  | cons {s s' s'' : σ} {l : ℓ} {ls : List ℓ} (hstep : step s l s') (hrest : Trace step s' ls s'') :
      Trace step s (l :: ls) s''

lemma Trace.invariant {I : σ → Prop} (h : Trace step s ls s')
    (hstep : ∀ s l s', I s → step s l s' → I s') (hs : I s) : I s' := by
  induction h with
  | nil s => exact hs
  | cons hfirst _ ih => exact ih (hstep _ _ _ hs hfirst)

/-- **Simulation.**  If each step of a system is one of another system with the same label, so is
each run. -/
lemma Trace.simulates {step' : τ → ℓ → τ → Prop} {R : τ → σ → Prop}
    (hsim : ∀ t s l s', R t s → step s l s' → ∃ t', step' t l t' ∧ R t' s') (h : Trace step s ls s')
    {t : τ} (ht : R t s) : ∃ t', Trace step' t ls t' ∧ R t' s' := by
  induction h generalizing t with
  | nil s => exact ⟨t, .nil t, ht⟩
  | cons hfirst _ ih =>
      obtain ⟨t₁, hstep, h₁⟩ := hsim _ _ _ _ ht hfirst
      obtain ⟨t₂, hrest, h₂⟩ := ih h₁
      exact ⟨t₂, .cons hstep hrest, h₂⟩

end Labelled
