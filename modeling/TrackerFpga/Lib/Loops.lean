import TrackerFpga.Lib.Interaction

/-!
# Loops of programs

`While env cond body v s v' s'` says that the loop `while (cond) body` can run from the state `s`,
with its variables `v`, to the state `s'`, where `cond` comes out false and leaves the variables
`v'`.  What every round keeps holds at the end (`While.invariant`), and a loop whose rounds decrease
a measure has a run (`exists_while`).
-/

namespace Interaction

variable {Op : Type} {Ans : Op → Type} {ν σ : Type}

/-- A run of `while (cond) body`. -/
inductive While (env : Env Op Ans σ) (cond : ν → Program Op Ans Bool)
    (body : ν → Program Op Ans ν) : ν → σ → ν → σ → Prop
  | leave {v : ν} {s s' : σ} : Exec env (cond v) s false s' → While env cond body v s v s'
  | again {v w v' : ν} {s t u s' : σ} : Exec env (cond v) s true t → Exec env (body v) t w u →
      While env cond body w u v' s' → While env cond body v s v' s'

variable {env : Env Op Ans σ} {cond : ν → Program Op Ans Bool} {body : ν → Program Op Ans ν}
  {v v' : ν} {s s' : σ}

/-- **The invariant rule.** -/
lemma While.invariant {I Q : ν → σ → Prop} (h : While env cond body v s v' s')
    (hround : ∀ v s t w u, I v s → Exec env (cond v) s true t → Exec env (body v) t w u → I w u)
    (hleave : ∀ v s s', I v s → Exec env (cond v) s false s' → Q v s') (hv : I v s) : Q v' s' := by
  induction h with
  | leave hcond => exact hleave _ _ _ hv hcond
  | again hcond hbody _ ih => exact ih (hround _ _ _ _ _ hv hcond hbody)

/-- **The termination rule.** -/
lemma exists_while {I Q : ν → σ → Prop} (μ : ν → σ → ℕ)
    (hstep : ∀ v s, I v s → (∃ s', Exec env (cond v) s false s' ∧ Q v s') ∨
      ∃ t w u, Exec env (cond v) s true t ∧ Exec env (body v) t w u ∧ I w u ∧ μ w u < μ v s)
    (hv : I v s) : ∃ v' s', While env cond body v s v' s' ∧ Q v' s' := by
  induction hμ : μ v s using Nat.strongRecOn generalizing v s with
  | ind m ih =>
      rcases hstep v s hv with ⟨s', hleave, hq⟩ | ⟨t, w, u, hcond, hbody, hw, hlt⟩
      · exact ⟨v, s', .leave hleave, hq⟩
      · obtain ⟨v', s', hrest, hq⟩ := ih (μ w u) (hμ ▸ hlt) hw rfl
        exact ⟨v', s', .again hcond hbody hrest, hq⟩

end Interaction
