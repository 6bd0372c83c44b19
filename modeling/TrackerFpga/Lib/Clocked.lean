import Mathlib.Order.Basic
import Mathlib.Tactic.Ring
import Mathlib.Data.Nat.Count

/-!
# Synchronous machines and their runs

A synchronous machine is a step function `step : ι → σ → σ`: the registers it holds in a
cycle and the inputs of that cycle give the registers of the next one.  `run step s inp t`
is what the registers hold in cycle `t` when cycle `0` starts in `s`.

What recurs in arguments about runs is packaged here once:

* an invariant that every cycle of an interval keeps holds throughout it (`invariant_between`);
* the samples that were taken of a signal are a list that grows at its end (`sampled`);
* the edges of a signal are cycles in which it is not what it was (`Rises`, `Falls`);
* a machine that decreases a measure until it reaches a goal reaches it
  (`exists_first_of_decreasing`).
-/

namespace Clocked

variable {ι σ : Type*}

/-- What the registers hold in each cycle of a run that starts in `s`. -/
def run (step : ι → σ → σ) (s : σ) (inp : ℕ → ι) : ℕ → σ
  | 0 => s
  | t + 1 => step (inp t) (run step s inp t)

section Run

variable (step : ι → σ → σ) (s : σ) (inp : ℕ → ι)

@[simp] lemma run_zero : run step s inp 0 = s := rfl

lemma run_succ (t : ℕ) : run step s inp (t + 1) = step (inp t) (run step s inp t) := rfl

end Run

/-- **The invariant rule.**  What holds in cycle `a` and is kept by every cycle before `b` holds
in every cycle up to `b`. -/
lemma invariant_between {P : ℕ → Prop} {a b t : ℕ} (ha : P a)
    (hstep : ∀ u, a ≤ u → u < b → P u → P (u + 1)) (hat : a ≤ t) (htb : t ≤ b) : P t := by
  induction t, hat using Nat.le_induction with
  | base => exact ha
  | succ t hat ih => exact hstep t hat htb (ih (Nat.le_of_lt htb))

/-! ## Samples of a signal -/

section Sampled

variable {α : Type*} (p : ℕ → Bool) (v : ℕ → α) {a t : ℕ}

/-- The values of `v` in the cycles from `a` on and before `t` in which `p` is high, in order. -/
def sampled (a t : ℕ) : List α :=
  ((List.range t).filter fun u => decide (a ≤ u) && p u).map v

@[simp] lemma sampled_self : sampled p v a a = [] := by
  rw [sampled, List.map_eq_nil_iff, List.filter_eq_nil_iff]
  intro u hu
  have hlt := List.mem_range.mp hu
  simp [hlt]

lemma sampled_succ (h : a ≤ t) :
    sampled p v a (t + 1) = if p t then sampled p v a t ++ [v t] else sampled p v a t := by
  unfold sampled
  rw [List.range_succ, List.filter_append, List.map_append]
  by_cases hp : p t = true
  · simp [hp, h]
  · simp [hp]

variable {p v}

lemma length_sampled_mono {b : ℕ} (h : a ≤ t) (htb : t ≤ b) :
    (sampled p v a t).length ≤ (sampled p v a b).length := by
  induction b, htb using Nat.le_induction with
  | base => exact le_rfl
  | succ b htb ih =>
      rw [sampled_succ p v (h.trans htb)]
      split_ifs
      · rw [List.length_append]
        exact ih.trans (Nat.le_add_right _ _)
      · exact ih

lemma mem_sampled {u : ℕ} (hu : a ≤ u) (hut : u < t) (hp : p u = true) :
    v u ∈ sampled p v a t :=
  List.mem_map.mpr ⟨u, List.mem_filter.mpr ⟨List.mem_range.mpr hut, by simp [hu, hp]⟩, rfl⟩

lemma exists_of_mem_sampled {x : α} (h : x ∈ sampled p v a t) :
    ∃ u, a ≤ u ∧ u < t ∧ p u = true ∧ v u = x := by
  obtain ⟨u, hu, rfl⟩ := List.mem_map.mp h
  obtain ⟨hlt, hp⟩ := List.mem_filter.mp hu
  simp only [Bool.and_eq_true, decide_eq_true_eq] at hp
  exact ⟨u, hp.1, List.mem_range.mp hlt, hp.2, rfl⟩

end Sampled

/-! ## Edges of a signal -/

section Edges

variable {s : ℕ → Bool} {t : ℕ}

/-- The signal is high in cycle `t` and was not in the cycle before. -/
def Rises (s : ℕ → Bool) (t : ℕ) : Prop := s t = true ∧ (t = 0 ∨ s (t - 1) = false)

/-- The signal is low in cycle `t` and was not in the cycle before. -/
def Falls (s : ℕ → Bool) (t : ℕ) : Prop := s t = false ∧ 0 < t ∧ s (t - 1) = true

instance (s : ℕ → Bool) : DecidablePred (Rises s) :=
  fun _ => inferInstanceAs (Decidable (_ ∧ _))

lemma rises_succ : Rises s (t + 1) ↔ s (t + 1) = true ∧ s t = false := by simp [Rises]

lemma falls_succ : Falls s (t + 1) ↔ s (t + 1) = false ∧ s t = true := by simp [Falls]

/-- The inverse of a signal rises where the signal falls, and at the start if that is low. -/
lemma rises_not_iff : Rises (fun t => !s t) t ↔ t = 0 ∧ s 0 = false ∨ Falls s t := by
  cases t with
  | zero => simp [Rises, Falls]
  | succ t => simp [rises_succ, falls_succ]

/-- A signal that is high has risen, and has been high since. -/
lemma exists_rise (ht : s t = true) :
    ∃ x, Rises s x ∧ x ≤ t ∧ ∀ u, x ≤ u → u ≤ t → s u = true := by
  induction t with
  | zero => exact ⟨0, ⟨ht, .inl rfl⟩, le_rfl, fun u _ hu => (Nat.le_zero.mp hu) ▸ ht⟩
  | succ t ih =>
      cases hprev : s t with
      | false =>
          refine ⟨t + 1, rises_succ.mpr ⟨ht, hprev⟩, le_rfl, fun u hu hut => ?_⟩
          obtain rfl : u = t + 1 := by omega
          exact ht
      | true =>
          obtain ⟨x, hx, hxt, hall⟩ := ih hprev
          refine ⟨x, hx, by omega, fun u hu hut => ?_⟩
          rcases Nat.lt_succ_iff_lt_or_eq.mp (Nat.lt_succ_of_le hut) with hlt | rfl
          · exact hall u hu (by omega)
          · exact ht

end Edges

/-! ## Reaching a goal -/

/-- **The progress rule.**  While the goal is not reached the invariant is kept and the
measure decreases; then the goal is reached, with the invariant kept all the way. -/
lemma exists_first_of_decreasing (goal inv : ℕ → Prop) (μ : ℕ → ℕ) (h0 : inv 0)
    (hstep : ∀ t, inv t → ¬ goal t → inv (t + 1) ∧ μ (t + 1) < μ t) :
    ∃ t, goal t ∧ inv t ∧ ∀ u < t, inv u ∧ ¬ goal u := by
  by_contra hcon
  -- otherwise the invariant holds for ever and the measure decreases for ever
  have hall : ∀ t, inv t ∧ (∀ u < t, inv u ∧ ¬ goal u) ∧ μ t + t ≤ μ 0 := by
    intro t
    induction t with
    | zero => exact ⟨h0, by simp, le_rfl⟩
    | succ t ih =>
        obtain ⟨hinv, hbefore, hμ⟩ := ih
        have hgoal : ¬ goal t := fun hg => hcon ⟨t, hg, hinv, hbefore⟩
        obtain ⟨hinv', hdec⟩ := hstep t hinv hgoal
        refine ⟨hinv', fun u hu => ?_, by omega⟩
        rcases Nat.lt_succ_iff_lt_or_eq.mp hu with hut | rfl
        · exact hbefore u hut
        · exact ⟨hinv, hgoal⟩
  have := (hall (μ 0 + 1)).2.2
  omega

end Clocked
