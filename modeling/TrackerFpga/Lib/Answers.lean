import Mathlib.Data.Nat.Count
import Mathlib.Data.Finset.Card
import Mathlib.Order.Interval.Finset.Nat

/-!
# Events and their answers

Events `p` and answers `q` happen at some of the times `0`, `1`, `2`, ….  If each event is answered
once, within `d` of it and before the next one, and nothing else is answered, then the answer to
the `k`-th event is the `k`-th answer (`Answered.count_eq`).  Events that keep `d` apart are one in
`d` at most (`count_mul_le`).
-/

section Apart

variable {p : ℕ → Prop} [DecidablePred p] {d x y z : ℕ}

/-- The last event before `y`. -/
lemma exists_last (hx : p x) (hxy : x < y) :
    ∃ z, p z ∧ x ≤ z ∧ z < y ∧ ∀ u, z < u → u < y → ¬ p u := by
  have hle := Nat.findGreatest_le (P := p) (y - 1)
  refine ⟨Nat.findGreatest p (y - 1), ?_, ?_, by omega, fun u hu huy => ?_⟩
  · exact Nat.findGreatest_spec (by omega) hx
  · exact Nat.le_findGreatest (by omega) hx
  · exact Nat.findGreatest_is_greatest hu (by omega)

/-- With no event between, it is the only one more. -/
lemma count_of_last (hz : p z) (hzy : z < y) (hnone : ∀ u, z < u → u < y → ¬ p u) :
    Nat.count p y = Nat.count p z + 1 := by
  obtain ⟨e, rfl⟩ := Nat.exists_eq_add_of_le (Nat.succ_le_of_lt hzy)
  rw [Nat.count_add, Nat.count_succ, if_pos hz, Nat.add_eq_left, Nat.count_eq_card_filter_range,
    Finset.card_eq_zero, Finset.filter_eq_empty_iff]
  intro k hk
  have hke := Finset.mem_range.mp hk
  exact hnone (z.succ + k) (by omega) (by omega)

/-- The events between two of them, if each is `d` away from the next. -/
lemma count_mul_le (hapart : ∀ x x', p x → p x' → x < x' → x + d ≤ x') (hx : p x) (hy : p y)
    (hxy : x ≤ y) : (Nat.count p y - Nat.count p x) * d ≤ y - x := by
  induction y using Nat.strong_induction_on with
  | _ y ih =>
      rcases Nat.eq_or_lt_of_le hxy with rfl | hlt
      · simp
      obtain ⟨z, hz, hxz, hzy, hnone⟩ := exists_last hx hlt
      have hmono := Nat.count_monotone p hxz
      have hd := hapart z y hz hy hzy
      have hrec := ih z hzy hz hxz
      rw [count_of_last hz hzy hnone, Nat.succ_sub hmono, Nat.succ_mul]
      omega

end Apart

/-- Every event of `p` is answered by one of `q` within `d`, and before the next event. -/
structure Answered (p q : ℕ → Prop) (d : ℕ) : Prop where
  apart : ∀ x x', p x → p x' → x < x' → x + d < x'
  answer : ∀ x, p x → ∃ y, x < y ∧ y ≤ x + d ∧ q y
  once : ∀ x y y', p x → x < y → y ≤ x + d → x < y' → y' ≤ x + d → q y → q y' → y = y'
  only : ∀ y, q y → ∃ x, p x ∧ x < y ∧ y ≤ x + d

namespace Answered

variable {p q : ℕ → Prop} {d x y : ℕ}

/-- An answer within `d` of two events is the answer to one event only. -/
lemma event_unique (h : Answered p q d) {x' : ℕ} (hx : p x) (hx' : p x') (hxy : x < y)
    (hyx : y ≤ x + d) (hxy' : x' < y) (hyx' : y ≤ x' + d) : x = x' := by
  rcases Nat.lt_trichotomy x x' with hlt | heq | hgt
  · have hapart := h.apart x x' hx hx' hlt
    omega
  · exact heq
  · have hapart := h.apart x' x hx' hx hgt
    omega

variable [DecidablePred p] [DecidablePred q]

/-- **The `k`-th answer answers the `k`-th event.** -/
lemma count_eq (h : Answered p q d) (hx : p x) (hy : q y) (hxy : x < y) (hyx : y ≤ x + d) :
    Nat.count q y = Nat.count p x := by
  rw [Nat.count_eq_card_filter_range, Nat.count_eq_card_filter_range]
  symm
  have hbefore : ∀ {x'}, p x' → x' < x → ∀ {y'}, y' ≤ x' + d → y' < y := by
    intro x' hx' hlt y' hy'
    have hapart := h.apart x' x hx' hx hlt
    omega
  refine Finset.card_bij (fun x' hx' => (h.answer x' (Finset.mem_filter.mp hx').2).choose)
    (fun x' hx' => ?_) (fun x₁ hx₁ x₂ hx₂ heq => ?_) fun y' hy' => ?_
  · obtain ⟨hlt, hp⟩ := Finset.mem_filter.mp hx'
    obtain ⟨-, hle, hq⟩ := (h.answer x' hp).choose_spec
    exact Finset.mem_filter.mpr
      ⟨Finset.mem_range.mpr (hbefore hp (Finset.mem_range.mp hlt) hle), hq⟩
  · have hp₁ := (Finset.mem_filter.mp hx₁).2
    have hp₂ := (Finset.mem_filter.mp hx₂).2
    obtain ⟨hlt₁, hle₁, -⟩ := (h.answer x₁ hp₁).choose_spec
    obtain ⟨hlt₂, hle₂, -⟩ := (h.answer x₂ hp₂).choose_spec
    rw [← heq] at hlt₂ hle₂
    exact h.event_unique hp₁ hp₂ hlt₁ hle₁ hlt₂ hle₂
  · obtain ⟨hlt, hq⟩ := Finset.mem_filter.mp hy'
    obtain ⟨x', hp, hxy', hyx'⟩ := h.only y' hq
    have hlt' := Finset.mem_range.mp hlt
    have hx' : x' < x := by
      rcases Nat.lt_trichotomy x' x with hbefore | rfl | hafter
      · exact hbefore
      · -- the event is answered once
        exact absurd (h.once x' y y' hx hxy hyx hxy' hyx' hy hq) (by omega)
      · have hapart := h.apart x x' hx hp hafter
        omega
    refine ⟨x', Finset.mem_filter.mpr ⟨Finset.mem_range.mpr hx', hp⟩, ?_⟩
    obtain ⟨hlt, hle, hq'⟩ := (h.answer x' hp).choose_spec
    exact h.once x' _ _ hp hlt hle hxy' hyx' hq' hq

end Answered
