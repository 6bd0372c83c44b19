import Mathlib.Data.Nat.Basic
import Mathlib.Tactic.Common
import Mathlib.Tactic.Ring

/-!
# Reading a counter in two words

A counter is read as a low word of `w` bits and a high word, at two moments between which it may
go on counting.  Put together, the two words are a value that the counter had in between exactly
when no carry went from the low word to the high word between the two moments
(`between_lowFirst_iff`, `between_highFirst_iff`).  With such a carry the value is too large by
`2 ^ w` when the low word was read first, and too small by `2 ^ w` when the high word was.
-/

namespace SplitRead

variable {c d w : ℕ}

/-- What is put together from the low word of `c` and the high word of `d`. -/
def glue (w c d : ℕ) : ℕ := c % 2 ^ w + 2 ^ w * (d / 2 ^ w)

/-- No carry out of the low word: the high word is the same. -/
def NoCarry (w c d : ℕ) : Prop := c / 2 ^ w = d / 2 ^ w

lemma glue_of_noCarry_left (h : NoCarry w c d) : glue w c d = c := by
  have hhigh : d / 2 ^ w = c / 2 ^ w := h.symm
  rw [glue, hhigh, Nat.mod_add_div]

lemma glue_of_noCarry_right (h : NoCarry w d c) : glue w c d = c := glue_of_noCarry_left h.symm

/-- Less than a full turn of the low word apart, the high words differ by one at most. -/
lemma high_succ_of_carry (hle : c ≤ d) (hlt : d < c + 2 ^ w) (h : ¬ NoCarry w c d) :
    d / 2 ^ w = c / 2 ^ w + 1 := by
  have hmono : c / 2 ^ w ≤ d / 2 ^ w := Nat.div_le_div_right hle
  have hbound : d / 2 ^ w ≤ c / 2 ^ w + 1 := by
    have hturn : (c + 2 ^ w) / 2 ^ w = c / 2 ^ w + 1 :=
      Nat.add_div_right c (Nat.two_pow_pos w)
    rw [← hturn]
    exact Nat.div_le_div_right hlt.le
  have hne : c / 2 ^ w ≠ d / 2 ^ w := h
  omega

/-- **Low word first.** -/
lemma between_lowFirst_iff (hle : c ≤ d) (hlt : d < c + 2 ^ w) :
    (c ≤ glue w c d ∧ glue w c d ≤ d) ↔ NoCarry w c d := by
  constructor
  · intro hbetween
    by_contra hcarry
    have hhigh := high_succ_of_carry hle hlt hcarry
    have hglue : glue w c d = c + 2 ^ w := by
      rw [glue, hhigh, Nat.mul_add, Nat.mul_one, ← Nat.add_assoc, Nat.mod_add_div]
    omega
  · intro h
    rw [glue_of_noCarry_left h]
    exact ⟨le_rfl, hle⟩

/-- **High word first.** -/
lemma between_highFirst_iff (hle : c ≤ d) (hlt : d < c + 2 ^ w) :
    (c ≤ glue w d c ∧ glue w d c ≤ d) ↔ NoCarry w c d := by
  constructor
  · intro hbetween
    by_contra hcarry
    have hhigh := high_succ_of_carry hle hlt hcarry
    have hglue : glue w d c + 2 ^ w = d := by
      calc glue w d c + 2 ^ w = d % 2 ^ w + 2 ^ w * (c / 2 ^ w + 1) := by rw [glue]; ring
        _ = d := by rw [← hhigh, Nat.mod_add_div]
    omega
  · intro h
    rw [glue_of_noCarry_right h]
    exact ⟨hle, le_rfl⟩

end SplitRead
