import Mathlib.Data.List.Induction
import Mathlib.Tactic.Ring

/-!
# Serial shift registers

Registers that are loaded or read one bit at a time.  `BitVec.shiftConcat x b` shifts `x` left
by one and takes `b` into bit `0`; `serialIn x bs` takes a list of bits in this way, the first
one first.  What an earlier content leaves behind after `m` bits is that content shifted by `m`
(`serialIn_eq_serialIn_zero_iff`).

`setBit` writes one bit of a register in place.  A register that is written at one bit and
shifted to the right shows a stretch of a tape (`tape`, `Shows`).
-/

namespace SerialRegister

variable {w : ℕ}

/-- The register after the bits `bs` have been shifted in at bit `0`, the first one first. -/
def serialIn (x : BitVec w) (bs : List Bool) : BitVec w :=
  bs.foldl BitVec.shiftConcat x

@[simp] lemma serialIn_nil (x : BitVec w) : serialIn x [] = x := rfl

lemma serialIn_cons (x : BitVec w) (b : Bool) (bs : List Bool) :
    serialIn x (b :: bs) = serialIn (x.shiftConcat b) bs := rfl

lemma serialIn_append (x : BitVec w) (as bs : List Bool) :
    serialIn x (as ++ bs) = serialIn (serialIn x as) bs := by
  simp [serialIn]

lemma serialIn_concat (x : BitVec w) (bs : List Bool) (b : Bool) :
    serialIn x (bs ++ [b]) = (serialIn x bs).shiftConcat b := by
  rw [serialIn_append, serialIn_cons, serialIn_nil]

/-- Bit `j` after `bs`: the `j`-th last bit taken in, or the old bit that has moved up to `j`. -/
lemma getLsbD_serialIn (x : BitVec w) (bs : List Bool) {j : ℕ} (hj : j < w) :
    (serialIn x bs).getLsbD j =
      if j < bs.length then bs.getD (bs.length - 1 - j) false
      else x.getLsbD (j - bs.length) := by
  induction bs using List.reverseRecOn generalizing j with
  | nil => simp
  | append_singleton bs b ih =>
      rw [serialIn_concat, BitVec.getLsbD_shiftConcat]
      rcases j with _ | j
      · simp [hj, List.getD_eq_getElem?_getD]
      · have hj' : j < w := by omega
        simp only [hj, decide_true, Bool.true_and, Nat.add_eq_zero_iff, one_ne_zero, and_false,
          if_false, Nat.add_sub_cancel, ih hj', List.length_append, List.length_singleton,
          Nat.add_lt_add_iff_right]
        by_cases hlt : j < bs.length
        · have hidx : bs.length - (j + 1) = bs.length - 1 - j := by omega
          have hin : bs.length - 1 - j < bs.length := by omega
          simp [hlt, List.getD_eq_getElem?_getD, hidx, List.getElem?_append_left hin]
        · have hidx : j + 1 - (bs.length + 1) = j - bs.length := by omega
          simp [hlt, hidx]

/-- What was in the register before is still seen exactly where the new bits have not pushed
it out. -/
lemma serialIn_eq_serialIn_zero_iff (x : BitVec w) (bs : List Bool) :
    serialIn x bs = serialIn 0#w bs ↔ x <<< bs.length = 0#w := by
  constructor
  · intro h
    apply BitVec.eq_of_getLsbD_eq
    intro j hj
    have hbit := congrArg (fun r => r.getLsbD j) h
    simp only [getLsbD_serialIn _ _ hj] at hbit
    rw [BitVec.getLsbD_shiftLeft, BitVec.getLsbD_zero]
    by_cases hlt : j < bs.length
    · simp [hlt]
    · simp only [hlt, if_false, BitVec.getLsbD_zero] at hbit
      rw [hbit, Bool.and_false]
  · intro h
    apply BitVec.eq_of_getLsbD_eq
    intro j hj
    rw [getLsbD_serialIn _ _ hj, getLsbD_serialIn _ _ hj]
    by_cases hlt : j < bs.length
    · simp [hlt]
    · have hbit := congrArg (fun r => r.getLsbD j) h
      simp only [BitVec.getLsbD_shiftLeft, BitVec.getLsbD_zero, hj, hlt, decide_true, decide_false,
        Bool.not_false, Bool.true_and] at hbit
      rw [if_neg hlt, if_neg hlt, hbit, BitVec.getLsbD_zero]

/-- The bits of `x`, the most significant one first: the order in which a left shift register
is loaded. -/
def msbFirst (x : BitVec w) : List Bool :=
  (List.range w).map fun j => x.getLsbD (w - 1 - j)

@[simp] lemma length_msbFirst (x : BitVec w) : (msbFirst x).length = w := by simp [msbFirst]

/-- A register loaded with the bits of `x`, most significant first, holds `x`. -/
lemma serialIn_msbFirst (x y : BitVec w) : serialIn y (msbFirst x) = x := by
  apply BitVec.eq_of_getLsbD_eq
  intro j hj
  have hidx : w - 1 - j < w := by omega
  have hback : w - 1 - (w - 1 - j) = j := by omega
  rw [getLsbD_serialIn _ _ hj, length_msbFirst, if_pos hj]
  simp [msbFirst, List.getD_eq_getElem?_getD, List.getElem?_map, List.getElem?_range hidx, hback]

/-- The register `x` after the first `k` bits of `y` have been shifted in, the most significant
one first. -/
def partlyLoaded (x y : BitVec w) (k : ℕ) : BitVec w := serialIn x ((msbFirst y).take k)

@[simp] lemma partlyLoaded_zero (x y : BitVec w) : partlyLoaded x y 0 = x := rfl

lemma partlyLoaded_succ (x y : BitVec w) {k : ℕ} (hk : k < w) :
    partlyLoaded x y (k + 1) = (partlyLoaded x y k).shiftConcat (y.getLsbD (w - 1 - k)) := by
  have hbit : (msbFirst y)[k]? = some (y.getLsbD (w - 1 - k)) := by
    simp [msbFirst, List.getElem?_range hk]
  rw [partlyLoaded, List.take_add_one, hbit, Option.toList_some, serialIn_concat, partlyLoaded]

/-- `w` bits load the whole register. -/
lemma partlyLoaded_width (x y : BitVec w) : partlyLoaded x y w = y := by
  rw [partlyLoaded, List.take_of_length_le (by simp), serialIn_msbFirst]

/-- The bit that leaves a register half loaded is one of its old bits. -/
lemma getLsbD_partlyLoaded_last (x y : BitVec w) {k : ℕ} (hk : k < w) :
    (partlyLoaded x y k).getLsbD (w - 1) = x.getLsbD (w - 1 - k) := by
  have hlen : ((msbFirst y).take k).length = k := by simp [hk.le]
  rw [partlyLoaded, getLsbD_serialIn _ _ (by omega), hlen, if_neg (by omega)]

/-- A register that is loaded with its own bits is rotated. -/
lemma partlyLoaded_self (x : BitVec w) {k : ℕ} (hk : k ≤ w) :
    partlyLoaded x x k = x.rotateLeft k := by
  rcases Nat.eq_or_lt_of_le hk with rfl | hlt
  · rw [partlyLoaded_width, ← BitVec.rotateLeft_mod_eq_rotateLeft, Nat.mod_self]
    apply BitVec.eq_of_getLsbD_eq
    intro j hj
    rw [BitVec.getLsbD_rotateLeft_of_le (by omega)]
    simp [hj]
  · apply BitVec.eq_of_getLsbD_eq
    intro j hj
    have hlen : ((msbFirst x).take k).length = k := by simp [hk]
    rw [partlyLoaded, getLsbD_serialIn _ _ hj, hlen, BitVec.getLsbD_rotateLeft_of_le hlt]
    by_cases hjk : j < k
    · have hidx : w - 1 - (k - 1 - j) = w - k + j := by omega
      have hin : k - 1 - j < k := by omega
      have hrange : k - 1 - j < w := by omega
      rw [if_pos hjk, List.getD_eq_getElem?_getD, List.getElem?_take_of_lt hin]
      simp [msbFirst, List.getElem?_range hrange, hidx, hjk]
    · simp [hjk, hj]

/-! ## Writing one bit -/

/-- The register with bit `k` replaced by `b`. -/
def setBit (x : BitVec w) (k : ℕ) (b : Bool) : BitVec w :=
  if b then x ||| (1#w <<< k) else x &&& ~~~(1#w <<< k)

lemma getLsbD_setBit (x : BitVec w) {k : ℕ} (b : Bool) {j : ℕ} (hj : j < w) :
    (setBit x k b).getLsbD j = if j = k then b else x.getLsbD j := by
  have hone : (1#w <<< k).getLsbD j = decide (j = k) := by
    rw [BitVec.getLsbD_shiftLeft, BitVec.getLsbD_one]
    by_cases h : j = k
    · subst h
      simp [hj, Nat.zero_lt_of_lt hj]
    · have : j < k ∨ ¬ j - k = 0 := by omega
      rcases this with hlt | hne
      · simp [hlt, h]
      · simp [hne, h]
  unfold setBit
  cases b
  · simp only [Bool.false_eq_true, if_false, BitVec.getLsbD_and, BitVec.getLsbD_not, hone, hj,
      decide_true, Bool.true_and]
    by_cases h : j = k
    · rw [decide_eq_true h, if_pos h, Bool.not_true, Bool.and_false]
    · rw [decide_eq_false h, if_neg h, Bool.not_false, Bool.and_true]
  · simp only [if_true, BitVec.getLsbD_or, hone]
    by_cases h : j = k
    · rw [decide_eq_true h, if_pos h, Bool.or_true]
    · rw [decide_eq_false h, if_neg h, Bool.or_false]

/-- A register that holds the upper bits of `x` takes in the next one below. -/
lemma setBit_shiftLeft_ushiftRight (x : BitVec w) (k : ℕ) :
    setBit ((x >>> (k + 1)) <<< 1) 0 (x.getLsbD k) = x >>> k := by
  apply BitVec.eq_of_getLsbD_eq
  intro j hj
  rw [getLsbD_setBit _ _ hj, BitVec.getLsbD_ushiftRight]
  rcases j with _ | j
  · simp
  · have hidx : k + 1 + j = k + (j + 1) := by omega
    simp [hj, hidx]

/-! ## A register that is filled at one bit and shifted right -/

/-- The register `x` with the bits `bs` written over it from position `c` on, as a tape without
an upper end. -/
def tape (x : BitVec w) (c : ℕ) (bs : List Bool) (p : ℕ) : Bool :=
  if c ≤ p ∧ p < c + bs.length then bs.getD (p - c) false else x.getLsbD p

/-- The register `y` shows the tape `τ` from position `s` on. -/
def Shows (y : BitVec w) (τ : ℕ → Bool) (s : ℕ) : Prop := ∀ j < w, y.getLsbD j = τ (j + s)

lemma shows_tape_nil (x : BitVec w) (c : ℕ) : Shows x (tape x c []) 0 := by
  intro j _
  rw [tape, if_neg (by simp)]
  rfl

lemma tape_eq_false {x : BitVec w} {c p : ℕ} {bs : List Bool} (hp : c + bs.length ≤ p)
    (hw : w ≤ p) : tape x c bs p = false := by
  rw [tape, if_neg (by omega), BitVec.getLsbD_of_ge _ _ hw]

/-- A shift to the right moves on by one position, where the tape is empty above the register. -/
lemma Shows.shift {y : BitVec w} {τ : ℕ → Bool} {s : ℕ} (h : Shows y τ s)
    (hout : τ (w + s) = false) : Shows (y >>> 1) τ (s + 1) := by
  intro j hj
  rw [BitVec.getLsbD_ushiftRight]
  by_cases hlt : 1 + j < w
  · rw [h _ hlt]
    congr 1
    omega
  · have hidx : j + (s + 1) = w + s := by omega
    rw [BitVec.getLsbD_of_ge _ _ (by omega), hidx, hout]

/-- Bit `c` of the register is where the tape is written. -/
lemma Shows.sample {x y : BitVec w} {c : ℕ} {bs : List Bool}
    (h : Shows y (tape x c bs) bs.length) (b : Bool) :
    Shows (setBit y c b) (tape x c (bs ++ [b])) bs.length := by
  intro j hj
  rw [getLsbD_setBit _ _ hj, tape, List.length_append, List.length_singleton]
  by_cases hjc : j = c
  · rw [if_pos hjc, if_pos (by omega), hjc, Nat.add_sub_cancel_left]
    simp
  · rw [if_neg hjc, h j hj, tape]
    by_cases hin : c ≤ j + bs.length ∧ j + bs.length < c + bs.length
    · have hidx : j + bs.length - c < bs.length := by omega
      rw [if_pos hin, if_pos (by omega), List.getD_eq_getElem?_getD, List.getD_eq_getElem?_getD,
        List.getElem?_append_left hidx]
    · rw [if_neg hin, if_neg (by omega)]

end SerialRegister
