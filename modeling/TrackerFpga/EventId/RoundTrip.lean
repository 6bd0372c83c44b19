import Mathlib.Data.Finset.Card
import Mathlib.Order.Interval.Finset.Nat
import TrackerFpga.EventId.Link

/-!
# An id arrives as it was sent

Bit `j` of an id is on the line for `2 * R` cycles.  `P2s.Sending` is what the sender holds in
cycle `i` of them, `EventIdS2p.Receiving` what the receiver holds: it takes the bit at the end of
cycle `2`, three cycles after the sender has put it there.  With `R` at least `2` the bit is still
on the line by then, and the latch is low again early enough to be seen to rise for the next bit.
-/

namespace TrackerFpga.EventId

open SerialRegister Vata

variable {W R : ℕ}

/-! ## The sender -/

namespace P2s

/-- The sender in cycle `i` of bit `j`. -/
structure Sending (R : ℕ) (id : BitVec W) (j i : ℕ) (s : P2s W) : Prop where
  state : s.currentState = if i < R then .latchHi else .latchLo
  clk : s.clkCount.toNat = if i < R then i else i - R
  bit : s.idBitCount.toNat = j
  data : s.data = id <<< j

section Sending

variable {id x : BitVec W} {go : Bool} {i j : ℕ} {s : P2s W}

lemma toNat_clkMax (hR : 0 < R) (hR' : R ≤ 15) : (clkMax R).toNat = R - 1 :=
  Nat.mod_eq_of_lt (by omega)

lemma toNat_idBitMax (hW : 0 < W) (hW' : W ≤ 64) : (idBitMax W).toNat = W - 1 :=
  Nat.mod_eq_of_lt (by omega)

lemma Sending.eventIdLatch_eq (h : s.Sending R id j i) : s.eventIdLatch = decide (i < R) := by
  rw [eventIdLatch, h.state]
  by_cases hi : i < R <;> simp [hi]

lemma Sending.eventIdOut_eq (hj : j < W) (h : s.Sending R id j i) :
    s.eventIdOut = id.getLsbD (W - 1 - j) := by
  have hbit : s.data.getLsbD (W - 1) = id.getLsbD (W - 1 - j) := by
    rw [h.data, BitVec.getLsbD_shiftLeft]
    simp [show W - 1 < W by omega, show ¬ W - 1 < j by omega]
  rw [eventIdOut, h.state]
  by_cases hi : i < R <;> simp [hi, hbit]

/-- A go in `IDLE` starts the first bit of the id that is there. -/
lemma sending_of_go (hR : 0 < R) (h : s.currentState = .idle) :
    (s.step R true x).Sending R x 0 0 := by
  constructor <;> simp [step, control, h, hR]

variable (hR : 0 < R) (hR' : R ≤ 15)
include hR hR'

/-- What the sender decides in cycle `i` of bit `j`, whatever `event_id_go` is. -/
lemma Sending.control_eq (hW : 0 < W) (hW' : W ≤ 64) (hi : i < 2 * R)
    (h : s.Sending R id j i) :
    s.control R go =
      if i + 1 = R then { nextState := .latchLo, clkCountClr := true }
      else if i + 1 = 2 * R then
        if W - 1 ≤ j then { nextState := .idle, incEventId := true }
        else { nextState := .latchHi, clkCountClr := true, incIdBitCount := true }
      else { nextState := s.currentState } := by
  have hclk : s.clkCount ≥ clkMax R ↔ i + 1 = R ∨ i + 1 = 2 * R := by
    rw [ge_iff_le, BitVec.le_def, toNat_clkMax hR hR', h.clk]
    split_ifs <;> omega
  have hbit : s.idBitCount ≥ idBitMax W ↔ W - 1 ≤ j := by
    rw [ge_iff_le, BitVec.le_def, toNat_idBitMax hW hW', h.bit]
  unfold control
  rw [h.state]
  by_cases hlow : i < R
  · have hne : i + 1 ≠ 2 * R := by omega
    simp only [hlow, if_true, hclk, hne, or_false, if_false]
  · have hne : i + 1 ≠ R := by omega
    simp only [hlow, if_false, hclk, hne, false_or, hbit]

/-- Within a bit. -/
lemma Sending.next (hW : 0 < W) (hW' : W ≤ 64) (hi : i + 1 < 2 * R) (h : s.Sending R id j i) :
    (s.step R go x).Sending R id j (i + 1) := by
  have hcontrol : s.control R go = _ := h.control_eq hR hR' hW hW' (by omega)
  have hne : i + 1 ≠ 2 * R := by omega
  have hena : s.clkCountEna = true := by
    rw [clkCountEna, h.state]
    by_cases hlow : i < R <;> simp [hlow]
  have hsmall : s.clkCount.toNat + 1 < 2 ^ 4 := by
    rw [h.clk]
    split_ifs <;> omega
  simp only [hne, if_false] at hcontrol
  by_cases hhalf : i + 1 = R
  · simp only [hhalf, if_true] at hcontrol
    have hlow : ¬ i + 1 < R := by omega
    refine ⟨?_, ?_, ?_, ?_⟩
    · simp [step, hcontrol, hlow]
    · simp [step, hcontrol, hhalf]
    · simp [step, hcontrol, h.bit]
    · simp [step, hcontrol, h.data]
  · simp only [hhalf, if_false] at hcontrol
    have hsame : i + 1 < R ↔ i < R := by omega
    refine ⟨?_, ?_, ?_, ?_⟩
    · simp [step, hcontrol, h.state, hsame]
    · simp only [step, hcontrol, hena, if_true, Bool.false_eq_true, if_false]
      rw [BitVec.toNat_add, show (1#4).toNat = 1 by decide, Nat.mod_eq_of_lt hsmall, h.clk]
      split_ifs <;> omega
    · simp [step, hcontrol, h.bit]
    · simp [step, hcontrol, h.data]

/-- From one bit to the next. -/
lemma Sending.next_bit (hW : 0 < W) (hW' : W ≤ 64) (hj : j + 1 < W)
    (h : s.Sending R id j (2 * R - 1)) : (s.step R go x).Sending R id (j + 1) 0 := by
  have hcontrol : s.control R go = _ := h.control_eq hR hR' hW hW' (by omega)
  have hlast : 2 * R - 1 + 1 = 2 * R := by omega
  have hne : 2 * R ≠ R := by omega
  have hmore : ¬ W - 1 ≤ j := by omega
  simp only [hlast, hne, if_false, if_true, hmore] at hcontrol
  refine ⟨?_, ?_, ?_, ?_⟩
  · simp [step, hcontrol, hR]
  · simp [step, hcontrol, hR]
  · simp only [step, hcontrol, if_true, Bool.false_eq_true, if_false]
    rw [BitVec.toNat_add, h.bit, show (1#6).toNat = 1 by decide, Nat.mod_eq_of_lt (by omega)]
  · simp only [step, hcontrol, if_true, Bool.false_eq_true, if_false]
    rw [h.data, ← BitVec.shiftLeft_add]

/-- After the last bit. -/
lemma Sending.idle_of_end (hW : 0 < W) (hW' : W ≤ 64) (hj : j + 1 = W)
    (h : s.Sending R id j (2 * R - 1)) : (s.step R go x).currentState = .idle := by
  have hcontrol : s.control R go = _ := h.control_eq hR hR' hW hW' (by omega)
  have hlast : 2 * R - 1 + 1 = 2 * R := by omega
  have hne : 2 * R ≠ R := by omega
  have hend : W - 1 ≤ j := by omega
  simp only [hlast, hne, if_false, if_true, hend] at hcontrol
  simp [step, hcontrol]

lemma Sending.incEventId_eq (hW : 0 < W) (hW' : W ≤ 64) (hi : i < 2 * R)
    (h : s.Sending R id j i) :
    (s.control R go).incEventId = decide (i + 1 = 2 * R ∧ W ≤ j + 1) := by
  rw [h.control_eq hR hR' hW hW' hi]
  by_cases hhalf : i + 1 = R
  · have hne : i + 1 ≠ 2 * R := by omega
    rw [if_pos hhalf, decide_eq_false (fun hand => hne hand.1)]
  · by_cases hlast : i + 1 = 2 * R
    · by_cases hend : W - 1 ≤ j
      · have hend' : W ≤ j + 1 := by omega
        simp [hlast, hend, hend', show 2 * R ≠ R by omega]
      · have hend' : ¬ W ≤ j + 1 := by omega
        simp [hlast, hend, hend', show 2 * R ≠ R by omega]
    · simp [hhalf, hlast]

end Sending

end P2s

end TrackerFpga.EventId

/-! ## The receiver -/

namespace TrackerFpga.Vata.EventIdS2p

open SerialRegister

variable {W R : ℕ}

/-- The receiver in cycle `i` of bit `j`, with `x` in its register before the first bit. -/
structure Receiving (R : ℕ) (x id : BitVec W) (j i : ℕ) (s : EventIdS2p W) : Prop where
  data : s.data = partlyLoaded x id (if i < 3 then j else j + 1)
  newest : s.latchResync.getLsbD 0 = decide (1 ≤ i ∧ i ≤ R)
  middle : s.latchResync.getLsbD 1 = decide (2 ≤ i ∧ i ≤ R + 1)
  oldest : 1 < i → s.latchResync.getLsbD 2 = decide (3 ≤ i ∧ i ≤ R + 2)

section Receiving

variable {x id : BitVec W} {i j : ℕ} {s : EventIdS2p W} {d l c : Bool}

lemma step_of_not_clears (h : s.clears = false) :
    (s.step d l c).data =
        (if resyncEdge s.latchResync then s.data.shiftConcat d else s.data) ∧
      (s.step d l c).latchResync = s.latchResync.shiftConcat l := by
  unfold clears at h
  simp [step, h]

/-- The edge of the latch shows in cycle `2` of a bit. -/
lemma Receiving.resyncEdge_eq (hR : 2 ≤ R) (h : s.Receiving R x id j i) :
    resyncEdge s.latchResync = decide (i = 2) := by
  rw [resyncEdge, h.middle]
  rcases Nat.lt_or_ge 1 i with hlate | hearly
  · rw [h.oldest hlate]
    by_cases hi : i = 2
    · subst hi
      simp [show 2 ≤ R + 1 by omega]
    · by_cases hend : i ≤ R + 1
      · simp [hi, show 3 ≤ i by omega, show i ≤ R + 2 by omega]
      · simp [hi, hend]
  · simp [show ¬ 2 ≤ i by omega, show i ≠ 2 by omega]

/-- Within a bit; in cycle `2` the bit is taken. -/
lemma Receiving.next (hR : 2 ≤ R) (hj : j < W) (h : s.Receiving R x id j i)
    (hclr : s.clears = false) :
    (s.step (id.getLsbD (W - 1 - j)) (decide (i < R)) c).Receiving R x id j (i + 1) := by
  obtain ⟨hdata, hresync⟩ := step_of_not_clears (d := id.getLsbD (W - 1 - j))
    (l := decide (i < R)) (c := c) hclr
  refine ⟨?_, ?_, ?_, fun hi => ?_⟩
  · rw [hdata, h.resyncEdge_eq hR, h.data]
    by_cases hi : i = 2
    · simp [hi, partlyLoaded_succ x id hj]
    · have hsame : i + 1 < 3 ↔ i < 3 := by omega
      simp [hi, hsame]
  · rw [hresync, BitVec.getLsbD_shiftConcat]
    show decide (i < R) = decide (1 ≤ i + 1 ∧ i + 1 ≤ R)
    exact decide_eq_decide.mpr (by omega)
  · rw [hresync, BitVec.getLsbD_shiftConcat]
    simpa using h.newest
  · rw [hresync, BitVec.getLsbD_shiftConcat]
    simpa using h.middle

/-- The end of one bit is the beginning of the next. -/
lemma Receiving.next_bit (hR : 2 ≤ R) (h : s.Receiving R x id j (2 * R)) :
    s.Receiving R x id (j + 1) 0 := by
  refine ⟨?_, ?_, ?_, fun hi => absurd hi (by decide)⟩
  · rw [h.data, if_neg (by omega), if_pos (by decide)]
  · rw [h.newest]
    simp [show ¬ 2 * R ≤ R by omega]
  · rw [h.middle]
    simp [show ¬ 2 * R ≤ R + 1 by omega]

/-- One cycle after the latch has risen from low the receiver is in cycle `1`, whatever came
before. -/
lemma receiving_one (hR : 2 ≤ R) (id : BitVec W) (hlow : s.latchResync.getLsbD 0 = false)
    (hclr : s.clears = false) :
    (s.step d true c).Receiving R (s.step d true c).data id 0 1 := by
  obtain ⟨-, hresync⟩ := step_of_not_clears (d := d) (l := true) (c := c) hclr
  refine ⟨rfl, ?_, ?_, fun hi => absurd hi (by decide)⟩
  · rw [hresync, BitVec.getLsbD_shiftConcat]
    simp [show 1 ≤ R by omega]
  · rw [hresync, BitVec.getLsbD_shiftConcat]
    simpa using hlow

end Receiving

end TrackerFpga.Vata.EventIdS2p

/-! ## A transfer -/

namespace TrackerFpga.EventId

open SerialRegister Vata

variable {W R : ℕ}

namespace Run

variable {r : Run W R} {t : ℕ}

/-- The generics are in the range that the counters of the sender are made for. -/
structure Generics (W R : ℕ) : Prop where
  two_le_width : 2 ≤ W
  width_le : W ≤ 64
  two_le_ratio : 2 ≤ R
  ratio_le : R ≤ 15

/-- The cycle in which the sender is idle again after a go in cycle `t`. -/
def transferEnd (W R t : ℕ) : ℕ := t + 1 + 2 * R * W

/-- A go pulse in cycle `t` finds the sender idle, and the receiver is not cleared until the
transfer is over. -/
structure Starts (r : Run W R) (t : ℕ) : Prop where
  idle : r.Idle t
  go : (r.inp t).eventIdGo = true
  notCleared : ∀ u, t < u → u ≤ transferEnd W R t → ¬ r.Cleared u

/-- `event_id_latch` rises in cycle `u`. -/
def LatchRises (r : Run W R) (u : ℕ) : Prop := r.latch u = true ∧ r.latch (u - 1) = false

instance (r : Run W R) : DecidablePred r.LatchRises :=
  fun _ => inferInstanceAs (Decidable (_ ∧ _))

section Transfer

variable (g : Generics W R) (h : r.Starts t)
include g h

/-- What the sender holds during the transfer. -/
lemma sending_at {j i : ℕ} (hj : j < W) (hi : i < 2 * R) :
    (r.regs (t + 1 + 2 * R * j + i)).p2s.Sending R (r.inp t).eventIdIn j i := by
  have hW := g.two_le_width
  have hR := g.two_le_ratio
  -- a bit that has begun goes on to its end
  have hbit : ∀ j, (r.regs (t + 1 + 2 * R * j)).p2s.Sending R (r.inp t).eventIdIn j 0 →
      ∀ i < 2 * R, (r.regs (t + 1 + 2 * R * j + i)).p2s.Sending R (r.inp t).eventIdIn j i := by
    intro j hstart i
    induction i with
    | zero => exact fun _ => hstart
    | succ i ih =>
        intro hi
        rw [← Nat.add_assoc, regs_succ]
        exact (ih (by omega)).next (by omega) g.ratio_le (by omega) g.width_le hi
  refine hbit j ?_ i hi
  clear hi i
  induction j with
  | zero =>
      have hstart := P2s.sending_of_go (R := R) (x := (r.inp t).eventIdIn) (by omega) h.idle
      rw [Nat.mul_zero, Nat.add_zero, regs_succ]
      simpa [step, h.go] using hstart
  | succ j ih =>
      have hlast := hbit j (ih (by omega)) (2 * R - 1) (by omega)
      have hnext : t + 1 + 2 * R * (j + 1) = t + 1 + 2 * R * j + (2 * R - 1) + 1 := by
        rw [Nat.mul_succ]
        omega
      rw [hnext, regs_succ]
      exact hlast.next_bit (by omega) g.ratio_le (by omega) g.width_le hj

omit h in
/-- Every cycle of the transfer is a cycle of a bit. -/
lemma exists_bit {u : ℕ} (hu : t < u) (hend : u < transferEnd W R t) :
    ∃ j < W, ∃ i < 2 * R, u = t + 1 + 2 * R * j + i := by
  have hR := g.two_le_ratio
  have hpos : 0 < 2 * R := by omega
  refine ⟨(u - t - 1) / (2 * R), ?_, (u - t - 1) % (2 * R), Nat.mod_lt _ hpos, ?_⟩
  · rw [Nat.div_lt_iff_lt_mul hpos, Nat.mul_comm]
    unfold transferEnd at hend
    omega
  · have hdiv := Nat.div_add_mod (u - t - 1) (2 * R)
    omega

/-- After the last bit the sender is idle again. -/
lemma idle_transferEnd : r.Idle (transferEnd W R t) := by
  have hW := g.two_le_width
  have hR := g.two_le_ratio
  have hlast := sending_at g h (j := W - 1) (i := 2 * R - 1) (by omega) (by omega)
  have hnext : transferEnd W R t = t + 1 + 2 * R * (W - 1) + (2 * R - 1) + 1 := by
    have hmul : 2 * R * W = 2 * R * (W - 1) + 2 * R := by
      rw [← Nat.mul_succ, Nat.succ_eq_add_one, Nat.sub_add_cancel (by omega)]
    rw [transferEnd, hmul]
    omega
  rw [Idle, hnext, regs_succ]
  exact hlast.idle_of_end (by omega) g.ratio_le (by omega) g.width_le (by omega)

omit g in
lemma clears_eq_false {u : ℕ} (hu : t < u) (hend : u < transferEnd W R t) :
    (r.regs u).s2p.clears = false := by
  have hnow := h.notCleared u hu hend.le
  have hnext := h.notCleared (u + 1) (by omega) hend
  rw [Cleared, regs_succ] at hnext
  rw [Cleared] at hnow
  simp only [step, EventIdS2p.step, Bool.not_eq_true] at hnext hnow
  rw [EventIdS2p.clears, hnext, hnow]
  rfl

/-- What the receiver holds from the second cycle of the transfer on. -/
lemma receiving_at : ∃ x, ∀ j < W, ∀ i ≤ 2 * R, 0 < j + i →
    (r.regs (t + 1 + 2 * R * j + i)).s2p.Receiving R x (r.inp t).eventIdIn j i := by
  have hR := g.two_le_ratio
  have hbound : ∀ j < W, t + 1 + 2 * R * j + 2 * R ≤ transferEnd W R t := by
    intro j hj
    have hmul : 2 * R * (j + 1) ≤ 2 * R * W := Nat.mul_le_mul_left _ hj
    rw [Nat.mul_succ] at hmul
    unfold transferEnd
    omega
  -- a bit that the receiver has begun to receive is received to its end
  have hbit : ∀ x, ∀ j < W, ∀ a ≤ 2 * R,
      (r.regs (t + 1 + 2 * R * j + a)).s2p.Receiving R x (r.inp t).eventIdIn j a →
      ∀ i, a ≤ i → i ≤ 2 * R →
        (r.regs (t + 1 + 2 * R * j + i)).s2p.Receiving R x (r.inp t).eventIdIn j i := by
    intro x j hj a ha hstart i hai
    induction i, hai using Nat.le_induction with
    | base => exact fun _ => hstart
    | succ i hai ih =>
        intro hi
        have hsend := sending_at g h hj (i := i) (by omega)
        have hin := hbound j hj
        rw [← Nat.add_assoc, regs_succ]
        simp only [step, hsend.eventIdLatch_eq, hsend.eventIdOut_eq hj]
        exact (ih (by omega)).next hR hj (clears_eq_false h (by omega) (by omega))
  -- the first bit begins with the latch low
  have hfirst := sending_at g h (j := 0) (i := 0) (by have := g.two_le_width; omega) (by omega)
  have hlow : (r.regs (t + 1)).s2p.latchResync.getLsbD 0 = false := by
    have hidle : (r.regs t).p2s.currentState = .idle := h.idle
    rw [regs_succ]
    simp only [step, EventIdS2p.step, P2s.eventIdLatch, hidle]
    split_ifs <;> simp
  have hone : (r.regs (t + 1 + 2 * R * 0 + 1)).s2p.Receiving R
      (r.regs (t + 1 + 2 * R * 0 + 1)).s2p.data (r.inp t).eventIdIn 0 1 := by
    have hend := hbound 0 (by have := g.two_le_width; omega)
    have hclr := clears_eq_false h (u := t + 1) (by omega) (by omega)
    have hstep := EventIdS2p.receiving_one (d := (r.regs (t + 1)).p2s.eventIdOut)
      (c := (r.inp (t + 1)).eventIdClr) hR (r.inp t).eventIdIn hlow hclr
    have hlatch : (r.regs (t + 1)).p2s.eventIdLatch = true := by
      have heq := hfirst.eventIdLatch_eq
      simpa [show 0 < R by omega] using heq
    rw [Nat.mul_zero, Nat.add_zero, regs_succ r (t + 1)]
    simp only [step, hlatch]
    exact hstep
  refine ⟨(r.regs (t + 1 + 2 * R * 0 + 1)).s2p.data, fun j => ?_⟩
  induction j with
  | zero => exact fun hj i hi hpos => hbit _ 0 hj 1 (by omega) hone i (by omega) hi
  | succ j ih =>
      intro hj i hi _
      have hlast := (ih (by omega) (2 * R) le_rfl (by omega)).next_bit hR
      refine hbit _ (j + 1) hj 0 (by omega) ?_ i (Nat.zero_le i) hi
      rw [Nat.mul_succ, Nat.add_zero, ← Nat.add_assoc]
      exact hlast

/-- The receiver ends with the id. -/
lemma eventIdOut_transferEnd : r.eventIdOut (transferEnd W R t) = (r.inp t).eventIdIn := by
  have hW := g.two_le_width
  have hR := g.two_le_ratio
  obtain ⟨x, hx⟩ := receiving_at g h
  have hlast := hx (W - 1) (by omega) (2 * R) le_rfl (by omega)
  have hend : transferEnd W R t = t + 1 + 2 * R * (W - 1) + 2 * R := by
    have hmul : 2 * R * W = 2 * R * (W - 1) + 2 * R := by
      rw [← Nat.mul_succ, Nat.succ_eq_add_one, Nat.sub_add_cancel (by omega)]
    rw [transferEnd, hmul]
    omega
  have hall : W - 1 + 1 = W := by omega
  rw [eventIdOut, EventIdS2p.eventIdOut, hend, hlast.data, if_neg (by omega), hall,
    partlyLoaded_width]

/-- The latch is high in the first half of each bit. -/
lemma latch_at {j i : ℕ} (hj : j < W) (hi : i < 2 * R) :
    r.latch (t + 1 + 2 * R * j + i) = decide (i < R) :=
  (sending_at g h hj hi).eventIdLatch_eq

/-- The latch rises where a bit begins. -/
lemma latchRises_iff {u : ℕ} (hu : t < u) (hend : u ≤ transferEnd W R t) :
    r.LatchRises u ↔ ∃ j < W, u = t + 1 + 2 * R * j := by
  have hR := g.two_le_ratio
  have hlatchIdle : ∀ v, r.Idle v → r.latch v = false := by
    intro v hv
    have hstate : (r.regs v).p2s.currentState = .idle := hv
    rw [latch, P2s.eventIdLatch, hstate]
  rcases Nat.eq_or_lt_of_le hend with rfl | hlt
  · -- the sender is idle again
    have hlow := hlatchIdle _ (idle_transferEnd g h)
    refine iff_of_false (fun hrise => absurd (hrise.1.symm.trans hlow) (by decide)) ?_
    rintro ⟨j, hj, heq⟩
    have hmul : 2 * R * (j + 1) ≤ 2 * R * W := Nat.mul_le_mul_left _ hj
    rw [Nat.mul_succ] at hmul
    unfold transferEnd at heq
    omega
  obtain ⟨j, hj, i, hi, rfl⟩ := exists_bit g hu hlt
  have hnow := latch_at g h hj hi
  rcases Nat.eq_zero_or_pos i with rfl | hpos
  · -- the first cycle of a bit; the one before is the last of a bit, or idle
    refine iff_of_true ⟨?_, ?_⟩ ⟨j, hj, rfl⟩
    · rw [hnow, decide_eq_true (by omega)]
    · rcases Nat.eq_zero_or_pos j with rfl | hjpos
      · exact hlatchIdle _ h.idle
      · have hprev := latch_at g h (j := j - 1) (i := 2 * R - 1) (by omega) (by omega)
        have hmul : 2 * R * j = 2 * R * (j - 1) + 2 * R := by
          rw [← Nat.mul_succ, Nat.succ_eq_add_one, Nat.sub_add_cancel hjpos]
        have hidx : t + 1 + 2 * R * j + 0 - 1 = t + 1 + 2 * R * (j - 1) + (2 * R - 1) := by omega
        rw [hidx, hprev, decide_eq_false (by omega)]
  · -- a later cycle of a bit: if the latch is high it was high before
    have hprev := latch_at g h hj (i := i - 1) (by omega)
    have hidx : t + 1 + 2 * R * j + i - 1 = t + 1 + 2 * R * j + (i - 1) := by omega
    refine iff_of_false (fun hrise => ?_) ?_
    · have hhigh := hnow.symm.trans hrise.1
      have hlow := (hprev.symm.trans (hidx ▸ hrise.2))
      simp only [decide_eq_true_eq, decide_eq_false_iff_not] at hhigh hlow
      omega
    · rintro ⟨k, hk, heq⟩
      have hsame : 2 * R * j + i = 2 * R * k := by omega
      have hmod := congrArg (· % (2 * R)) hsame
      simp only [Nat.mul_add_mod, Nat.mul_mod_right, Nat.mod_eq_of_lt hi] at hmod
      omega

/-- `inc_event_id` is high in the last cycle. -/
lemma incEventId_iff {u : ℕ} (hu : t ≤ u) (hend : u ≤ transferEnd W R t) :
    r.incEventId u = true ↔ u + 1 = transferEnd W R t := by
  have hW := g.two_le_width
  have hR := g.two_le_ratio
  have hincIdle : ∀ v, r.Idle v → r.incEventId v = false := by
    intro v hv
    have hstate : (r.regs v).p2s.currentState = .idle := hv
    rw [incEventId, P2s.control, hstate]
    cases (r.inp v).eventIdGo <;> rfl
  have hlong : t + 1 < transferEnd W R t := by
    have hmul : 0 < 2 * R * W := Nat.mul_pos (by omega) (by omega)
    unfold transferEnd
    omega
  rcases Nat.eq_or_lt_of_le hu with rfl | hlt
  · simp [hincIdle _ h.idle, hlong.ne]
  rcases Nat.eq_or_lt_of_le hend with rfl | hltEnd
  · simp [hincIdle _ (idle_transferEnd g h)]
  obtain ⟨j, hj, i, hi, rfl⟩ := exists_bit g hlt hltEnd
  rw [incEventId, (sending_at g h hj hi).incEventId_eq (by omega) g.ratio_le (by omega)
    g.width_le hi, decide_eq_true_eq]
  constructor
  · rintro ⟨hlast, hall⟩
    obtain rfl : W = j + 1 := by omega
    rw [transferEnd, Nat.mul_succ]
    omega
  · intro heq
    have hmul : 2 * R * (j + 1) ≤ 2 * R * W := Nat.mul_le_mul_left _ hj
    rw [Nat.mul_succ] at hmul
    unfold transferEnd at heq
    have hlast : i + 1 = 2 * R := by omega
    refine ⟨hlast, ?_⟩
    by_contra hmore
    have hmul' : 2 * R * (j + 2) ≤ 2 * R * W := Nat.mul_le_mul_left _ (by omega)
    rw [Nat.mul_add] at hmul'
    omega

/-- What happens at the inputs of the sender during the transfer changes nothing. -/
lemma regs_eq_of_transfer {r' : Run W R} (hregs : r'.regs t = r.regs t)
    (hinp : r'.inp t = r.inp t) (hclr : ∀ u, (r'.inp u).eventIdClr = (r.inp u).eventIdClr)
    {u : ℕ} (hu : t < u) (hend : u ≤ transferEnd W R t) : r'.regs u = r.regs u := by
  refine Clocked.invariant_between (P := fun u => r'.regs u = r.regs u) (a := t + 1) ?_
    (fun v hv hvend ih => ?_) hu hend
  · rw [regs_succ, regs_succ, hregs, hinp]
  · obtain ⟨j, hj, i, hi, rfl⟩ := exists_bit g hv hvend
    have hsend := sending_at g h hj hi
    have hcontrol : ∀ go go', (r.regs (t + 1 + 2 * R * j + i)).p2s.control R go =
        (r.regs (t + 1 + 2 * R * j + i)).p2s.control R go' := by
      intro go go'
      unfold P2s.control
      rw [hsend.state]
      split_ifs <;> rfl
    have hstart : ∀ go, ((r.regs (t + 1 + 2 * R * j + i)).p2s.control R go).startIdOut = false := by
      intro go
      unfold P2s.control
      rw [hsend.state]
      split_ifs <;> rfl
    rw [regs_succ, regs_succ, ih]
    simp only [step, P2s.step, hclr, hstart, Bool.false_eq_true, if_false,
      hcontrol (r'.inp (t + 1 + 2 * R * j + i)).eventIdGo
        (r.inp (t + 1 + 2 * R * j + i)).eventIdGo]

/-- **The round trip.**  A go that finds the sender idle leaves the id that is there in the
receiver, whatever that held before, with `W` rising edges of the latch and one cycle of
`inc_event_id`; no other input of the sender has an effect until the sender is idle again. -/
theorem round_trip :
    r.Idle (transferEnd W R t) ∧
    r.eventIdOut (transferEnd W R t) = (r.inp t).eventIdIn ∧
    ((Finset.Ioc t (transferEnd W R t)).filter r.LatchRises).card = W ∧
    (∀ u, t ≤ u → u ≤ transferEnd W R t →
      (r.incEventId u = true ↔ u + 1 = transferEnd W R t)) ∧
    ∀ r' : Run W R, r'.regs t = r.regs t → r'.inp t = r.inp t →
      (∀ u, (r'.inp u).eventIdClr = (r.inp u).eventIdClr) →
        ∀ u, t < u → u ≤ transferEnd W R t → r'.regs u = r.regs u := by
  have hR := g.two_le_ratio
  refine ⟨idle_transferEnd g h, eventIdOut_transferEnd g h, ?_,
    fun u hu hend => incEventId_iff g h hu hend,
    fun r' hregs hinp hclr u hu hend => regs_eq_of_transfer g h hregs hinp hclr hu hend⟩
  have himage : (Finset.Ioc t (transferEnd W R t)).filter r.LatchRises =
      (Finset.range W).image fun j => t + 1 + 2 * R * j := by
    ext u
    simp only [Finset.mem_filter, Finset.mem_Ioc, Finset.mem_image, Finset.mem_range]
    constructor
    · rintro ⟨⟨hu, hend⟩, hrise⟩
      obtain ⟨j, hj, rfl⟩ := (latchRises_iff g h hu hend).mp hrise
      exact ⟨j, hj, rfl⟩
    · rintro ⟨j, hj, rfl⟩
      have hmul : 2 * R * j ≤ 2 * R * W := Nat.mul_le_mul_left _ hj.le
      have hin : t + 1 + 2 * R * j ≤ transferEnd W R t := by
        unfold transferEnd
        omega
      exact ⟨⟨by omega, hin⟩, (latchRises_iff g h (by omega) hin).mpr ⟨j, hj, rfl⟩⟩
  have hinj : Function.Injective fun j => t + 1 + 2 * R * j := by
    intro j k hjk
    have hmul : 2 * R * j = 2 * R * k := Nat.add_left_cancel hjk
    exact Nat.eq_of_mul_eq_mul_left (by omega) hmul
  rw [himage, Finset.card_image_of_injective _ hinj, Finset.card_range]

end Transfer

/-- Four bits at ratio `2`, from a receiver that holds `15`. -/
def fourBits : Run 4 2 where
  start :=
    { p2s := .reset
      s2p := { triggerEventIdClr := false, clrResync := 0#3, data := 15#4, latchResync := 7#3 } }
  inp t := { eventIdGo := true, eventIdIn := 6#4 + BitVec.ofNat 4 t, eventIdClr := false }

lemma fourBits_starts : fourBits.Starts 0 where
  idle := by decide
  go := by decide
  notCleared u _ hend := by
    have hnever : ∀ v < 18, ¬ fourBits.Cleared v := by decide
    exact hnever u (Nat.lt_succ_of_le hend)

/-- The id `6` that is there in cycle `0` has arrived in cycle `17`. -/
theorem fourBits_round_trip : fourBits.eventIdOut 17 = 6#4 :=
  (round_trip ⟨by decide, by decide, by decide, by decide⟩ fourBits_starts).2.1

end Run

end TrackerFpga.EventId
