import Mathlib.Algebra.BigOperators.Intervals
import Mathlib.Algebra.BigOperators.Ring.Finset
import TrackerFpga.Vata.Timeout

/-!
# When a packet leaves

The states of an acquisition last for fixed numbers of cycles, but for the hold delay and the two
loops that the ASIC ends.  `minLeft` is the number of cycles before the first word if it ends both
at once.  No cycle decreases it by more than one (`minLeft_step`), so an acquisition that nothing
stops is under way for `559` cycles and the hold time at least (`acquiring_of_accepts`).  While the
counters are where they belong (`InTime`) a cycle decreases it by exactly one, unless it goes back
to the start of a loop: so the first word leaves exactly `560` cycles, the hold time, ten cycles for
each further clock of the conversion and sixty-five for each further clock of the readout after the
trigger (`latency_exact`).
-/

namespace TrackerFpga.Vata

open Clocked

/-- The cycles left before the first word, with the hold time `h`, if the conversion ends at the
first clock and one bit is read out. -/
def minLeft (h : ℕ) (s : Regs) : ℕ :=
  let c := s.stateCounter.toNat
  let i := s.regIndx.toNat
  match s.currentState with
  | .acqDelay => (h + 1 - c) + 558
  | .acqHold => (35 - c) + 523
  | .acqLowerI1 => (2 - c) + 521
  | .acqSetModeM4 => 521
  | .convLatchM4 => 520
  | .convRaiseI3 => (10 - c) + 509
  | .convLowerI4 => (15 - c) + 494
  | .convClkHi => (5 - c) + 489
  | .convClkLo => (5 - c) + 494
  | .convSetModeM5 => (5 - c) + 484
  | .roLatchModeM5 => (40 - c) + 444
  | .roClkHi => (25 - c) + 41 + (378 - i)
  | .roReadO6 => (8 - c) + 33 + (378 - i)
  | .roClkLo => (33 - c) + (379 - i)
  | .roShiftData => 1 + (379 - i)
  | _ => 0

/-- The two counters are in the range of the state. -/
def InTime (h : ℕ) (s : Regs) : Prop :=
  let c := s.stateCounter.toNat
  let i := s.regIndx.toNat
  match s.currentState with
  | .acqDelay => c ≤ h
  | .acqHold => c ≤ 34
  | .acqLowerI1 => c ≤ 1
  | .convRaiseI3 => c ≤ 9
  | .convLowerI4 => c ≤ 14
  | .convClkHi | .convClkLo | .convSetModeM5 => c ≤ 4
  | .roLatchModeM5 => c ≤ 39
  | .roClkHi => c ≤ 24 ∧ i ≤ 378
  | .roReadO6 => c ≤ 7 ∧ i ≤ 378
  | .roClkLo => c ≤ 32 ∧ 1 ≤ i ∧ i ≤ 379
  | .roShiftData => i ≤ 379
  | _ => True

/-- What going back to the start of a loop adds. -/
def loopCost : State → State → ℕ
  | .convClkHi, .convClkLo => 10
  | .roClkLo, .roClkHi => 65
  | _, _ => 0

lemma minLeft_of_sending {s : Regs} {k h : ℕ} (hs : s.phase = .sending k) : minLeft h s = 0 := by
  obtain ⟨_, hstate⟩ := phase_eq_sending_iff.mp hs
  rw [minLeft, hstate]

section Step

variable {i : Input} {s : Regs} {h : ℕ} (hacq : s.phase = .acquiring)
  (hforce : i.forceFsmIdle = false) (habort : abortDaq s = false) (hhold : i.holdTime.toNat = h)
include hacq hforce habort hhold

/-- A cycle of an acquisition that nothing stops takes one cycle off, or adds some. -/
lemma minLeft_step : minLeft h s ≤ minLeft h (step i s) + 1 := by
  have hcounter := s.stateCounter.isLt
  have hindx := s.regIndx.isLt
  unfold Regs.phase at hacq
  cases hs : s.currentState
  all_goals simp only [hs, State.phase, reduceCtorEq] at hacq
  all_goals
    simp only [minLeft, hs, step_currentState, step_stateCounter, step_regIndx, control, onForce,
      onAbort, onCount, hforce, habort, Bool.false_eq_true, if_false]
  all_goals
    simp only [ge_iff_le, BitVec.le_def, BitVec.toNat_ofNat, Nat.reducePow, Nat.reduceMod, hhold]
  all_goals first
    | omega
    | (split_ifs <;> simp_all only [nextRegIndx, if_true, if_false, Bool.false_eq_true,
        BitVec.toNat_add, BitVec.toNat_ofNat, Nat.reducePow, Nat.reduceMod] <;> omega)

/-- With the counters in range it takes exactly one cycle off, but for what a loop adds.  The ASIC
has to end the readout with bit 378. -/
lemma minLeft_step_exact (hin : InTime h s)
    (hlast : s.currentState = .roClkLo → s.regIndx = 379#10 → i.vataO5 = true) :
    InTime h (step i s) ∧ minLeft h (step i s) + 1 =
      minLeft h s + loopCost s.currentState (step i s).currentState := by
  have hcounter := s.stateCounter.isLt
  have hindx := s.regIndx.isLt
  unfold Regs.phase at hacq
  cases hs : s.currentState
  all_goals simp only [hs, State.phase, reduceCtorEq] at hacq
  all_goals
    simp only [minLeft, InTime, loopCost, hs, step_currentState, step_stateCounter, step_regIndx,
      control, onForce, onAbort, onCount, hforce, habort, Bool.false_eq_true, if_false] at hin ⊢
  all_goals try
    simp only [ge_iff_le, BitVec.le_def, BitVec.toNat_eq, BitVec.toNat_ofNat, Nat.reducePow,
      Nat.reduceMod, hhold]
  all_goals simp only [hs, forall_const, reduceCtorEq, false_implies, BitVec.toNat_eq,
    BitVec.toNat_ofNat, Nat.reducePow, Nat.reduceMod] at hlast
  all_goals try split_ifs
  all_goals
    simp_all only [nextRegIndx, if_true, if_false, Bool.false_eq_true, BitVec.toNat_add,
      BitVec.toNat_ofNat, Nat.reducePow, Nat.reduceMod, true_and, and_true, imp_false]
  all_goals omega

end Step

/-! ## Runs -/

namespace Run

variable {r : Run} {a b t u w h : ℕ}

/-- The conversion goes on after the clock that ends in cycle `u`. -/
def ConvertsOn (r : Run) (u : ℕ) : Prop :=
  (r.regs u).currentState = .convClkHi ∧ (r.regs (u + 1)).currentState = .convClkLo

/-- The readout goes on after the clock that ends in cycle `u`. -/
def ReadsOn (r : Run) (u : ℕ) : Prop :=
  (r.regs u).currentState = .roClkLo ∧ (r.regs (u + 1)).currentState = .roClkHi

instance : DecidablePred r.ConvertsOn := fun _ => inferInstanceAs (Decidable (_ ∧ _))

instance : DecidablePred r.ReadsOn := fun _ => inferInstanceAs (Decidable (_ ∧ _))

lemma loopCost_eq (r : Run) (u : ℕ) :
    loopCost (r.regs u).currentState (r.regs (u + 1)).currentState =
      10 * (if r.ConvertsOn u then 1 else 0) + 65 * (if r.ReadsOn u then 1 else 0) := by
  unfold loopCost
  split
  · next hs hs' =>
      have hno : ¬ r.ReadsOn u := fun hreads => absurd (hs.symm.trans hreads.1) (by decide)
      rw [if_pos ⟨hs, hs'⟩, if_neg hno]
  · next hs hs' =>
      have hno : ¬ r.ConvertsOn u := fun hconverts =>
        absurd (hs.symm.trans hconverts.1) (by decide)
      rw [if_neg hno, if_pos ⟨hs, hs'⟩]
  · next hconverts hreads =>
      have hno : ¬ r.ConvertsOn u := fun h => hconverts h.1 h.2
      have hno' : ¬ r.ReadsOn u := fun h => hreads h.1 h.2
      rw [if_neg hno, if_neg hno']

/-- An acquisition that was accepted begins with the counter at `0`. -/
lemma minLeft_of_accepts (h : ℕ) (ha : r.Accepts a) :
    minLeft h (r.regs (a + 1)) = h + 559 ∧ InTime h (r.regs (a + 1)) := by
  obtain ⟨hidle, htrig⟩ := ha
  have hstate : (r.regs a).currentState = .idle := hidle
  have hcontrol : control (r.inp a) (r.regs a) =
      { nextState := .acqDelay, stateCounterClr := true, setPktData := true } := by
    simp [control, hstate, htrig]
  rw [regs_succ, minLeft, InTime]
  simp [step, hcontrol]

/-- **How long an acquisition lasts.**  One that nothing stops is under way for `559` cycles and
the hold time at least. -/
lemma acquiring_of_accepts (ha : r.Accepts a) (hlong : b ≤ a + 559 + h)
    (hgo : ∀ u, a < u → u < b → (r.inp u).forceFsmIdle = false ∧ abortDaq (r.regs u) = false ∧
      (r.inp u).holdTime.toNat = h) (hau : a < u) (hub : u ≤ b) : r.phase u = .acquiring := by
  have hleft : r.phase u = .acquiring ∧ h + 559 ≤ minLeft h (r.regs u) + (u - (a + 1)) := by
    refine invariant_between (a := a + 1) (b := b)
      (P := fun u => r.phase u = .acquiring ∧ h + 559 ≤ minLeft h (r.regs u) + (u - (a + 1)))
      ⟨step_of_idle (idle_iff.mp ha.1) ha.2, by rw [(minLeft_of_accepts h ha).1]; omega⟩ ?_ hau hub
    rintro v hv hvb ⟨hacq, hleft⟩
    obtain ⟨hforce, habort, hhold⟩ := hgo v (by omega) hvb
    have hstep : minLeft h (r.regs v) ≤ minLeft h (r.regs (v + 1)) + 1 :=
      minLeft_step hacq hforce habort hhold
    refine ⟨?_, by omega⟩
    -- the first word would come too early
    rcases step_of_acquiring hacq hforce habort with hnext | hnext
    · exact hnext
    · have hnone : minLeft h (r.regs (v + 1)) = 0 := minLeft_of_sending hnext
      omega
  exact hleft.1

/-- **When the first word leaves.**  An acquisition that is not stopped sends its first word exactly
`560` cycles and the hold time after the cycle in which it was accepted, and ten cycles later for
each further clock of the conversion, and sixty-five for each further clock of the readout. -/
theorem latency_exact (hs : r.SendingSince a w 0)
    (hhold : ∀ u, a < u → u < w → (r.inp u).holdTime.toNat = h)
    (hlast : ∀ u, a < u → u < w → (r.regs u).currentState = .roClkLo →
      (r.regs u).regIndx = 379#10 → (r.inp u).vataO5 = true) :
    w = a + 560 + h + 10 * ((Finset.Ico (a + 1) w).filter r.ConvertsOn).card +
      65 * ((Finset.Ico (a + 1) w).filter r.ReadsOn).card := by
  have hgo : ∀ u, a < u → u < w → (r.inp u).forceFsmIdle = false ∧ abortDaq (r.regs u) = false := by
    intro u hu huw
    by_contra hstop
    rw [← Bool.not_eq_true, ← Bool.not_eq_true, ← not_or, not_not] at hstop
    have hnext : r.phase (u + 1) = .returning := step_of_stopped (hs.acquiring u hu huw) hstop
    rcases Nat.lt_succ_iff_lt_or_eq.mp (Nat.lt_succ_of_le (Nat.succ_le_of_lt huw)) with hlt | heq
    · simp [hs.acquiring (u + 1) (by omega) hlt] at hnext
    · have hfirst := hs.sending 0 le_rfl
      rw [Nat.add_zero, ← heq] at hfirst
      simp [hfirst] at hnext
  have hsum : InTime h (r.regs w) ∧ minLeft h (r.regs w) + (w - (a + 1)) = h + 559 +
      ∑ u ∈ Finset.Ico (a + 1) w,
        loopCost (r.regs u).currentState (r.regs (u + 1)).currentState := by
    refine invariant_between (a := a + 1) (b := w)
      (P := fun v => InTime h (r.regs v) ∧ minLeft h (r.regs v) + (v - (a + 1)) = h + 559 +
        ∑ u ∈ Finset.Ico (a + 1) v,
          loopCost (r.regs u).currentState (r.regs (u + 1)).currentState)
      ⟨(minLeft_of_accepts h hs.accepts).2, by simp [(minLeft_of_accepts h hs.accepts).1]⟩ ?_
      hs.lt le_rfl
    rintro v hv hvw ⟨hin, heq⟩
    obtain ⟨hforce, habort⟩ := hgo v hv hvw
    obtain ⟨hin', hstep⟩ := minLeft_step_exact (hs.acquiring v hv hvw) hforce habort
      (hhold v hv hvw) hin (hlast v hv hvw)
    rw [Finset.sum_Ico_succ_top hv, ← regs_succ] at *
    exact ⟨hin', by omega⟩
  have hnone : minLeft h (r.regs w) = 0 := minLeft_of_sending (hs.sending 0 le_rfl)
  have hcosts : ∑ u ∈ Finset.Ico (a + 1) w,
      loopCost (r.regs u).currentState (r.regs (u + 1)).currentState =
        10 * ((Finset.Ico (a + 1) w).filter r.ConvertsOn).card +
          65 * ((Finset.Ico (a + 1) w).filter r.ReadsOn).card := by
    simp only [loopCost_eq, Finset.sum_add_distrib, ← Finset.mul_sum, Finset.card_filter]
  have haw := hs.lt
  omega

/-- One forced trigger, a hold time of `7`, and an ASIC that takes some time to convert and reads
out more than one bit. -/
def lateAsic : Run := ofReset fun t =>
  { Input.quiet with
    forceTrigger := decide (t = 0), forceTriggerEna := true, holdTime := 7#16
    vataO5 := decide (120 ≤ t ∧ t ≤ 160 ∨ 300 ≤ t) }

/-- Its first word leaves in cycle `682`, after five further clocks of the conversion and one of the
readout. -/
theorem lateAsic_latency :
    ((Finset.Ico (0 + 1) 682).filter lateAsic.ConvertsOn).card = 5 ∧
      ((Finset.Ico (0 + 1) 682).filter lateAsic.ReadsOn).card = 1 := by
  have hrun : (∀ u < 682, 0 < u → lateAsic.phase u = .acquiring ∧
      ((lateAsic.regs u).currentState = .roClkLo → (lateAsic.regs u).regIndx = 379#10 →
        (lateAsic.inp u).vataO5 = true)) ∧ lateAsic.phase 682 = .sending 0 := by
    decide +kernel
  have hsending : lateAsic.SendingSince 0 682 0 :=
    .of_first (by decide) (by decide) (fun u hu huw => (hrun.1 u huw hu).1) hrun.2
  have hlatency := latency_exact (h := 7) hsending (fun _ _ _ => rfl)
    fun u hu huw => (hrun.1 u huw hu).2
  omega

end Run

end TrackerFpga.Vata
