import TrackerFpga.Cal.Pulses

/-!
# Settings at `0`

The machine compares its counters with `cal_pulse_width - 1`, `pulse_wait - 1` and
`trigger_delay - 1`, and these wrap when the setting is `0`.  Without a `0` among them each pulse
and each gap lasts as long as it is set to, and the trigger comes when it is set to
(`keepsSettings_iff`).  A delay of `0`, which is the default of `CalCtrl`, makes a trigger that
never comes, and a width or a wait of `0` lasts for `2 ^ 32` cycles.
-/

namespace TrackerFpga.Cal

open Clocked

/-- The states in which the output is high. -/
def State.IsHold (s : State) : Prop := s = .calPulseHold ∨ s = .infCalPulseHold

/-- The states of a gap. -/
def State.IsWait (s : State) : Prop := s = .calPulseWait ∨ s = .infCalPulseWait

instance : DecidablePred State.IsHold := fun _ => inferInstanceAs (Decidable (_ ∨ _))

instance : DecidablePred State.IsWait := fun _ => inferInstanceAs (Decidable (_ ∨ _))

section Step

variable {i : Input} {s : Regs}

/-- A pulse begins with the counters at `0`. -/
lemma hold_begins (hs : ¬ s.currentState.IsHold) (hnext : (step i s).currentState.IsHold) :
    (step i s).counter = 0#32 ∧ (step i s).vataTrigDelayCounter = 0#32 := by
  have hclr : (control i s).counterClr = true := by
    have hnext' : (control i s).nextState.IsHold := hnext
    unfold control at hnext' ⊢
    cases hstate : s.currentState with
    | calPulseHold => exact absurd (.inl hstate) hs
    | infCalPulseHold => exact absurd (.inr hstate) hs
    | idle | calPulseWait | infCalPulseWait =>
        rw [hstate] at hnext'
        dsimp only at hnext' ⊢
        split_ifs at hnext' ⊢ <;> first | rfl | exact absurd hnext' (by decide)
  simp [step, hclr]

/-- In a pulse the counter has not reached the width yet, and counts; the other counter counts up
to the delay. -/
lemma hold_goes_on (hs : s.currentState.IsHold) (hnext : (step i s).currentState.IsHold) :
    ¬ s.counter ≥ i.calPulseWidth - 1#32 ∧ (step i s).counter = s.counter + 1#32 ∧
      (step i s).vataTrigDelayCounter =
        if i.vataTriggerEna && decide (s.vataTrigDelayCounter > i.triggerDelay - 1#32) then
          s.vataTrigDelayCounter
        else s.vataTrigDelayCounter + 1#32 := by
  have hreached : ¬ s.counter ≥ i.calPulseWidth - 1#32 := by
    intro hge
    have hnext' : (control i s).nextState.IsHold := hnext
    unfold control at hnext'
    rcases hs with hstate | hstate <;> rw [hstate] at hnext' <;> dsimp only at hnext' <;>
      rw [if_pos hge] at hnext'
    · split_ifs at hnext' <;> exact absurd hnext' (by decide)
    · exact absurd hnext' (by decide)
  have hclr : (control i s).counterClr = false := by
    unfold control
    rcases hs with hstate | hstate <;> rw [hstate] <;> dsimp only <;> rw [if_neg hreached]
  have hcount := counterEna_of_busy i (s := s) (by rcases hs with h | h <;> simp [h])
  refine ⟨hreached, by simp [step, hclr, hcount], ?_⟩
  have hena : (outputs i s).vataTrigDelayCounterEna =
      !(i.vataTriggerEna && decide (s.vataTrigDelayCounter > i.triggerDelay - 1#32)) := by
    unfold outputs
    rcases hs with hstate | hstate <;> rw [hstate] <;> dsimp only <;> split_ifs with hif <;>
      simp [hif]
  simp only [step, hclr, hena, Bool.false_eq_true, if_false]
  split_ifs <;> simp_all

lemma vataTriggerOut_of_hold (hs : s.currentState.IsHold) : (outputs i s).vataTriggerOut =
    (i.vataTriggerEna && decide (s.vataTrigDelayCounter > i.triggerDelay - 1#32)) := by
  unfold outputs
  rcases hs with hstate | hstate <;> rw [hstate] <;> dsimp only <;> split_ifs with hif <;>
    simp [hif]

/-- A gap begins with the counter at `0`. -/
lemma wait_begins (hs : s.currentState.IsHold) (hnext : (step i s).currentState.IsWait) :
    (step i s).counter = 0#32 := by
  have hclr : (control i s).counterClr = true := by
    have hnext' : (control i s).nextState.IsWait := hnext
    unfold control at hnext' ⊢
    rcases hs with hstate | hstate <;> rw [hstate] at hnext' ⊢ <;> dsimp only at hnext' ⊢ <;>
      split_ifs at hnext' ⊢ <;> first | rfl | exact absurd hnext' (by decide)
  simp [step, hclr]

/-- In a gap the counter has not reached the wait yet, and counts. -/
lemma wait_goes_on (hs : s.currentState.IsWait) (hnext : (step i s).currentState.IsWait) :
    ¬ s.counter ≥ i.pulseWait - 1#32 ∧ (step i s).counter = s.counter + 1#32 := by
  have hnext' : (control i s).nextState.IsWait := hnext
  have hstay : ¬ s.counter ≥ i.pulseWait - 1#32 ∧ (control i s).counterClr = false := by
    unfold control at hnext' ⊢
    rcases hs with hstate | hstate <;> rw [hstate] at hnext' ⊢ <;> dsimp only at hnext' ⊢ <;>
      split_ifs at hnext' ⊢ <;> first | exact ⟨‹_›, rfl⟩ | exact absurd hnext' (by decide)
  have hcount := counterEna_of_busy i (s := s) (by rcases hs with h | h <;> simp [h])
  exact ⟨hstay.1, by simp [step, hstay.2, hcount]⟩

end Step

namespace Run

variable {r : Run} {w p d : BitVec 32} {i k s t : ℕ}

/-- `vata_trigger_out` in cycle `t`. -/
def triggerOut (r : Run) (t : ℕ) : Bool := (outputs (r.inp t) (r.regs t)).vataTriggerOut

/-- Pulses and triggers are enabled, with these settings; the number of pulses and `run_pulses` may
do what they like. -/
structure Configured (r : Run) (w p d : BitVec 32) : Prop where
  start : r.start = .reset
  ena : ∀ t, (r.inp t).calPulseEna = true
  triggerEna : ∀ t, (r.inp t).vataTriggerEna = true
  width : ∀ t, (r.inp t).calPulseWidth = w
  wait : ∀ t, (r.inp t).pulseWait = p
  delay : ∀ t, (r.inp t).triggerDelay = d

/-- Cycle `s + k` is the high cycle number `k` of the pulse that begins in cycle `s`. -/
def HighCycle (r : Run) (s k : ℕ) : Prop := Rises r.out s ∧ ∀ i ≤ k, r.out (s + i) = true

/-- Cycle `s + k` is the low cycle number `k` of the gap that begins in cycle `s`, and the train is
running. -/
def GapCycle (r : Run) (s k : ℕ) : Prop :=
  Falls r.out s ∧ ∀ i ≤ k, r.out (s + i) = false ∧ r.state (s + i) ≠ .idle

/-- The trigger comes after the delay, and no pulse and no gap lasts longer than it is set to. -/
structure KeepsSettings (r : Run) (w p d : BitVec 32) : Prop where
  trigger : ∀ s k, r.HighCycle s k → (r.triggerOut (s + k) = true ↔ d.toNat ≤ k)
  width : ∀ s k, r.HighCycle s k → k < max w.toNat 1
  gap : ∀ s k, r.GapCycle s k → k < max p.toNat 1

section Configured

variable (h : r.Configured w p d)
include h

lemma Configured.out_iff : r.out t = true ↔ (r.regs t).currentState.IsHold := by
  rw [Run.out_iff, h.ena t]
  exact and_iff_right rfl

lemma Configured.not_hold_zero : ¬ (r.regs 0).currentState.IsHold := by
  have hzero : r.regs 0 = .reset := h.start
  rw [hzero]
  decide

/-- The counters in a pulse. -/
lemma Configured.highCycle (hw : w ≠ 0#32) (hd : d ≠ 0#32) (hk : r.HighCycle s k) :
    k < w.toNat ∧ (r.regs (s + k)).counter.toNat = k ∧
      (r.regs (s + k)).vataTrigDelayCounter.toNat = min k d.toNat := by
  obtain ⟨hrise, hhigh⟩ := hk
  induction k with
  | zero =>
      have hnow := h.out_iff.mp hrise.1
      cases s with
      | zero => exact absurd hnow h.not_hold_zero
      | succ s =>
          have hbefore : ¬ (r.regs s).currentState.IsHold := by
            rw [← h.out_iff, (rises_succ.mp hrise).2]
            exact Bool.false_ne_true
          rw [r.regs_succ] at hnow
          obtain ⟨hcount, hdelay⟩ := hold_begins hbefore hnow
          rw [Nat.add_zero, r.regs_succ, hcount, hdelay]
          exact ⟨toNat_pos hw, rfl, (Nat.zero_min _).symm⟩
  | succ k ih =>
      obtain ⟨hkw, hcount, hdelay⟩ := ih fun i hi => hhigh i (by omega)
      have hnow := h.out_iff.mp (hhigh k (by omega))
      have hnext := h.out_iff.mp (hhigh (k + 1) le_rfl)
      rw [← Nat.add_assoc, r.regs_succ] at hnext ⊢
      obtain ⟨hmore, hcount', hdelay'⟩ := hold_goes_on hnow hnext
      have hw32 := w.isLt
      have hd32 := d.isLt
      have hone : (1#32).toNat = 1 := rfl
      have hw1 : (w - 1#32).toNat = w.toNat - 1 := BitVec.toNat_sub_of_le (toNat_pos hw)
      have hd1 : (d - 1#32).toNat = d.toNat - 1 := BitVec.toNat_sub_of_le (toNat_pos hd)
      have hdpos := toNat_pos hd
      rw [h.width, ge_iff_le, BitVec.le_def, hw1, hcount] at hmore
      simp only [h.triggerEna, h.delay, Bool.true_and, decide_eq_true_eq, gt_iff_lt, BitVec.lt_def,
        hd1, hdelay] at hdelay'
      refine ⟨by omega, ?_, ?_⟩
      · rw [hcount', BitVec.toNat_add, hcount, hone]
        omega
      · rw [hdelay']
        split_ifs with hover
        · omega
        · rw [BitVec.toNat_add, hdelay, hone]
          omega

/-- The counter in a gap. -/
lemma Configured.gapCycle (hp : p ≠ 0#32) (hk : r.GapCycle s k) :
    k < p.toNat ∧ (r.regs (s + k)).counter.toNat = k := by
  obtain ⟨hfall, hlow⟩ := hk
  have hwait : ∀ i ≤ k, (r.regs (s + i)).currentState.IsWait := by
    intro i hi
    obtain ⟨hout, hbusy⟩ := hlow i hi
    have hhold : ¬ (r.regs (s + i)).currentState.IsHold := by
      rw [← h.out_iff, hout]
      exact Bool.false_ne_true
    rw [state] at hbusy
    revert hbusy hhold
    cases (r.regs (s + i)).currentState <;> decide
  clear hlow
  induction k with
  | zero =>
      obtain ⟨s, rfl⟩ := Nat.exists_eq_succ_of_ne_zero hfall.2.1.ne'
      have hbefore := h.out_iff.mp (falls_succ.mp hfall).2
      have hnow := hwait 0 le_rfl
      rw [Nat.add_zero, r.regs_succ] at hnow ⊢
      rw [wait_begins hbefore hnow]
      exact ⟨toNat_pos hp, rfl⟩
  | succ k ih =>
      obtain ⟨hkp, hcount⟩ := ih fun i hi => hwait i (by omega)
      have hnow := hwait k (by omega)
      have hnext := hwait (k + 1) le_rfl
      rw [← Nat.add_assoc, r.regs_succ] at hnext ⊢
      obtain ⟨hmore, hcount'⟩ := wait_goes_on hnow hnext
      have hp32 := p.isLt
      have hp1 : (p - 1#32).toNat = p.toNat - 1 := BitVec.toNat_sub_of_le (toNat_pos hp)
      rw [h.wait, ge_iff_le, BitVec.le_def, hp1, hcount] at hmore
      refine ⟨by omega, ?_⟩
      rw [hcount', BitVec.toNat_add, hcount, show (1#32).toNat = 1 from rfl]
      omega

lemma Configured.keepsSettings (hw : w ≠ 0#32) (hp : p ≠ 0#32) (hd : d ≠ 0#32) :
    r.KeepsSettings w p d where
  trigger s k hk := by
    obtain ⟨-, -, hdelay⟩ := h.highCycle hw hd hk
    have hdpos := toNat_pos hd
    have hd1 : (d - 1#32).toNat = d.toNat - 1 := BitVec.toNat_sub_of_le hdpos
    rw [triggerOut, vataTriggerOut_of_hold (h.out_iff.mp (hk.2 k le_rfl)), h.triggerEna, h.delay,
      Bool.true_and, decide_eq_true_eq, gt_iff_lt, BitVec.lt_def, hd1, hdelay]
    omega
  width s k hk := lt_max_of_lt_left (h.highCycle hw hd hk).1
  gap s k hk := lt_max_of_lt_left (h.gapCycle hp hk).1

end Configured

/-! ## A setting at `0` -/

/-- An infinite train with these settings, from an edge in cycle `0`. -/
def endless (w p d : BitVec 32) : Run where
  start := .reset
  inp _ :=
    { runPulses := true, calPulseEna := true, vataTriggerEna := true, calPulseWidth := w
      triggerDelay := d, nPulsesIn := 0#32, pulseWait := p }

lemma endless_configured : (endless w p d).Configured w p d :=
  ⟨rfl, fun _ => rfl, fun _ => rfl, fun _ => rfl, fun _ => rfl, fun _ => rfl⟩

lemma endless_rises : Rises (endless w p d).out 2 := ⟨rfl, .inr rfl⟩

/-- Its first pulse lasts for `w` cycles. -/
lemma endless_hold (hw : w ≠ 0#32) (hk : k < w.toNat) :
    ((endless w p d).regs (2 + k)).train = (.infCalPulseHold, BitVec.ofNat 32 k, 0#32) := by
  induction k with
  | zero => rfl
  | succ k ih =>
      have hnext := train_of_infHold (i := (endless w p d).inp (2 + k)) (ih (by omega))
      have hmore : ¬ BitVec.ofNat 32 k ≥ w - 1#32 :=
        mt (ofNat_ge_sub_one_iff hw (by omega)).mp (by omega)
      rwa [ofNat_succ, ← regs_succ, endless_configured.width, if_neg hmore] at hnext

/-- With a width of `0` the first pulse does not end. -/
lemma endless_width : ¬ (endless 0#32 p d).KeepsSettings 0#32 p d := by
  intro hkeeps
  have hnext : ((endless 0#32 p d).regs (2 + 1)).train = (.infCalPulseHold, 1#32, 0#32) :=
    train_of_infHold (i := (endless 0#32 p d).inp 2) (s := (endless 0#32 p d).regs 2) rfl
  have hlong : (endless 0#32 p d).HighCycle 2 1 := by
    refine ⟨endless_rises, fun i hi => ?_⟩
    obtain rfl | rfl : i = 0 ∨ i = 1 := by omega
    · exact endless_rises.1
    · exact Run.out_iff.mpr ⟨rfl, .inr (state_of_train hnext)⟩
  exact absurd (hkeeps.width 2 1 hlong) (by decide)

/-- With a wait of `0` the first gap does not end. -/
lemma endless_wait (hw : w ≠ 0#32) : ¬ (endless w 0#32 d).KeepsSettings w 0#32 d := by
  intro hkeeps
  have hpos := toNat_pos hw
  obtain ⟨m, hm⟩ := Nat.exists_eq_add_of_lt hpos
  have hlast := endless_hold (p := 0#32) (d := d) hw (k := m) (by omega)
  have hgap := train_of_infHold (i := (endless w 0#32 d).inp (2 + m)) hlast
  have hdone : BitVec.ofNat 32 m ≥ w - 1#32 :=
    (ofNat_ge_sub_one_iff hw (by omega)).mpr (by omega)
  rw [← regs_succ, endless_configured.width, if_pos hdone] at hgap
  have hgap' := train_of_infWait (i := (endless w 0#32 d).inp (2 + m + 1)) hgap rfl
  rw [← regs_succ] at hgap'
  have hlow : ∀ {t}, (endless w 0#32 d).state t = .infCalPulseWait →
      (endless w 0#32 d).out t = false ∧ (endless w 0#32 d).state t ≠ .idle := by
    intro t hstate
    rw [← Bool.not_eq_true, Run.out_iff, hstate]
    simp
  have hstate : (endless w 0#32 d).state (2 + m + 1) = .infCalPulseWait := state_of_train hgap
  have hlong : (endless w 0#32 d).GapCycle (2 + m + 1) 1 := by
    refine ⟨falls_succ.mpr ⟨(hlow hstate).1, ?_⟩, fun i hi => ?_⟩
    · exact Run.out_iff.mpr ⟨rfl, .inr (state_of_train hlast)⟩
    · obtain rfl | rfl : i = 0 ∨ i = 1 := by omega
      · exact hlow hstate
      · exact hlow (state_of_train hgap')
  exact absurd (hkeeps.gap _ 1 hlong) (by decide)

/-- With a delay of `0` there is no trigger in the first cycle. -/
lemma endless_delay : ¬ (endless w p 0#32).KeepsSettings w p 0#32 := by
  intro hkeeps
  have hfirst : (endless w p 0#32).HighCycle 2 0 := by
    refine ⟨endless_rises, fun i hi => ?_⟩
    obtain rfl := Nat.le_zero.mp hi
    rfl
  have htrigger : (endless w p 0#32).triggerOut 2 = true :=
    (hkeeps.trigger 2 0 hfirst).mpr le_rfl
  have hnone : (endless w p 0#32).triggerOut 2 = false := rfl
  exact absurd (htrigger.symm.trans hnone) (by decide)

/-- **Settings.**  The machine keeps these settings in every run exactly when none of them is
`0`. -/
theorem keepsSettings_iff (w p d : BitVec 32) :
    (∀ r : Run, r.Configured w p d → r.KeepsSettings w p d) ↔
      w ≠ 0#32 ∧ p ≠ 0#32 ∧ d ≠ 0#32 := by
  constructor
  · intro hall
    have hw : w ≠ 0#32 := by
      rintro rfl
      exact endless_width (hall _ endless_configured)
    refine ⟨hw, ?_, ?_⟩
    · rintro rfl
      exact endless_wait hw (hall _ endless_configured)
    · rintro rfl
      exact endless_delay (hall _ endless_configured)
  · rintro ⟨hw, hp, hd⟩ r h
    exact h.keepsSettings hw hp hd

/-- Not with the settings that `CalCtrl` starts with, a width of `200`, a wait of `1000` and a
delay of `0`: the trigger does not come. -/
theorem default_settings_not_kept : ¬ ∀ (w p d : BitVec 32) (r : Run), r.Configured w p d →
    r.KeepsSettings w p d := by
  intro hclaim
  exact endless_delay (hclaim 200#32 1000#32 0#32 _ endless_configured)

end Run

end TrackerFpga.Cal
