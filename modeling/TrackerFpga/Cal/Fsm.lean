import TrackerFpga.Lib.Clocked
import Mathlib.Data.Nat.Count

/-!
# `pulse_trigger_fsm`

The machine that sends calibration pulses, and triggers for the VATAs, translated from
`pulse_trigger_fsm.vhd` with its 32-bit ports.  It starts on a rising edge of `run_pulses`, which
it sees one cycle later and only in `IDLE`.  With `n_pulses_in` at `0` it goes around the loop of
the states `INF_CAL_PULSE_HOLD` and `INF_CAL_PULSE_WAIT` until `run_pulses` is low in a wait, and
else around that of `CAL_PULSE_HOLD` and `CAL_PULSE_WAIT`, with a count of the pulses.
-/

namespace TrackerFpga.Cal

open Clocked

/-- The states. -/
inductive State
  | idle
  | calPulseHold
  | calPulseWait
  | infCalPulseHold
  | infCalPulseWait
  deriving DecidableEq, Repr

/-- The input ports. -/
structure Input where
  runPulses : Bool
  calPulseEna : Bool
  vataTriggerEna : Bool
  calPulseWidth : BitVec 32
  triggerDelay : BitVec 32
  nPulsesIn : BitVec 32
  pulseWait : BitVec 32
  deriving DecidableEq, Repr

/-- The registers. -/
structure Regs where
  currentState : State
  lastRunPulses : Bool
  startCalPulses : Bool
  counter : BitVec 32
  vataTrigDelayCounter : BitVec 32
  pulseCount : BitVec 32
  deriving DecidableEq, Repr

/-- The registers under `rst_n = '0'`; `start_cal_pulses` is not reset, but has an initial value. -/
def Regs.reset : Regs where
  currentState := .idle
  lastRunPulses := false
  startCalPulses := false
  counter := 0#32
  vataTrigDelayCounter := 0#32
  pulseCount := 0#32

/-- The signals of `p_STATE_XFER`; a branch raises the ones it names. -/
structure Control where
  nextState : State
  counterClr : Bool := false
  pulseCountClr : Bool := false
  incPulseCount : Bool := false
  deriving DecidableEq, Repr

/-- `p_STATE_XFER`. -/
def control (i : Input) (s : Regs) : Control :=
  match s.currentState with
  | .idle =>
      if s.startCalPulses then
        if i.nPulsesIn = 0#32 then { nextState := .infCalPulseHold, counterClr := true }
        else { nextState := .calPulseHold, counterClr := true, pulseCountClr := true }
      else { nextState := .idle }
  | .calPulseHold =>
      if s.counter ≥ i.calPulseWidth - 1#32 then
        if s.pulseCount ≥ i.nPulsesIn - 1#32 then { nextState := .idle }
        else { nextState := .calPulseWait, counterClr := true, incPulseCount := true }
      else { nextState := .calPulseHold }
  | .calPulseWait =>
      if s.counter ≥ i.pulseWait - 1#32 then { nextState := .calPulseHold, counterClr := true }
      else { nextState := .calPulseWait }
  | .infCalPulseHold =>
      if s.counter ≥ i.calPulseWidth - 1#32 then
        { nextState := .infCalPulseWait, counterClr := true }
      else { nextState := .infCalPulseHold }
  | .infCalPulseWait =>
      if !i.runPulses then { nextState := .idle }
      else if s.counter ≥ i.pulseWait - 1#32 then
        { nextState := .infCalPulseHold, counterClr := true }
      else { nextState := .infCalPulseWait }

/-- The signals of `p_OUTPUTS`; a branch raises the ones it names. -/
structure Output where
  counterEna : Bool := false
  vataTrigDelayCounterEna : Bool := false
  calPulseTriggerOut : Bool := false
  vataTriggerOut : Bool := false
  deriving DecidableEq, Repr

/-- `p_OUTPUTS`. -/
def outputs (i : Input) (s : Regs) : Output :=
  match s.currentState with
  | .calPulseHold | .infCalPulseHold =>
      if i.vataTriggerEna && decide (s.vataTrigDelayCounter > i.triggerDelay - 1#32) then
        { counterEna := true, calPulseTriggerOut := i.calPulseEna, vataTriggerOut := true }
      else
        { counterEna := true, vataTrigDelayCounterEna := true, calPulseTriggerOut := i.calPulseEna }
  | .calPulseWait | .infCalPulseWait => { counterEna := true }
  | .idle => {}

/-- One clock cycle. -/
def step (i : Input) (s : Regs) : Regs :=
  let c := control i s
  let o := outputs i s
  { currentState := c.nextState
    lastRunPulses := i.runPulses
    startCalPulses := !s.lastRunPulses && i.runPulses
    counter :=
      if c.counterClr then 0#32 else if o.counterEna then s.counter + 1#32 else s.counter
    vataTrigDelayCounter :=
      if c.counterClr then 0#32
      else if o.vataTrigDelayCounterEna then s.vataTrigDelayCounter + 1#32
      else s.vataTrigDelayCounter
    pulseCount :=
      if c.pulseCountClr then 0#32
      else if c.incPulseCount then s.pulseCount + 1#32
      else s.pulseCount }

section Outputs

variable (i : Input) {s : Regs}

lemma counterEna_of_busy (h : s.currentState ≠ .idle) : (outputs i s).counterEna = true := by
  unfold outputs
  split
  · split_ifs <;> rfl
  · split_ifs <;> rfl
  · rfl
  · rfl
  · exact absurd ‹_› h

/-- The output is high in the two hold states. -/
lemma calPulseTriggerOut_iff : (outputs i s).calPulseTriggerOut = true ↔
    i.calPulseEna = true ∧
      (s.currentState = .calPulseHold ∨ s.currentState = .infCalPulseHold) := by
  unfold outputs
  cases s.currentState with
  | idle => simp
  | calPulseHold => split_ifs <;> simp
  | calPulseWait => simp
  | infCalPulseHold => split_ifs <;> simp
  | infCalPulseWait => simp

end Outputs

/-- The registers that a train depends on. -/
def Regs.train (s : Regs) : State × BitVec 32 × BitVec 32 :=
  (s.currentState, s.counter, s.pulseCount)

section Step

variable {i : Input} {s : Regs} {c n : BitVec 32}

/-- A pulse lasts until the counter is at the width; after the last one the train is over. -/
lemma train_of_hold (h : s.train = (.calPulseHold, c, n)) : (step i s).train =
    if c ≥ i.calPulseWidth - 1#32 then
      if n ≥ i.nPulsesIn - 1#32 then (.idle, c + 1#32, n) else (.calPulseWait, 0#32, n + 1#32)
    else (.calPulseHold, c + 1#32, n) := by
  obtain ⟨hstate, rfl, rfl⟩ :
      s.currentState = .calPulseHold ∧ s.counter = c ∧ s.pulseCount = n := by
    simpa [Regs.train] using h
  have hcount := counterEna_of_busy i (s := s) (by simp [hstate])
  simp only [step, Regs.train, control, hstate, hcount]
  by_cases hreached : s.counter ≥ i.calPulseWidth - 1#32
  · by_cases hall : s.pulseCount ≥ i.nPulsesIn - 1#32
    · rw [if_pos hreached, if_pos hall, if_pos hreached, if_pos hall]
      rfl
    · rw [if_pos hreached, if_neg hall, if_pos hreached, if_neg hall]
      rfl
  · rw [if_neg hreached, if_neg hreached]
    rfl

/-- A gap lasts until the counter is at the wait. -/
lemma train_of_wait (h : s.train = (.calPulseWait, c, n)) : (step i s).train =
    if c ≥ i.pulseWait - 1#32 then (.calPulseHold, 0#32, n)
    else (.calPulseWait, c + 1#32, n) := by
  obtain ⟨hstate, rfl, rfl⟩ :
      s.currentState = .calPulseWait ∧ s.counter = c ∧ s.pulseCount = n := by
    simpa [Regs.train] using h
  have hcount := counterEna_of_busy i (s := s) (by simp [hstate])
  simp only [step, Regs.train, control, hstate, hcount]
  by_cases hreached : s.counter ≥ i.pulseWait - 1#32
  · rw [if_pos hreached, if_pos hreached]
    rfl
  · rw [if_neg hreached, if_neg hreached]
    rfl

/-- A start in `IDLE`. -/
lemma train_of_start (h : s.currentState = .idle) (hstart : s.startCalPulses = true)
    (hn : i.nPulsesIn ≠ 0#32) : (step i s).train = (.calPulseHold, 0#32, 0#32) := by
  simp [step, Regs.train, control, h, hstart, hn]

/-- A pulse of an infinite train lasts as long, and is followed by a gap. -/
lemma train_of_infHold (h : s.train = (.infCalPulseHold, c, n)) : (step i s).train =
    if c ≥ i.calPulseWidth - 1#32 then (.infCalPulseWait, 0#32, n)
    else (.infCalPulseHold, c + 1#32, n) := by
  obtain ⟨hstate, rfl, rfl⟩ :
      s.currentState = .infCalPulseHold ∧ s.counter = c ∧ s.pulseCount = n := by
    simpa [Regs.train] using h
  have hcount := counterEna_of_busy i (s := s) (by simp [hstate])
  simp only [step, Regs.train, control, hstate, hcount]
  by_cases hreached : s.counter ≥ i.calPulseWidth - 1#32
  · rw [if_pos hreached, if_pos hreached]
    rfl
  · rw [if_neg hreached, if_neg hreached]
    rfl

/-- A gap of an infinite train in which `run_pulses` is high. -/
lemma train_of_infWait (h : s.train = (.infCalPulseWait, c, n)) (hrun : i.runPulses = true) :
    (step i s).train =
      if c ≥ i.pulseWait - 1#32 then (.infCalPulseHold, 0#32, n)
      else (.infCalPulseWait, c + 1#32, n) := by
  obtain ⟨hstate, rfl, rfl⟩ :
      s.currentState = .infCalPulseWait ∧ s.counter = c ∧ s.pulseCount = n := by
    simpa [Regs.train] using h
  have hcount := counterEna_of_busy i (s := s) (by simp [hstate])
  simp only [step, Regs.train, control, hstate, hcount, hrun, Bool.not_true, Bool.false_eq_true,
    if_false]
  by_cases hreached : s.counter ≥ i.pulseWait - 1#32
  · rw [if_pos hreached, if_pos hreached]
    rfl
  · rw [if_neg hreached, if_neg hreached]
    rfl

/-- A start in `IDLE` without a number of pulses. -/
lemma train_of_infStart (h : s.currentState = .idle) (hstart : s.startCalPulses = true)
    (hn : i.nPulsesIn = 0#32) :
    (step i s).train = (.infCalPulseHold, 0#32, s.pulseCount) := by
  simp [step, Regs.train, control, h, hstart, hn]

lemma idle_of_no_start (h : s.currentState = .idle) (hstart : s.startCalPulses = false) :
    (step i s).currentState = .idle := by
  simp [step, control, h, hstart]

end Step

/-! ## Runs -/

/-- A run of the machine. -/
structure Run where
  start : Regs
  inp : ℕ → Input

namespace Run

variable (r : Run)

/-- The registers in cycle `t`. -/
def regs (t : ℕ) : Regs := run step r.start r.inp t

/-- The state in cycle `t`. -/
def state (t : ℕ) : State := (r.regs t).currentState

/-- `cal_pulse_trigger_out` in cycle `t`. -/
def out (t : ℕ) : Bool := (outputs (r.inp t) (r.regs t)).calPulseTriggerOut

/-- A finite train is running in cycle `t`. -/
def Running (t : ℕ) : Prop := r.state t = .calPulseHold ∨ r.state t = .calPulseWait

/-- A pulse of a finite train is complete with cycle `t`. -/
def PulseEnds (t : ℕ) : Prop :=
  r.state t = .calPulseHold ∧ r.out t = true ∧ r.out (t + 1) = false

instance : DecidablePred r.Running := fun _ => inferInstanceAs (Decidable (_ ∨ _))

instance : DecidablePred r.PulseEnds := fun _ => inferInstanceAs (Decidable (_ ∧ _))

/-- The pulses of finite trains that are complete with a cycle from `a` on and before `b`. -/
def pulses (a b : ℕ) : ℕ := Nat.count (fun k => r.PulseEnds (a + k)) (b - a)

lemma regs_succ (t : ℕ) : r.regs (t + 1) = step (r.inp t) (r.regs t) := run_succ ..

variable {r} {a b c t : ℕ}

@[simp] lemma pulses_self : r.pulses a a = 0 := by simp [pulses]

lemma pulses_succ (h : a ≤ b) :
    r.pulses a (b + 1) = r.pulses a b + if r.PulseEnds b then 1 else 0 := by
  rw [pulses, Nat.succ_sub h, Nat.count_succ, Nat.add_sub_cancel' h, pulses]

lemma out_iff : r.out t = true ↔ (r.inp t).calPulseEna = true ∧
    (r.state t = .calPulseHold ∨ r.state t = .infCalPulseHold) := calPulseTriggerOut_iff _

lemma state_of_train {s : State} {c n : BitVec 32} (h : (r.regs t).train = (s, c, n)) :
    r.state t = s := congrArg Prod.fst h

lemma lastRunPulses_succ : (r.regs (t + 1)).lastRunPulses = (r.inp t).runPulses := by
  rw [regs_succ]
  rfl

lemma startCalPulses_succ : (r.regs (t + 1)).startCalPulses =
    (!(r.regs t).lastRunPulses && (r.inp t).runPulses) := by
  rw [regs_succ]
  rfl

lemma state_succ (r : Run) (t : ℕ) :
    r.state (t + 1) = (control (r.inp t) (r.regs t)).nextState := by
  rw [state, regs_succ]
  rfl

/-- A finite train begins only in `IDLE`, with the start flag up and a number of pulses. -/
lemma running_succ (h : ¬ r.Running t) :
    r.Running (t + 1) ↔ r.state t = .idle ∧ (r.regs t).startCalPulses = true ∧
      (r.inp t).nPulsesIn ≠ 0#32 := by
  have hnext := r.state_succ t
  unfold Running state at h ⊢
  rw [← state, hnext, control]
  cases hstate : (r.regs t).currentState with
  | idle => split_ifs <;> simp_all
  | calPulseHold => exact absurd (.inl hstate) h
  | calPulseWait => exact absurd (.inr hstate) h
  | infCalPulseHold => split_ifs <;> simp
  | infCalPulseWait => split_ifs <;> simp

/-- An infinite train goes on in a pulse, and in a gap as long as the bit is set. -/
lemma infinite_succ (h : r.state t = .infCalPulseHold ∨
      r.state t = .infCalPulseWait ∧ (r.inp t).runPulses = true) :
    r.state (t + 1) = .infCalPulseHold ∨ r.state (t + 1) = .infCalPulseWait := by
  rw [state_succ, control]
  unfold state at h
  rcases h with hhold | ⟨hwait, hrun⟩
  · rw [hhold]
    split_ifs <;> simp
  · rw [hwait, hrun]
    simp only [Bool.not_true, Bool.false_eq_true, if_false]
    split_ifs <;> simp

/-- An infinite train ends in a gap in which the bit is clear. -/
lemma idle_of_infCalPulseWait (h : r.state t = .infCalPulseWait)
    (hrun : (r.inp t).runPulses = false) : r.state (t + 1) = .idle := by
  unfold state at h
  rw [state_succ, control, h, hrun]
  rfl

lemma idle_succ (h : r.state t = .idle) (hstart : (r.regs t).startCalPulses = false) :
    r.state (t + 1) = .idle :=
  (congrArg Regs.currentState (r.regs_succ t)).trans (idle_of_no_start h hstart)

/-- No pulse of a finite train ends while none is running. -/
lemma pulses_of_not_running (hab : a ≤ b) (h : ∀ t, a ≤ t → t < b → ¬ r.Running t) :
    r.pulses a b = 0 := by
  induction b, hab using Nat.le_induction with
  | base => exact pulses_self
  | succ b hab ih =>
      have hno : ¬ r.PulseEnds b := fun hends => h b hab (Nat.lt_succ_self b) (.inl hends.1)
      rw [pulses_succ hab, ih fun t ht htb => h t ht (by omega), if_neg hno]

lemma pulses_append (hab : a ≤ b) (hbc : b ≤ c) : r.pulses a c = r.pulses a b + r.pulses b c := by
  induction c, hbc using Nat.le_induction with
  | base => rw [pulses_self, Nat.add_zero]
  | succ c hbc ih => rw [pulses_succ (hab.trans hbc), pulses_succ hbc, ih, Nat.add_assoc]

end Run

end TrackerFpga.Cal
