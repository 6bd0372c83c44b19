import TrackerFpga.Vata.Phase

/-!
# What the ASIC makes of its lines

`Asic` is the part of the VATA460.3 that the interface drives: the latch of the mode lines and
the 520-bit configuration register.  It sees nothing but the output ports, so it is an observer
of a run (`Run.asic`) and can be put next to every run of the interface.

The result of this file is mode safety: whenever `vata_i1` is high, the mode the ASIC has latched
is the one the current phase needs (`mode_safe`).  `State.heldMode` is the invariant: the mode
latched in each state, where it is known.  After an abort it is not, until `RO_LATCH_MODE_M3` or
`ABORT_LATCH_MODE_M3` latches M3 again, and `vata_i1` is low all this time.
-/

namespace TrackerFpga.Vata

/-- The modes of the ASIC. -/
inductive Mode
  | m1
  | m2
  | m3
  | m4
  | m5
  deriving DecidableEq, Repr

/-- The levels of `vata_s2`, `vata_s1` and `vata_s0` that select a mode. -/
def Mode.code : Mode → BitVec 3
  | .m1 => 0#3
  | .m2 => 1#3
  | .m3 => 2#3
  | .m4 => 3#3
  | .m5 => 4#3

/-- The ASIC as its control lines see it, with the level `vata_i1` had in the last cycle and the
number of its rising edges so far. -/
structure Asic where
  mode : BitVec 3
  shiftReg : BitVec 520
  lastI1 : Bool
  edges : ℕ
  deriving DecidableEq, Repr

namespace Asic

/-- An ASIC in mode M3 with an empty configuration register. -/
def blank : Asic := { mode := Mode.m3.code, shiftReg := 0#520, lastI1 := false, edges := 0 }

/-- The configuration register is clocked in the modes M1 and M2. -/
def Configuring (a : Asic) : Prop := a.mode = Mode.m1.code ∨ a.mode = Mode.m2.code

instance (a : Asic) : Decidable a.Configuring := inferInstanceAs (Decidable (_ ∨ _))

/-- What it drives on `vata_o5` in the modes M1 and M2. -/
def o5 (a : Asic) : Bool := a.shiftReg.getLsbD 519

/-- A cycle with the lines `o`: the mode latch is open while `vata_s_latch` is high, and a rising
edge of `vata_i1` in mode M1 or M2 shifts the configuration register. -/
def observe (o : Output) (a : Asic) : Asic :=
  let mode := if o.vataSLatch then o.vataMode else a.mode
  let rises := o.vataI1 && !a.lastI1
  { mode := mode
    shiftReg :=
      if rises && (mode == Mode.m1.code || mode == Mode.m2.code) then
        a.shiftReg.shiftConcat o.vataI3
      else a.shiftReg
    lastI1 := o.vataI1
    edges := if rises then a.edges + 1 else a.edges }

section Observe

variable (o : Output) (a : Asic)

@[simp] lemma observe_mode :
    (observe o a).mode = if o.vataSLatch then o.vataMode else a.mode := rfl

variable {o a}

/-- Without a rising edge nothing is clocked. -/
lemma observe_of_not_rises (h : (o.vataI1 && !a.lastI1) = false) :
    (observe o a).shiftReg = a.shiftReg ∧ (observe o a).edges = a.edges := by
  simp [observe, h]

/-- A rising edge in mode M1 or M2 shifts `vata_i3` in. -/
lemma observe_of_rises (hi1 : o.vataI1 = true) (hlast : a.lastI1 = false)
    (hmode : (observe o a).Configuring) :
    (observe o a).shiftReg = a.shiftReg.shiftConcat o.vataI3 ∧
      (observe o a).edges = a.edges + 1 := by
  have hm : ((if o.vataSLatch then o.vataMode else a.mode) == Mode.m1.code ||
      (if o.vataSLatch then o.vataMode else a.mode) == Mode.m2.code) = true := by
    simpa [Configuring] using hmode
  simp only [observe, hi1, hlast, hm, Bool.not_false, Bool.and_self, if_true, and_self]

end Observe

end Asic

/-- The ASIC in cycle `t` of a run that it entered as `a`. -/
def Run.asic (r : Run) (a : Asic) : ℕ → Asic
  | 0 => a.observe (r.out 0)
  | t + 1 => (Run.asic r a t).observe (r.out (t + 1))

/-! ## The ASIC wired to the interface -/

/-- The ASIC that entered the run as `a` drives `vata_o5` while it is in mode M1 or M2. -/
def Run.Wired (r : Run) (a : Asic) : Prop :=
  ∀ t, (r.asic a t).Configuring → (r.inp t).vataO5 = (r.asic a t).o5

/-- The inputs of a cycle with `vata_o5` as the ASIC drives it. -/
def drive (i : Input) (a : Asic) : Input :=
  { i with vataO5 := if a.Configuring then a.o5 else i.vataO5 }

/-- The interface and the ASIC in cycle `t`, wired together. -/
def bench (s : Regs) (a : Asic) (inp : ℕ → Input) : ℕ → Regs × Asic
  | 0 => (s, a.observe (outputs (inp 0) s))
  | t + 1 =>
      let p := bench s a inp t
      let s' := step (drive (inp t) p.2) p.1
      (s', p.2.observe (outputs (inp (t + 1)) s'))

namespace Run

/-- The run of an interface that is wired to an ASIC; outside the modes M1 and M2 the inputs say
what `vata_o5` is. -/
def closedLoop (s : Regs) (a : Asic) (inp : ℕ → Input) : Run where
  start := s
  inp t := drive (inp t) (bench s a inp t).2

lemma closedLoop_eq_bench (s : Regs) (a : Asic) (inp : ℕ → Input) (t : ℕ) :
    ((closedLoop s a inp).regs t, (closedLoop s a inp).asic a t) = bench s a inp t := by
  induction t with
  | zero => rfl
  | succ t ih =>
      have hregs : (closedLoop s a inp).regs t = (bench s a inp t).1 := congrArg Prod.fst ih
      have hasic : (closedLoop s a inp).asic a t = (bench s a inp t).2 := congrArg Prod.snd ih
      rw [asic, hasic, out, regs_succ, hregs]
      rfl

lemma closedLoop_inp (s : Regs) (a : Asic) (inp : ℕ → Input) (t : ℕ) :
    (closedLoop s a inp).inp t = drive (inp t) ((closedLoop s a inp).asic a t) := by
  have hasic : (closedLoop s a inp).asic a t = (bench s a inp t).2 :=
    congrArg Prod.snd (closedLoop_eq_bench s a inp t)
  rw [hasic]
  rfl

lemma wired_closedLoop (s : Regs) (a : Asic) (inp : ℕ → Input) :
    (closedLoop s a inp).Wired a := by
  intro t ht
  rw [closedLoop_inp]
  exact if_pos ht

end Run

/-! ## The latched mode -/

/-- The states that hold `vata_s_latch` high. -/
def State.latches : State → Bool
  | .scLatchModeM1 | .scLatchModeM3 | .gcLatchModeM2 | .gcLatchModeM3 => true
  | .convLatchM4 | .convRaiseI3 | .roLatchModeM5 => true
  | .roLatchModeM3 | .abortLatchModeM3 => true
  | _ => false

/-- The mode the ASIC has latched in a state, where the state tells it. -/
def State.heldMode : State → Option Mode
  | .idle | .scSetModeM1 | .gcSetModeM2 => some .m3
  | .scLatchModeM1 | .scLowerLatchM1 | .scSetDataI3 | .scClockData | .scLowerClock
  | .scSetModeM3 => some .m1
  | .gcLatchModeM2 | .gcLowerLatchM2 | .gcSetDataI3 | .gcClockData | .gcShiftCfgReg | .gcReadO5
  | .gcLowerClock | .gcXferData | .gcSetModeM3 => some .m2
  | .acqDelay | .acqHold | .acqLowerI1 | .acqSetModeM4 => some .m3
  | .convLatchM4 | .convRaiseI3 | .convLowerI4 | .convClkHi | .convClkLo
  | .convSetModeM5 => some .m4
  | .roLatchModeM5 | .roClkHi | .roReadO6 | .roClkLo | .roShiftData | .roWfifo _ => some .m5
  | .scLatchModeM3 | .gcLatchModeM3 | .roLatchModeM3 | .abortLatchModeM3 => some .m3
  -- entered from several modes, with the latch closed
  | .roSetModeM3 | .abortWfifo | .abortSetModeM3 => none

/-- The mode a phase needs while it clocks the ASIC: M1 to set and M2 to get the configuration,
M3 for the hold, M4 for the conversion, M5 for the readout. -/
def State.neededMode : State → Mode
  | .scSetModeM1 | .scLatchModeM1 | .scLowerLatchM1 | .scSetDataI3 | .scClockData
  | .scLowerClock => .m1
  | .gcSetModeM2 | .gcLatchModeM2 | .gcLowerLatchM2 | .gcSetDataI3 | .gcClockData
  | .gcShiftCfgReg | .gcReadO5 | .gcLowerClock | .gcXferData => .m2
  | .acqDelay | .acqHold | .acqLowerI1 => .m3
  | .acqSetModeM4 | .convLatchM4 | .convRaiseI3 | .convLowerI4 | .convClkHi | .convClkLo => .m4
  | .convSetModeM5 | .roLatchModeM5 | .roClkHi | .roReadO6 | .roClkLo | .roShiftData
  | .roWfifo _ => .m5
  | _ => .m3

section Lines

variable (i : Input) (s : Regs)

lemma outputs_vataSLatch : (outputs i s).vataSLatch = s.currentState.latches := by
  unfold outputs
  cases s.currentState <;> rfl

/-- While the latch is open the mode lines show the mode the state is to hold. -/
lemma outputs_vataMode_of_latches {m : Mode} (hlatch : s.currentState.latches = true)
    (hheld : s.currentState.heldMode = some m) : (outputs i s).vataMode = m.code := by
  unfold outputs
  cases hs : s.currentState <;> simp only [hs, State.latches, Bool.false_eq_true] at hlatch
  all_goals
    simp only [hs, State.heldMode, Option.some.injEq] at hheld
    subst hheld
    rfl

/-- A cycle that clocks the ASIC shows on the mode lines the mode it needs. -/
lemma outputs_vataMode_of_vataI1 (hi1 : (outputs i s).vataI1 = true) :
    (outputs i s).vataMode = s.currentState.neededMode.code ∧
      s.currentState.heldMode = some s.currentState.neededMode := by
  unfold outputs at hi1 ⊢
  cases hs : s.currentState <;> simp only [hs, Bool.false_eq_true] at hi1
  all_goals exact ⟨rfl, rfl⟩

/-- Where the latch stays closed, the mode held is the one that was held before. -/
lemma heldMode_of_step {m : Mode} (hlatch : (step i s).currentState.latches = false)
    (hheld : (step i s).currentState.heldMode = some m) : s.currentState.heldMode = some m := by
  rw [step_currentState] at hlatch hheld
  revert hlatch hheld
  cases hs : s.currentState
  case abortWfifo => simp [control, hs, State.heldMode]
  all_goals
    simp only [control, hs, onForce, onAbort, onCount]
    split_ifs <;> simp [State.latches, State.heldMode]

end Lines

namespace Run

variable {r : Run} {a : Asic}

/-- The ASIC has latched the mode that the state of the interface says. -/
lemma asic_mode_of_heldMode (h0 : r.Idle 0) (ha : a.mode = Mode.m3.code) {t : ℕ} {m : Mode}
    (hheld : (r.regs t).currentState.heldMode = some m) : (r.asic a t).mode = m.code := by
  induction t generalizing m with
  | zero =>
      have hstate : (r.regs 0).currentState = .idle := h0
      rw [hstate, State.heldMode, Option.some.injEq] at hheld
      rw [asic, Asic.observe_mode, out, outputs_vataSLatch, hstate, ← hheld]
      exact ha
  | succ t ih =>
      rw [asic, Asic.observe_mode, out, outputs_vataSLatch]
      cases hlatch : (r.regs (t + 1)).currentState.latches
      · rw [regs_succ] at hlatch hheld
        exact ih (heldMode_of_step _ _ hlatch hheld)
      · exact outputs_vataMode_of_latches _ _ hlatch hheld

/-- An acquisition does not touch the configuration register. -/
lemma not_configuring_of_acquiring (h0 : r.Idle 0) (ha : a.mode = Mode.m3.code) {t : ℕ}
    (h : r.phase t = .acquiring) : ¬ (r.asic a t).Configuring := by
  obtain ⟨m, hheld, hm1, hm2⟩ : ∃ m, (r.regs t).currentState.heldMode = some m ∧
      m.code ≠ Mode.m1.code ∧ m.code ≠ Mode.m2.code := by
    unfold phase Regs.phase at h
    cases hs : (r.regs t).currentState <;> simp only [hs, State.phase, reduceCtorEq] at h
    all_goals exact ⟨_, rfl, by decide, by decide⟩
  rw [Asic.Configuring, asic_mode_of_heldMode h0 ha hheld]
  exact not_or.mpr ⟨hm1, hm2⟩

/-- **Mode safety.**  In a run that starts in `IDLE` with M3 latched, whatever its inputs do, the
ASIC is clocked only in the mode on its mode lines, which is the mode the phase needs, and has M3
latched in every `IDLE` cycle. -/
theorem mode_safe (h0 : r.Idle 0) (ha : a.mode = Mode.m3.code) (t : ℕ) :
    ((r.out t).vataI1 = true →
        (r.asic a t).mode = (r.out t).vataMode ∧
          (r.out t).vataMode = (r.regs t).currentState.neededMode.code) ∧
      (r.Idle t → (r.asic a t).mode = Mode.m3.code) := by
  constructor
  · intro hi1
    obtain ⟨hlines, hheld⟩ := outputs_vataMode_of_vataI1 _ _ hi1
    exact ⟨(asic_mode_of_heldMode h0 ha hheld).trans hlines.symm, hlines⟩
  · intro hidle
    have hstate : (r.regs t).currentState = .idle := hidle
    exact asic_mode_of_heldMode h0 ha (by rw [hstate]; rfl)

/-- In cycle `2` of `singleEvent` the hold starts, and the ASIC is in mode M3. -/
theorem singleEvent_hold :
    (singleEvent.asic .blank 2).mode = Mode.m3.code :=
  (((mode_safe (fromReset_ofReset _).idle_zero rfl 2).1 (by decide +kernel)).1).trans
    (by decide +kernel)

end Run

end TrackerFpga.Vata
