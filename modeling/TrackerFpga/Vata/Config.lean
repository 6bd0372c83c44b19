import TrackerFpga.Vata.Asic
import TrackerFpga.Vata.Progress

/-!
# Configuration round trip

`set_config` clocks the 520 bits of `cfg_reg_from_ps` into the ASIC, and `get_config` clocks the
520 bits of the ASIC once around, back into the ASIC and into `reg_from_vata`.  To the ASIC both
are the same: a register `x` that is loaded with the bits of a register `y`, most significant bit
first, where `y` is `cfg_reg_from_ps` for the one and `x` itself for the other.  `Driven x y n` is
the invariant of both; it counts the clock edges by the state and `reg_indx` (`edgesDone`).
-/

namespace TrackerFpga.Vata

open SerialRegister Clocked

/-! ## The clock edges of a command -/

/-- The states in which `vata_i1` is high. -/
def State.clockHigh : State → Bool
  | .scClockData | .gcClockData | .gcShiftCfgReg | .gcReadO5 => true
  | .acqHold | .convClkHi | .roClkHi | .roReadO6 => true
  | _ => false

/-- The states a configuration command raises `vata_i1` in. -/
def State.startsClock : State → Bool
  | .scClockData | .gcClockData => true
  | _ => false

/-- How many rising edges a configuration command has made. -/
def Regs.edgesDone (s : Regs) : ℕ :=
  match s.currentState with
  | .scSetModeM1 | .scLatchModeM1 | .scLowerLatchM1 => 0
  | .gcSetModeM2 | .gcLatchModeM2 | .gcLowerLatchM2 => 0
  | .scSetDataI3 | .gcSetDataI3 => 519 - s.regIndx.toNat
  | .scClockData | .scLowerClock => 520 - s.regIndx.toNat
  | .gcClockData | .gcShiftCfgReg | .gcReadO5 | .gcLowerClock => 520 - s.regIndx.toNat
  | _ => 520

/-- What `reg_indx` can be in the states of a configuration command. -/
def Regs.IndexOk (s : Regs) : Prop :=
  match s.currentState with
  | .scLatchModeM1 | .scLowerLatchM1 | .gcLatchModeM2 | .gcLowerLatchM2 => s.regIndx = 519#10
  | .scSetDataI3 | .scClockData | .scLowerClock => s.regIndx ≤ 519#10
  | .gcSetDataI3 | .gcClockData | .gcLowerClock => s.regIndx ≤ 519#10
  | .gcShiftCfgReg | .gcReadO5 => 0#10 < s.regIndx ∧ s.regIndx ≤ 519#10
  | _ => True

lemma outputs_vataI1 (i : Input) (s : Regs) : (outputs i s).vataI1 = s.currentState.clockHigh := by
  unfold outputs
  cases s.currentState <;> rfl

/-- A cycle of a configuration command makes no rising edge, or makes the next one. -/
lemma edgesDone_step {i : Input} {s : Regs} (hphase : s.phase = .config)
    (hforce : i.forceFsmIdle = false) (hindx : s.IndexOk) :
    (step i s).IndexOk ∧
      (((step i s).currentState.clockHigh && !s.currentState.clockHigh) = false ∧
          (step i s).edgesDone = s.edgesDone ∨
        s.currentState.clockHigh = false ∧ (step i s).currentState.startsClock = true ∧
          s.edgesDone < 520 ∧ (step i s).regIndx.toNat = 519 - s.edgesDone ∧
          (step i s).edgesDone = s.edgesDone + 1) := by
  unfold Regs.phase at hphase
  cases hs : s.currentState <;> simp only [hs, State.phase, reduceCtorEq] at hphase
  all_goals
    simp only [Regs.IndexOk, hs] at hindx
    simp only [Regs.IndexOk, Regs.edgesDone, step_currentState, step_regIndx, control, hs, onForce,
      hforce, onCount, Bool.false_eq_true, if_false]
    try split_ifs
    all_goals simp [State.clockHigh, State.startsClock, nextRegIndx]
  -- the loops count the index down from 519 to 0
  all_goals bv_omega

/-- The ASIC register `x`, which had seen `n` edges before the command, is being loaded with the
bits of `y`. -/
structure Driven (x y : BitVec 520) (n : ℕ) (s : Regs) (a : Asic) : Prop where
  indx : s.IndexOk
  shiftReg : a.shiftReg = partlyLoaded x y s.edgesDone
  edges : a.edges = n + s.edgesDone
  lastI1 : a.lastI1 = s.currentState.clockHigh
  mode : ∀ m, s.currentState.heldMode = some m → m = .m1 ∨ m = .m2 → a.mode = m.code

lemma clockHigh_of_startsClock {q : State} (h : q.startsClock = true) :
    q.clockHigh = true ∧ ∃ m, q.heldMode = some m ∧ (m = .m1 ∨ m = .m2) := by
  cases q <;> simp [State.startsClock, State.clockHigh, State.heldMode] at h ⊢

lemma Asic.configuring_of_mode {a : Asic} {m : Mode} (hm : m = .m1 ∨ m = .m2)
    (ha : a.mode = m.code) : a.Configuring := by
  rcases hm with rfl | rfl
  · exact .inl ha
  · exact .inr ha

section Driven

variable {x y : BitVec 520} {n : ℕ} {i i' : Input} {s : Regs} {a : Asic}

/-- The invariant is kept if `vata_i3` shows bit `reg_indx` of `y` at every rising edge. -/
lemma driven_step (h : Driven x y n s a) (hphase : s.phase = .config)
    (hforce : i.forceFsmIdle = false)
    (hi3 : (step i s).currentState.startsClock = true →
      (outputs i' (step i s)).vataI3 = y.getLsbD (step i s).regIndx.toNat) :
    Driven x y n (step i s) (a.observe (outputs i' (step i s))) := by
  have hmode : ∀ m, (step i s).currentState.heldMode = some m → m = .m1 ∨ m = .m2 →
      (a.observe (outputs i' (step i s))).mode = m.code := by
    intro m hheld hm
    rw [Asic.observe_mode, outputs_vataSLatch]
    cases hlatch : (step i s).currentState.latches
    · exact h.mode m (heldMode_of_step _ _ hlatch hheld) hm
    · exact outputs_vataMode_of_latches _ _ hlatch hheld
  obtain ⟨hindx, ⟨hlow, hdone⟩ | ⟨hlast, hstart, hlt, hbit, hdone⟩⟩ :=
    edgesDone_step hphase hforce h.indx
  · obtain ⟨hreg, hedges⟩ := Asic.observe_of_not_rises
      (o := outputs i' (step i s)) (a := a)
      (by rw [outputs_vataI1, h.lastI1]; exact hlow)
    exact ⟨hindx, by rw [hreg, hdone, h.shiftReg], by rw [hedges, hdone, h.edges],
      outputs_vataI1 _ _, hmode⟩
  · obtain ⟨hhigh, m, hheld, hm⟩ := clockHigh_of_startsClock hstart
    obtain ⟨hreg, hedges⟩ := Asic.observe_of_rises
      (o := outputs i' (step i s)) (a := a)
      ((outputs_vataI1 _ _).trans hhigh) (h.lastI1.trans hlast)
      (Asic.configuring_of_mode hm (hmode m hheld hm))
    refine ⟨hindx, ?_, by rw [hedges, hdone, h.edges, Nat.add_assoc], outputs_vataI1 _ _, hmode⟩
    rw [hreg, hdone, partlyLoaded_succ _ _ hlt, h.shiftReg, hi3 hstart, hbit]

end Driven

/-! ## Setting the configuration -/

/-- The states of the set-config sequence. -/
def State.setting : State → Bool
  | .scSetModeM1 | .scLatchModeM1 | .scLowerLatchM1 | .scSetDataI3 | .scClockData
  | .scLowerClock | .scSetModeM3 | .scLatchModeM3 => true
  | _ => false

lemma setting_step {i : Input} {s : Regs} (h : s.currentState.setting = true)
    (hforce : i.forceFsmIdle = false) :
    (step i s).currentState.setting = true ∨ (step i s).currentState = .idle := by
  rw [step_currentState]
  cases hs : s.currentState <;> simp only [hs, State.setting, Bool.false_eq_true] at h
  all_goals
    simp only [control, hs, onForce, hforce, onCount, Bool.false_eq_true, if_false]
    split_ifs <;> simp [State.setting]

/-- The set-config sequence shows bit `reg_indx` of `cfg_reg_from_ps` at its rising edges. -/
lemma vataI3_of_setting {i : Input} {s : Regs}
    (h : s.currentState.setting = true ∨ s.currentState = .idle)
    (hstart : s.currentState.startsClock = true) :
    (outputs i s).vataI3 = i.cfgRegFromPs.getLsbD s.regIndx.toNat := by
  have hstate : s.currentState = .scClockData := by
    cases hs : s.currentState <;> simp [hs, State.setting, State.startsClock] at h hstart ⊢
  rw [outputs, hstate]
  rfl

/-! ## Reading the configuration back -/

/-- What `reg_from_vata` holds of the ASIC register `x` during the get-config sequence: its bits
from `reg_indx` up.  At the end they are in the latch of `cfg_reg_from_pl` too. -/
def Regs.Reads (s : Regs) (x : BitVec 520) : Prop :=
  match s.currentState with
  | .gcSetModeM2 => True
  | .gcLatchModeM2 | .gcLowerLatchM2 => s.regFromVata = 0#520
  | .gcSetDataI3 | .gcClockData => s.regFromVata = x >>> s.regIndx.toNat
  | .gcShiftCfgReg => s.regFromVata = (x >>> s.regIndx.toNat) <<< 1
  | .gcReadO5 | .gcLowerClock => s.regFromVata = x >>> (s.regIndx.toNat - 1)
  | .gcXferData => s.regFromVata = x
  | .gcSetModeM3 | .gcLatchModeM3 | .idle => s.regFromVata = x ∧ s.cfgRegFromPl = x
  | _ => False

/-- The bit that leaves the ASIC is the next one of its old content. -/
lemma setBit_of_o5 (x : BitVec 520) {k : ℕ} (hk : k < 520) :
    setBit ((x >>> (k + 1)) <<< 1) 0 ((partlyLoaded x x (519 - k)).getLsbD 519) = x >>> k := by
  have hbit : 519 - (519 - k) = k := by omega
  rw [getLsbD_partlyLoaded_last x x (show 519 - k < 520 by omega), hbit,
    setBit_shiftLeft_ushiftRight]

lemma reads_step {i : Input} {s : Regs} {x : BitVec 520} (h : s.Reads x)
    (hphase : s.phase = .config) (hforce : i.forceFsmIdle = false) (hindx : s.IndexOk)
    (ho5 : s.currentState.heldMode = some .m2 →
      i.vataO5 = (partlyLoaded x x s.edgesDone).getLsbD 519) : (step i s).Reads x := by
  unfold Regs.phase at hphase
  cases hs : s.currentState <;>
    simp only [Regs.Reads, hs, State.phase, reduceCtorEq] at h hphase
  all_goals
    simp only [Regs.IndexOk, Regs.edgesDone, State.heldMode, hs, forall_const] at hindx ho5
    simp only [Regs.Reads, step_currentState, step_regIndx, step_regFromVata, step_cfgRegFromPl,
      control, hs, onForce, hforce, onCount, Bool.false_eq_true, if_false]
  case gcLowerLatchM2 =>
    split_ifs
    · have hread := setBit_of_o5 x (show 519 < 520 by decide)
      rw [BitVec.ushiftRight_eq_zero (le_refl 520), BitVec.zero_shiftLeft, ← ho5] at hread
      simpa [nextRegFromVata, nextRegIndx, h, hindx] using hread
    · exact h
  case gcClockData =>
    split_ifs
    · simp [nextRegFromVata, nextRegIndx, h]
    · have hzero : s.regIndx = 0#10 := by bv_omega
      simp [nextRegFromVata, nextRegIndx, h, hzero]
    · exact h
  case gcShiftCfgReg =>
    obtain ⟨k, hk⟩ : ∃ k, s.regIndx.toNat = k + 1 := ⟨s.regIndx.toNat - 1, by bv_omega⟩
    have hk519 : k < 520 := by bv_omega
    have hread := setBit_of_o5 x hk519
    rw [hk, Nat.succ_sub_succ 519 k] at ho5
    simpa [nextRegFromVata, nextRegIndx, h, hk, ho5] using hread
  case gcLowerClock =>
    split_ifs with hcount hzero
    · simp [nextRegFromVata, h, hzero]
    · have hidx : (s.regIndx - 1#10).toNat = s.regIndx.toNat - 1 := by bv_omega
      simp only [nextRegFromVata, nextRegIndx, h, hidx, Bool.false_eq_true, if_false, if_true]
    · exact h
  case gcXferData => simp [nextRegFromVata, cfgRegFromPl, h, hs]
  all_goals
    split_ifs <;> simp [nextRegFromVata, nextRegIndx, cfgRegFromPl, h, hs]

/-! ## The commands in a run -/

namespace Run

variable {r : Run} {a : Asic} {t T : ℕ} {cfg : BitVec 520}

/-- What starts in the `IDLE` cycle `t` ends when the machine is back in `IDLE`, in cycle `T`. -/
structure Returns (r : Run) (t T : ℕ) : Prop where
  lt : t < T
  idle : r.Idle T
  busy : ∀ u, t < u → u < T → ¬ r.Idle u

lemma exists_returns (hnext : r.phase (t + 1) = .config)
    (hforce : ∀ u, t ≤ u → (r.inp u).forceFsmIdle = false) :
    ∃ T, r.Returns t T ∧ ∀ u, t < u → u < T → r.phase u = .config := by
  obtain ⟨T, hT, hidle, hconfig⟩ :=
    exists_idle_of_config hnext fun u hu => hforce u (Nat.le_of_succ_le hu)
  refine ⟨T, ⟨Nat.lt_of_succ_lt hT, hidle, fun u hu huT => ?_⟩, hconfig⟩
  rw [idle_iff, hconfig u hu huT]
  simp

/-- The first cycle of a command has made no edge. -/
lemma driven_first {y : BitVec 520}
    (hnext : (r.regs (t + 1)).currentState = .scSetModeM1 ∨
      (r.regs (t + 1)).currentState = .gcSetModeM2) :
    Driven (r.asic a t).shiftReg y (r.asic a t).edges (r.regs (t + 1)) (r.asic a (t + 1)) := by
  have hlow : (r.out (t + 1)).vataI1 = false := by
    rw [out, outputs_vataI1]
    rcases hnext with h | h <;> rw [h] <;> rfl
  obtain ⟨hreg, hedges⟩ := Asic.observe_of_not_rises (o := r.out (t + 1)) (a := r.asic a t)
    (by rw [hlow, Bool.false_and])
  have hdone : (r.regs (t + 1)).edgesDone = 0 := by
    unfold Regs.edgesDone
    rcases hnext with h | h <;> rw [h]
  refine ⟨?_, ?_, ?_, ?_, ?_⟩
  · unfold Regs.IndexOk
    rcases hnext with h | h <;> simp [h]
  · rw [hdone, partlyLoaded_zero]
    exact hreg
  · rw [hdone]
    exact hedges
  · exact (outputs_vataI1 _ _).symm ▸ rfl
  · intro m hheld hm
    rcases hnext with h | h <;> rw [h] at hheld <;> rcases hm with rfl | rfl <;>
      simp [State.heldMode] at hheld

/-- A `set_config` pulse in an `IDLE` cycle without a trigger starts the set-config sequence. -/
lemma scSetModeM1_of_set (hidle : r.Idle t) (hcalm : triggerAcq (r.inp t) (r.regs t) = false)
    (hset : (r.inp t).setConfig = true) : (r.regs (t + 1)).currentState = .scSetModeM1 := by
  have hstate : (r.regs t).currentState = .idle := hidle
  rw [regs_succ, step_currentState]
  simp [control, hstate, hcalm, hset]

/-- While the set-config sequence goes on, the ASIC register is loaded with the bits of
`cfg_reg_from_ps`. -/
lemma loading (hfirst : (r.regs (t + 1)).currentState = .scSetModeM1) (htT : t < T)
    (hgo : ∀ u, t < u → u < T → r.phase u = .config ∧ (r.inp u).forceFsmIdle = false)
    (hcfg : ∀ u, t < u → u ≤ T → (r.inp u).cfgRegFromPs = cfg) :
    Driven (r.asic a t).shiftReg cfg (r.asic a t).edges (r.regs T) (r.asic a T) := by
  have hinv := invariant_between (P := fun u =>
      Driven (r.asic a t).shiftReg cfg (r.asic a t).edges (r.regs u) (r.asic a u) ∧
        ((r.regs u).currentState.setting = true ∨ (r.regs u).currentState = .idle))
    (a := t + 1) (b := T) ⟨driven_first (.inl hfirst), .inl (by rw [hfirst]; rfl)⟩ (by
      rintro u hu huT ⟨hdriven, hsetting⟩
      obtain ⟨hbusy, hforce⟩ := hgo u hu huT
      have hsetting' := setting_step
        (hsetting.resolve_right fun h => by
          simp [phase, phase_eq_idle_iff.mpr h] at hbusy) hforce
      refine ⟨driven_step hdriven hbusy hforce fun hstart => ?_, hsetting'⟩
      have hi3 := vataI3_of_setting (i := r.inp (u + 1)) hsetting' hstart
      rw [hcfg (u + 1) (by omega) (by omega)] at hi3
      exact hi3) htT le_rfl
  exact hinv.1

/-- A `set_config` pulse in an `IDLE` cycle without a trigger loads `cfg_reg_from_ps` into the
ASIC with 520 rising edges of `vata_i1`. -/
lemma exists_set_config (hforce : ∀ u, t ≤ u → (r.inp u).forceFsmIdle = false)
    (hidle : r.Idle t) (hcalm : triggerAcq (r.inp t) (r.regs t) = false)
    (hset : (r.inp t).setConfig = true) (hcfg : ∀ u, t < u → (r.inp u).cfgRegFromPs = cfg) :
    ∃ T, r.Returns t T ∧ (r.asic a T).edges = (r.asic a t).edges + 520 ∧
      (r.asic a T).shiftReg = cfg := by
  have hfirst := scSetModeM1_of_set hidle hcalm hset
  have hphase : r.phase (t + 1) = .config := by rw [phase, Regs.phase, hfirst]; rfl
  obtain ⟨T, hT, hconfig⟩ := exists_returns hphase hforce
  have hdriven := loading (a := a) hfirst hT.lt
    (fun u hu huT => ⟨hconfig u hu huT, hforce u hu.le⟩) fun u hu _ => hcfg u hu
  have hdone : (r.regs T).edgesDone = 520 := by
    have hstate : (r.regs T).currentState = .idle := hT.idle
    rw [Regs.edgesDone, hstate]
  refine ⟨T, hT, by rw [hdriven.edges, hdone], ?_⟩
  rw [hdriven.shiftReg, hdone, partlyLoaded_width]

/-- The get-config sequence shows the bits of the ASIC register itself at its rising edges. -/
lemma vataI3_of_reads {i : Input} {s : Regs} {x : BitVec 520} (h : s.Reads x)
    (hstart : s.currentState.startsClock = true) :
    (outputs i s).vataI3 = x.getLsbD s.regIndx.toNat := by
  have hstate : s.currentState = .gcClockData := by
    cases hs : s.currentState <;> simp [hs, Regs.Reads, State.startsClock] at h hstart ⊢
  rw [Regs.Reads, hstate] at h
  rw [outputs, hstate]
  simp [cfgReg0, h]

/-- A `get_config` pulse in an `IDLE` cycle without a trigger and without `set_config` starts the
get-config sequence. -/
lemma gcSetModeM2_of_get (hidle : r.Idle t) (hcalm : triggerAcq (r.inp t) (r.regs t) = false)
    (hset : (r.inp t).setConfig = false) (hget : (r.inp t).getConfig = true) :
    (r.regs (t + 1)).currentState = .gcSetModeM2 := by
  have hstate : (r.regs t).currentState = .idle := hidle
  rw [regs_succ, step_currentState]
  simp [control, hstate, hcalm, hset, hget]

/-- While the get-config sequence goes on, the ASIC register is loaded with its own bits and
`reg_from_vata` with them. -/
lemma reading (hwired : r.Wired a) (hfirst : (r.regs (t + 1)).currentState = .gcSetModeM2)
    (htT : t < T) (hgo : ∀ u, t < u → u < T →
      r.phase u = .config ∧ (r.inp u).forceFsmIdle = false) :
    Driven (r.asic a t).shiftReg (r.asic a t).shiftReg (r.asic a t).edges (r.regs T)
      (r.asic a T) ∧ (r.regs T).Reads (r.asic a t).shiftReg := by
  have hreads : (r.regs (t + 1)).Reads (r.asic a t).shiftReg := by
    rw [Regs.Reads, hfirst]
    trivial
  refine invariant_between (P := fun u =>
      Driven (r.asic a t).shiftReg (r.asic a t).shiftReg (r.asic a t).edges (r.regs u)
        (r.asic a u) ∧ (r.regs u).Reads (r.asic a t).shiftReg)
    (a := t + 1) ⟨driven_first (.inr hfirst), hreads⟩ ?_ htT le_rfl
  rintro u hu huT ⟨hdriven, hreads⟩
  obtain ⟨hbusy, hforce⟩ := hgo u hu huT
  have hreads' := reads_step hreads hbusy hforce hdriven.indx fun hheld => by
    -- in mode M2 the ASIC drives `vata_o5`
    rw [hwired u (Asic.configuring_of_mode (.inr rfl) (hdriven.mode _ hheld (.inr rfl))),
      Asic.o5, hdriven.shiftReg]
  exact ⟨driven_step hdriven hbusy hforce fun hstart =>
    vataI3_of_reads hreads' hstart, hreads'⟩

/-- A `get_config` pulse in an `IDLE` cycle without a trigger and without `set_config` turns the
ASIC register once around, with 520 rising edges of `vata_i1`, and copies it. -/
lemma exists_get_config (hforce : ∀ u, t ≤ u → (r.inp u).forceFsmIdle = false)
    (hwired : r.Wired a) (hidle : r.Idle t)
    (hcalm : triggerAcq (r.inp t) (r.regs t) = false) (hset : (r.inp t).setConfig = false)
    (hget : (r.inp t).getConfig = true) :
    ∃ T, r.Returns t T ∧ (r.asic a T).edges = (r.asic a t).edges + 520 ∧
      (r.asic a T).shiftReg = (r.asic a t).shiftReg ∧
      (r.regs T).regFromVata = (r.asic a t).shiftReg ∧
      cfgRegFromPl (r.regs T) = (r.asic a t).shiftReg := by
  have hfirst := gcSetModeM2_of_get hidle hcalm hset hget
  have hphase : r.phase (t + 1) = .config := by rw [phase, Regs.phase, hfirst]; rfl
  obtain ⟨T, hT, hconfig⟩ := exists_returns hphase hforce
  obtain ⟨hdriven, hreads⟩ := reading hwired hfirst hT.lt
    fun u hu huT => ⟨hconfig u hu huT, hforce u hu.le⟩
  have hstate : (r.regs T).currentState = .idle := hT.idle
  have hdone : (r.regs T).edgesDone = 520 := by rw [Regs.edgesDone, hstate]
  rw [Regs.Reads, hstate] at hreads
  refine ⟨T, hT, by rw [hdriven.edges, hdone], ?_, hreads.1, ?_⟩
  · rw [hdriven.shiftReg, hdone, partlyLoaded_width]
  · rw [cfgRegFromPl, hstate, if_neg (by decide), hreads.2]

/-- A command started in cycle `t` makes 520 edges and leaves `cfg_reg_from_ps` in the ASIC. -/
def SetsConfig (r : Run) (a : Asic) (t : ℕ) : Prop :=
  ∀ cfg, (∀ u, t < u → (r.inp u).cfgRegFromPs = cfg) →
    ∃ T, r.Returns t T ∧ (r.asic a T).edges = (r.asic a t).edges + 520 ∧
      (r.asic a T).shiftReg = cfg

/-- A command started in cycle `t` makes 520 edges, leaves the ASIC as it was and copies it. -/
def GetsConfig (r : Run) (a : Asic) (t : ℕ) : Prop :=
  ∃ T, r.Returns t T ∧ (r.asic a T).edges = (r.asic a t).edges + 520 ∧
    (r.asic a T).shiftReg = (r.asic a t).shiftReg ∧
    cfgRegFromPl (r.regs T) = (r.asic a t).shiftReg

/-- **Configuration round trip.**  In a run without forced idles, with any content of the ASIC
and of the registers of the interface, a configuration pulse in an `IDLE` cycle in which no
trigger fires makes exactly 520 rising edges of `vata_i1`.  `set_config` leaves `cfg_reg_from_ps`
in the ASIC; `get_config`, where `set_config` is low, leaves the ASIC as it was and
`cfg_reg_from_pl` equal to it. -/
theorem config_round_trip (hforce : ∀ u, t ≤ u → (r.inp u).forceFsmIdle = false)
    (hwired : r.Wired a) (hidle : r.Idle t)
    (hcalm : triggerAcq (r.inp t) (r.regs t) = false) :
    ((r.inp t).setConfig = true → r.SetsConfig a t) ∧
      ((r.inp t).setConfig = false → (r.inp t).getConfig = true → r.GetsConfig a t) := by
  refine ⟨fun hset cfg hcfg => exists_set_config hforce hidle hcalm hset hcfg,
    fun hset hget => ?_⟩
  obtain ⟨T, hT, hedges, hreg, -, hpl⟩ := exists_get_config hforce hwired hidle hcalm hset hget
  exact ⟨T, hT, hedges, hreg, hpl⟩

/-- A `set_config` pulse in cycle `0`, of a configuration of ones, with no trigger enabled. -/
def setPulse : Run := closedLoop (Regs.reset 0#12 0#520) .blank fun t =>
  { Input.quiet with setConfig := decide (t = 0), cfgRegFromPs := BitVec.allOnes 520 }

/-- The ASIC of `setPulse` is loaded with ones. -/
theorem setPulse_setsConfig : setPulse.SetsConfig .blank 0 :=
  (config_round_trip (r := setPulse) (fun _ _ => rfl) (wired_closedLoop _ _ _) (by decide)
    (by decide)).1 (by decide)

/-- A `set_config` pulse in cycle `0` together with a forced trigger, whose acquisition is aborted
one cycle later. -/
def setPulseWithTrigger : Run := closedLoop (Regs.reset 0#12 0#520) .blank fun t =>
  { Input.quiet with
    setConfig := decide (t = 0), forceTrigger := decide (t = 0), forceTriggerEna := true,
    triggerAckTimeout := 1#32, holdTime := 100#16 }

/-- The trigger wins over the command, which is lost: the machine is back in `IDLE` in cycle `24`
and has made no edge. -/
theorem setPulseWithTrigger_ignored : ¬ ∀ (r : Run) (a : Asic) (t : ℕ),
    (∀ u, t ≤ u → (r.inp u).forceFsmIdle = false) → r.Wired a → r.Idle t →
      ((r.inp t).setConfig = true → r.SetsConfig a t) ∧
        ((r.inp t).getConfig = true → r.GetsConfig a t) := by
  intro hclaim
  have hsets := (hclaim setPulseWithTrigger .blank 0 (fun _ _ => rfl) (wired_closedLoop _ _ _)
    (by decide)).1 (by decide)
  obtain ⟨T, hT, hedges, -⟩ := hsets 0#520 fun _ _ => rfl
  have hbusy : ∀ u < 24, 0 < u → ¬ setPulseWithTrigger.Idle u := by decide +kernel
  have hidle : setPulseWithTrigger.Idle 24 := by decide +kernel
  have hback : T = 24 := by
    rcases Nat.lt_trichotomy T 24 with hlt | heq | hgt
    · exact absurd hT.idle (hbusy T hlt hT.lt)
    · exact heq
    · exact absurd hidle (hT.busy 24 (by decide) hgt)
  subst hback
  exact absurd hedges (by decide +kernel)

end Run

end TrackerFpga.Vata
