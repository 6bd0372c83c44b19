import TrackerFpga.Vata.Config

/-!
# How long a configuration sequence takes

The two configuration sequences wait for nothing but their own counter, so their length has a
bound: `configLeft` is the number of cycles a sequence can still take, at 3000 for a bit.  A
sequence that no forced idle stops is over after two million cycles, 20 ms at 100 MHz
(`config_ends`).
-/

namespace TrackerFpga.Vata

open Clocked SerialRegister

/-- The cycles that can follow the last one of a state in a configuration sequence. -/
def State.cyclesAfter (indx : ℕ) : State → ℕ
  | .scSetModeM1 => 3000 * 520 + 531
  | .scLatchModeM1 => 3000 * 520 + 521
  | .scLowerLatchM1 => 3000 * 520 + 21
  | .scSetDataI3 => 3000 * indx + 1521
  | .scClockData => 3000 * indx + 521
  | .scLowerClock => 3000 * indx + 21
  | .scSetModeM3 => 11
  | .scLatchModeM3 => 1
  | .gcSetModeM2 => 3000 * 520 + 532
  | .gcLatchModeM2 => 3000 * 520 + 522
  | .gcLowerLatchM2 => 3000 * 520 + 22
  | .gcSetDataI3 => 3000 * indx + 2493
  | .gcClockData => 3000 * indx + 1493
  | .gcShiftCfgReg => 3000 * indx + 1492
  | .gcReadO5 => 3000 * indx + 522
  | .gcLowerClock => 3000 * indx + 22
  | .gcXferData => 21
  | .gcSetModeM3 => 11
  | .gcLatchModeM3 => 1
  | _ => 0

/-- The count a state of a configuration sequence waits for. -/
def State.countTo : State → ℕ
  | .scSetModeM1 | .scLatchModeM1 | .scSetModeM3 | .scLatchModeM3 => 9
  | .scLowerLatchM1 | .scSetDataI3 | .scLowerClock => 499
  | .scClockData => 999
  | .gcSetModeM2 | .gcLatchModeM2 | .gcSetModeM3 | .gcLatchModeM3 => 9
  | .gcLowerLatchM2 | .gcSetDataI3 | .gcLowerClock => 499
  | .gcClockData => 999
  | .gcReadO5 => 969
  | _ => 0

/-- The cycles a configuration sequence can still take. -/
def configLeft (s : Regs) : ℕ :=
  s.currentState.cyclesAfter s.regIndx.toNat + (s.currentState.countTo - s.stateCounter.toNat)

/-- A cycle of a configuration sequence waits for its count or goes on to a later state. -/
lemma control_config {i : Input} {s : Regs} (h : s.phase = .config)
    (hforce : i.forceFsmIdle = false) (hindx : s.IndexOk) :
    (s.stateCounter.toNat < s.currentState.countTo ∧
        control i s = { nextState := s.currentState }) ∨
      (control i s).nextState.cyclesAfter (nextRegIndx (control i s) s.regIndx).toNat +
        (control i s).nextState.countTo < s.currentState.cyclesAfter s.regIndx.toNat := by
  unfold Regs.phase at h
  cases hs : s.currentState <;> simp only [hs, State.phase, reduceCtorEq] at h
  all_goals
    simp only [Regs.IndexOk, hs] at hindx
    simp only [control, hs, onForce, hforce, onCount, Bool.false_eq_true, if_false]
    try split_ifs
    all_goals first
      | (left; refine ⟨?_, rfl⟩; simp only [State.countTo]; bv_omega)
      | (right; simp [State.cyclesAfter, State.countTo, nextRegIndx, hindx]; done)
      | right
  -- what is left compares the rounds of a loop before and after one of them
  all_goals
    simp only [State.cyclesAfter, State.countTo, nextRegIndx, Bool.false_eq_true, if_false, if_true]
    bv_omega

lemma configLeft_step_lt {i : Input} {s : Regs} (h : s.phase = .config)
    (hforce : i.forceFsmIdle = false) (hindx : s.IndexOk) :
    configLeft (step i s) < configLeft s := by
  unfold configLeft
  rcases control_config h hforce hindx with ⟨hlt, hc⟩ | hlater
  · have hbound : s.currentState.countTo < 65535 := by
      unfold State.countTo
      split <;> decide
    have hcount : (s.stateCounter + 1#16).toNat = s.stateCounter.toNat + 1 := by
      rw [BitVec.toNat_add, BitVec.toNat_ofNat]
      omega
    simp only [step_currentState, step_regIndx, step_stateCounter, hc, nextRegIndx, hcount,
      Bool.false_eq_true, if_false]
    omega
  · rw [step_currentState, step_regIndx]
    omega

lemma configLeft_lt {s : Regs} (hindx : s.IndexOk) : configLeft s < 2000000 := by
  unfold configLeft
  unfold Regs.IndexOk at hindx
  cases hs : s.currentState <;> simp only [hs] at hindx <;>
    simp only [State.cyclesAfter, State.countTo] <;> bv_omega

/-- A configuration sequence was started by a command in `IDLE`, or goes on. -/
lemma config_of_step {i : Input} {s : Regs} (h : (step i s).phase = .config) :
    (s.phase = .idle ∧ triggerAcq i s = false ∧ (i.setConfig || i.getConfig) = true) ∨
      s.phase = .config ∧ i.forceFsmIdle = false := by
  have hstep := phase_step i s
  rw [h] at hstep
  generalize s.phase = p at hstep
  cases hstep with
  | command ht hc => exact .inl ⟨rfl, ht, hc⟩
  | configGoesOn hf => exact .inr ⟨rfl, hf⟩

lemma indexOk_of_not_config {s : Regs} (h : s.phase ≠ .config) : s.IndexOk := by
  unfold Regs.phase at h
  unfold Regs.IndexOk
  cases hs : s.currentState <;> simp [hs, State.phase] at h ⊢

lemma indexOk_step_of_idle {i : Input} {s : Regs} (h : s.phase = .idle) : (step i s).IndexOk := by
  have hstate := phase_eq_idle_iff.mp h
  unfold Regs.IndexOk
  rw [step_currentState, control, hstate]
  simp only
  split_ifs <;> trivial

namespace Run

variable {r : Run} {a : Asic} {t u x y T : ℕ} {cfg : BitVec 520}

/-- The register index is in range for the whole run. -/
lemma indexOk (h0 : r.Idle 0) (t : ℕ) : (r.regs t).IndexOk := by
  induction t with
  | zero => exact indexOk_of_not_config (by rw [phase_eq_idle_iff.mpr h0]; decide)
  | succ t ih =>
      rw [regs_succ]
      by_cases hconfig : (step (r.inp t) (r.regs t)).phase = .config
      · rcases config_of_step hconfig with ⟨hidle, -⟩ | ⟨hprev, hforce⟩
        · exact indexOk_step_of_idle hidle
        · exact (edgesDone_step hprev hforce ih).1
      · exact indexOk_of_not_config hconfig

/-- **A configuration sequence ends.**  It does not last for two million cycles. -/
lemma config_ends (h0 : r.Idle 0) (hxy : x ≤ y)
    (hconfig : ∀ u, x ≤ u → u ≤ y → r.phase u = .config)
    (hforce : ∀ u, x ≤ u → u < y → (r.inp u).forceFsmIdle = false) : y < x + 2000000 := by
  have hleft := invariant_between
    (P := fun u => configLeft (r.regs u) + (u - x) ≤ configLeft (r.regs x)) (b := y)
    (by simp) (fun u hu huy ih => ?_) hxy le_rfl
  · have := configLeft_lt (r.indexOk h0 x)
    omega
  · have := configLeft_step_lt (hconfig u hu huy.le) (hforce u hu huy) (r.indexOk h0 u)
    rw [regs_succ]
    omega

/-- A command sent to the interface in cycle `t` is taken: it is in `IDLE` and no trigger fires. -/
def Free (r : Run) (t : ℕ) : Prop := r.Idle t ∧ triggerAcq (r.inp t) (r.regs t) = false

/-- A sequence that no forced idle stops comes back to `IDLE` within two million cycles. -/
lemma exists_returns_within (h0 : r.Idle 0) (hnext : r.phase (t + 1) = .config)
    (hforce : ∀ u, t < u → u ≤ t + 2000001 → (r.inp u).forceFsmIdle = false) :
    ∃ T ≤ t + 2000001, r.Returns t T ∧ ∀ u, t < u → u < T → r.phase u = .config := by
  have hends : ∃ d, r.phase (t + 1 + d) ≠ .config ∧ d ≤ 2000000 := by
    by_contra hcon
    have hall : ∀ u, t + 1 ≤ u → u ≤ t + 2000001 → r.phase u = .config := by
      intro u hu hut
      by_contra hne
      obtain ⟨d, rfl⟩ := Nat.exists_eq_add_of_le hu
      exact hcon ⟨d, hne, by omega⟩
    have := config_ends h0 (by omega) hall fun u hu hut => hforce u hu (by omega)
    omega
  classical
  obtain ⟨hne, hd⟩ := Nat.find_spec hends
  have hconfig : ∀ u, t < u → u < t + 1 + Nat.find hends → r.phase u = .config := by
    intro u hu hut
    obtain ⟨e, rfl⟩ := Nat.exists_eq_add_of_le (Nat.succ_le_of_lt hu)
    by_contra hcon
    exact Nat.find_min hends (m := e) (by omega) ⟨hcon, by omega⟩
  obtain ⟨d, hfind⟩ : ∃ d, Nat.find hends = d + 1 := by
    refine ⟨Nat.find hends - 1, ?_⟩
    have : Nat.find hends ≠ 0 := fun hzero => hne (by rw [hzero]; exact hnext)
    omega
  rw [hfind] at hne hd hconfig
  have hidle : r.phase (t + 1 + d + 1) = .idle :=
    (step_of_config (hconfig (t + 1 + d) (by omega) (by omega))
      (hforce (t + 1 + d) (by omega) (by omega))).resolve_left hne
  refine ⟨t + 1 + (d + 1), by omega, ⟨by omega, idle_iff.mpr hidle, fun u hu huT => ?_⟩, hconfig⟩
  rw [idle_iff, hconfig u hu huT]
  simp

/-- A `set_config` pulse that is taken loads the ASIC within two million cycles. -/
lemma set_within (h0 : r.Idle 0) (hfree : r.Free t) (hset : (r.inp t).setConfig = true)
    (hforce : ∀ u, t < u → u ≤ t + 2000001 → (r.inp u).forceFsmIdle = false)
    (hcfg : ∀ u, t < u → u ≤ t + 2000001 → (r.inp u).cfgRegFromPs = cfg) :
    ∃ T ≤ t + 2000001, r.Returns t T ∧ (r.asic a T).shiftReg = cfg := by
  have hfirst := scSetModeM1_of_set hfree.1 hfree.2 hset
  have hphase : r.phase (t + 1) = .config := by rw [phase, Regs.phase, hfirst]; rfl
  obtain ⟨T, hle, hT, hconfig⟩ := exists_returns_within h0 hphase hforce
  have hdriven := loading (a := a) hfirst hT.lt
    (fun u hu huT => ⟨hconfig u hu huT, hforce u hu (by omega)⟩)
    fun u hu huT => hcfg u hu (by omega)
  have hstate : (r.regs T).currentState = .idle := hT.idle
  refine ⟨T, hle, hT, ?_⟩
  rw [hdriven.shiftReg, Regs.edgesDone, hstate, partlyLoaded_width]

/-- A `get_config` pulse that is taken copies the ASIC within two million cycles. -/
lemma get_within (h0 : r.Idle 0) (hwired : r.Wired a) (hfree : r.Free t)
    (hset : (r.inp t).setConfig = false) (hget : (r.inp t).getConfig = true)
    (hforce : ∀ u, t < u → u ≤ t + 2000001 → (r.inp u).forceFsmIdle = false) :
    ∃ T ≤ t + 2000001, r.Returns t T ∧ (r.asic a T).shiftReg = (r.asic a t).shiftReg ∧
      cfgRegFromPl (r.regs T) = (r.asic a t).shiftReg := by
  have hfirst := gcSetModeM2_of_get hfree.1 hfree.2 hset hget
  have hphase : r.phase (t + 1) = .config := by rw [phase, Regs.phase, hfirst]; rfl
  obtain ⟨T, hle, hT, hconfig⟩ := exists_returns_within h0 hphase hforce
  obtain ⟨hdriven, hreads⟩ := reading hwired hfirst hT.lt
    fun u hu huT => ⟨hconfig u hu huT, hforce u hu (by omega)⟩
  have hstate : (r.regs T).currentState = .idle := hT.idle
  rw [Regs.Reads, hstate] at hreads
  refine ⟨T, hle, hT, ?_, ?_⟩
  · rw [hdriven.shiftReg, Regs.edgesDone, hstate, partlyLoaded_width]
  · rw [cfgRegFromPl, hstate, if_neg (by decide), hreads.2]

/-! ## Between the commands -/

/-- No command is taken in cycle `t`. -/
def NoCommand (r : Run) (t : ℕ) : Prop :=
  r.Free t → (r.inp t).setConfig = false ∧ (r.inp t).getConfig = false

/-- Without a trigger and without a command the machine stays in `IDLE`. -/
lemma idle_of_noCommand (hx : r.Idle x) (hxy : x ≤ y)
    (hcalm : ∀ u, x ≤ u → u < y → triggerAcq (r.inp u) (r.regs u) = false)
    (hno : ∀ u, x ≤ u → u < y → r.NoCommand u) : r.Idle y := by
  refine invariant_between (P := r.Idle) hx (fun u hu huy ih => ?_) hxy le_rfl
  obtain ⟨hset, hget⟩ := hno u hu huy ⟨ih, hcalm u hu huy⟩
  have hstate : (r.regs u).currentState = .idle := ih
  rw [Idle, regs_succ, step_currentState]
  simp [control, hstate, hcalm u hu huy, hset, hget]

/-- Outside a sequence, without a command, no sequence starts. -/
lemma not_config_of_noCommand (hx : r.phase x ≠ .config) (hxy : x ≤ y)
    (hno : ∀ u, x ≤ u → u < y → r.NoCommand u) : r.phase y ≠ .config := by
  refine invariant_between (P := fun u => r.phase u ≠ .config) hx (fun u hu huy ih hnext => ?_)
    hxy le_rfl
  rcases config_of_step hnext with ⟨hidle, hcalm, hcmd⟩ | ⟨hconfig, -⟩
  · obtain ⟨hset, hget⟩ := hno u hu huy ⟨idle_iff.mpr hidle, hcalm⟩
    simp [hset, hget] at hcmd
  · exact ih hconfig

/-- After two million cycles without a command or a forced idle no sequence is under way. -/
lemma not_config_of_wait (h0 : r.Idle 0) (hxy : x + 2000000 ≤ y)
    (hno : ∀ u, x ≤ u → u < y → r.NoCommand u)
    (hforce : ∀ u, x ≤ u → u < y → (r.inp u).forceFsmIdle = false) : r.phase y ≠ .config := by
  by_cases hall : ∀ u, x ≤ u → u ≤ y → r.phase u = .config
  · have := config_ends h0 (by omega) hall hforce
    omega
  · push Not at hall
    obtain ⟨u, hu, huy, hne⟩ := hall
    exact not_config_of_noCommand hne huy fun v hv hvy => hno v (hu.trans hv) hvy

/-- The configuration sequence that goes on after cycle `t` is over with cycle `T`; if none does,
`T` is `t`. -/
structure Settled (r : Run) (t T : ℕ) : Prop where
  le : t ≤ T
  config : ∀ u, t < u → u ≤ T → r.phase u = .config
  finished : r.phase (T + 1) ≠ .config

lemma Settled.le_add (h : r.Settled t T) (h0 : r.Idle 0)
    (hforce : ∀ u, t < u → u ≤ t + 2000001 → (r.inp u).forceFsmIdle = false) :
    T ≤ t + 2000000 := by
  by_contra hlong
  have hends := config_ends (x := t + 1) (y := t + 2000001) h0 (by omega)
    (fun u hu hut => h.config u hu (by omega)) fun u hu hut => hforce u hu (by omega)
  omega

lemma exists_settled (h0 : r.Idle 0)
    (hforce : ∀ u, t < u → u ≤ t + 2000001 → (r.inp u).forceFsmIdle = false) :
    ∃ T, r.Settled t T := by
  by_cases hnext : r.phase (t + 1) = .config
  · obtain ⟨T, -, hT, hconfig⟩ := exists_returns_within h0 hnext hforce
    have hlt : t + 1 < T := by
      refine Nat.lt_of_le_of_ne hT.lt fun heq => ?_
      rw [heq, idle_iff.mp hT.idle] at hnext
      exact absurd hnext (by decide)
    obtain ⟨d, rfl⟩ := Nat.exists_eq_add_of_lt hlt
    refine ⟨t + 1 + d, by omega, fun u hu hut => hconfig u hu (by omega), ?_⟩
    rw [idle_iff.mp hT.idle]
    decide
  · exact ⟨t, le_rfl, fun u hu hut => by omega, hnext⟩

/-- Outside the configuration sequences the ASIC register is not clocked. -/
lemma asic_step_of_not_config (h0 : r.Idle 0) (ha : a.mode = Mode.m3.code)
    (hne : r.phase (t + 1) ≠ .config) :
    (r.asic a (t + 1)).shiftReg = (r.asic a t).shiftReg := by
  have hobs : r.asic a (t + 1) = (r.asic a t).observe (r.out (t + 1)) := rfl
  cases hi1 : (r.out (t + 1)).vataI1
  · rw [hobs, (Asic.observe_of_not_rises (by rw [hi1, Bool.false_and])).1]
  · obtain ⟨-, hheld⟩ := outputs_vataMode_of_vataI1 _ _ hi1
    have hmode := asic_mode_of_heldMode h0 ha hheld
    have hother : (r.regs (t + 1)).currentState.neededMode.code ≠ Mode.m1.code ∧
        (r.regs (t + 1)).currentState.neededMode.code ≠ Mode.m2.code := by
      have hi1' : (r.regs (t + 1)).currentState.clockHigh = true :=
        (outputs_vataI1 _ _).symm.trans hi1
      unfold phase Regs.phase at hne
      cases hs : (r.regs (t + 1)).currentState <;>
        simp [hs, State.phase, State.clockHigh] at hne hi1' <;> exact ⟨by decide, by decide⟩
    rw [hobs, Asic.observe_mode] at hmode
    simp only [hobs, Asic.observe, hmode, beq_iff_eq, hother.1, hother.2, or_self, Bool.or_eq_true,
      Bool.and_eq_true, and_false, if_false]

lemma cfgRegFromPl_step_of_not_config (hne : r.phase (t + 1) ≠ .config) :
    cfgRegFromPl (r.regs (t + 1)) = cfgRegFromPl (r.regs t) := by
  have hstate : (r.regs (t + 1)).currentState ≠ .gcXferData := by
    intro hs
    exact hne (by rw [phase, Regs.phase, hs]; rfl)
  rw [cfgRegFromPl, if_neg hstate, regs_succ, step_cfgRegFromPl]

/-- Outside the configuration sequences the ASIC register and the copy of it stay as they are. -/
lemma untouched (h0 : r.Idle 0) (ha : a.mode = Mode.m3.code) (hx : r.phase x ≠ .config)
    (hxy : x ≤ y) (hno : ∀ u, x ≤ u → u < y → r.NoCommand u) :
    (r.asic a y).shiftReg = (r.asic a x).shiftReg ∧
      cfgRegFromPl (r.regs y) = cfgRegFromPl (r.regs x) := by
  refine invariant_between (P := fun u => (r.asic a u).shiftReg = (r.asic a x).shiftReg ∧
    cfgRegFromPl (r.regs u) = cfgRegFromPl (r.regs x)) ⟨rfl, rfl⟩ (fun u hu huy ih => ?_)
    hxy le_rfl
  have hne := not_config_of_noCommand hx (hu.trans (Nat.le_succ u)) fun v hv hvu =>
    hno v hv (by omega)
  exact ⟨(asic_step_of_not_config h0 ha hne).trans ih.1,
    (cfgRegFromPl_step_of_not_config hne).trans ih.2⟩

/-- Without a command both keep what they were when the last sequence was over. -/
lemma Settled.untouched (h : r.Settled t T) (h0 : r.Idle 0) (ha : a.mode = Mode.m3.code)
    (hTy : T < y) (hno : ∀ u, T < u → u < y → r.NoCommand u) :
    (r.asic a y).shiftReg = (r.asic a T).shiftReg ∧
      cfgRegFromPl (r.regs y) = cfgRegFromPl (r.regs T) := by
  obtain ⟨hasic, hpl⟩ := Run.untouched h0 ha h.finished hTy fun u hu huy => hno u hu huy
  exact ⟨hasic.trans (asic_step_of_not_config h0 ha h.finished),
    hpl.trans (cfgRegFromPl_step_of_not_config h.finished)⟩

end Run

end TrackerFpga.Vata
