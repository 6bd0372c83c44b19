import TrackerFpga.Vata.Asic
import TrackerFpga.Vata.DeadTime
import TrackerFpga.Vata.Progress
import TrackerFpga.Vata.Timeout

/-!
# How long the mode lines are stable

Figure 6 of the timing diagrams gives the ASIC 100 ns, ten clock cycles, of stable mode lines
before `vata_s_latch` rises, and ten more with `vata_s_latch` high.  The interface switches to M1,
M2 or M3 through a pair of states, one that sets the mode lines and one that latches them
(`Switch`).  Both wait until the shared counter has reached `9`, so how long they last depends on
what it held when they were entered.

Every edge into a latch state clears the counter, and so does every edge into a state that sets
the mode lines, but for two of the get-config sequence.  From `IDLE` to `GC_SET_MODE_M2` the
counter goes on, and it has run freely in `IDLE`; from `GC_XFER_DATA` to `GC_SET_MODE_M3` it goes
on as well, and has counted one cycle.  A run keeps to figure 6 exactly when it accepts no
`get_config` (`switches_timed_iff`).
-/

namespace TrackerFpga.Vata

open Clocked

/-- The switches to M1, M2 and M3, by the sequence they are part of. -/
inductive Switch
  | scM1
  | scM3
  | gcM2
  | gcM3
  | roM3
  | abortM3
  deriving DecidableEq, Repr

/-- The mode a switch is to. -/
def Switch.mode : Switch → Mode
  | scM1 => .m1
  | gcM2 => .m2
  | scM3 | gcM3 | roM3 | abortM3 => .m3

lemma Switch.mode_eq (w : Switch) : w.mode = .m1 ∨ w.mode = .m2 ∨ w.mode = .m3 := by
  cases w <;> decide

/-- The switch a state sets the mode lines for. -/
def State.sets : State → Option Switch
  | .scSetModeM1 => some .scM1
  | .scSetModeM3 => some .scM3
  | .gcSetModeM2 => some .gcM2
  | .gcSetModeM3 => some .gcM3
  | .roSetModeM3 => some .roM3
  | .abortSetModeM3 => some .abortM3
  | _ => none

/-- The switch a state raises `vata_s_latch` for. -/
def State.latchesFor : State → Option Switch
  | .scLatchModeM1 => some .scM1
  | .scLatchModeM3 => some .scM3
  | .gcLatchModeM2 => some .gcM2
  | .gcLatchModeM3 => some .gcM3
  | .roLatchModeM3 => some .roM3
  | .abortLatchModeM3 => some .abortM3
  | _ => none

/-- The states of the get-config sequence: those that need M2, and the return to M3. -/
def State.GetsConfig (s : State) : Prop :=
  s.neededMode = .m2 ∨ s = .gcSetModeM3 ∨ s = .gcLatchModeM3

instance : DecidablePred State.GetsConfig :=
  fun _ => inferInstanceAs (Decidable (_ ∨ _))

section Step

variable {i : Input} {s : Regs} {w : Switch}

lemma outputs_of_sets (h : s.currentState.sets = some w) :
    (outputs i s).vataMode = w.mode.code ∧ (outputs i s).vataSLatch = false := by
  unfold outputs
  cases hs : s.currentState <;> simp only [hs, State.sets, Option.some.injEq, reduceCtorEq] at h
  all_goals
    subst h
    exact ⟨rfl, rfl⟩

lemma outputs_of_latchesFor (h : s.currentState.latchesFor = some w) :
    (outputs i s).vataMode = w.mode.code ∧ (outputs i s).vataSLatch = true := by
  unfold outputs
  cases hs : s.currentState <;>
    simp only [hs, State.latchesFor, Option.some.injEq, reduceCtorEq] at h
  all_goals
    subst h
    exact ⟨rfl, rfl⟩

/-- On M1, M2 and M3 the latch is open in these states only. -/
lemma exists_latchesFor {m : Mode} (hm : m = .m1 ∨ m = .m2 ∨ m = .m3)
    (hlatch : (outputs i s).vataSLatch = true) (hmode : (outputs i s).vataMode = m.code) :
    ∃ w, s.currentState.latchesFor = some w := by
  rw [outputs_vataSLatch] at hlatch
  unfold outputs at hmode
  cases hs : s.currentState <;> simp only [hs, State.latches, Bool.false_eq_true] at hlatch hmode
  -- in the latch states of M4 and M5 the mode lines show another code
  case convLatchM4 | convRaiseI3 | roLatchModeM5 =>
    rcases hm with rfl | rfl | rfl <;> exact absurd hmode (by decide)
  all_goals exact ⟨_, rfl⟩

/-- The states of a switch wait for the count `9`. -/
lemma control_of_waiting
    (h : s.currentState.sets = some w ∨ s.currentState.latchesFor = some w)
    (hf : i.forceFsmIdle = false) (hcount : ¬ s.stateCounter ≥ 9#16) :
    control i s = { nextState := s.currentState } := by
  unfold control
  cases hs : s.currentState <;>
    simp only [hs, State.sets, State.latchesFor, reduceCtorEq, or_self] at h
  all_goals simp only [onForce, onCount, hf, hcount, hs, Bool.false_eq_true, if_false]

/-- From the count `9` on the mode lines are latched. -/
lemma latchesFor_of_sets (h : s.currentState.sets = some w) (hf : i.forceFsmIdle = false)
    (hcount : s.stateCounter ≥ 9#16) : (step i s).currentState.latchesFor = some w := by
  rw [step_currentState]
  unfold control
  cases hs : s.currentState <;> simp only [hs, State.sets, reduceCtorEq] at h
  all_goals simpa only [onForce, onCount, hf, hcount, Bool.false_eq_true, if_false, if_true]

/-- The latch closes where its state is left. -/
lemma latchesFor_of_latches (h : s.currentState.latchesFor = some w)
    (hlatch : (step i s).currentState.latches = true) :
    (step i s).currentState.latchesFor = some w := by
  rw [step_currentState] at hlatch ⊢
  unfold control at hlatch ⊢
  cases hs : s.currentState <;> simp only [hs, State.latchesFor, reduceCtorEq] at h
  all_goals
    simp only [hs, onForce, onCount] at hlatch ⊢
    split_ifs at hlatch ⊢
    all_goals first
      | exact absurd hlatch (by decide)
      | exact h

/-- A latch state is entered at the count `9` from the state that sets the mode lines. -/
lemma sets_of_latchesFor (h : (step i s).currentState.latchesFor = some w)
    (hne : s.currentState.latchesFor ≠ some w) :
    s.currentState.sets = some w ∧ s.stateCounter ≥ 9#16 := by
  rw [step_currentState] at h
  unfold control at h
  cases hs : s.currentState
  case abortWfifo =>
    rw [hs] at h
    simp [State.latchesFor] at h
  all_goals
    simp only [hs, onForce, onAbort, onCount] at h hne
    split_ifs at h
    all_goals first
      | exact absurd h hne
      | exact ⟨h, ‹_›⟩
      | simp [State.latchesFor] at h

/-- A latch state is entered with the counter cleared. -/
lemma counter_of_latchesFor (h : (step i s).currentState.latchesFor = some w)
    (hne : s.currentState.latchesFor ≠ some w) : (step i s).stateCounter = 0#16 := by
  rcases counter_step i s with hzero | ⟨hkeeps, -⟩
  · exact hzero
  · generalize (step i s).currentState = q at hkeeps h
    generalize s.currentState = q₀ at hkeeps hne
    cases hkeeps with
    | stay => exact absurd h hne
    | _ => simp [State.latchesFor] at h

/-- Outside the get-config sequence the mode lines are set with the counter cleared, and it runs
until they are latched. -/
lemma counter_of_sets (hw : w ≠ .gcM2 ∧ w ≠ .gcM3) (h : (step i s).currentState.sets = some w) :
    (step i s).stateCounter = 0#16 ∨
      s.currentState.sets = some w ∧ (step i s).stateCounter = s.stateCounter + 1#16 := by
  rcases counter_step i s with hzero | ⟨hkeeps, hcount⟩
  · exact .inl hzero
  · refine .inr ⟨?_, hcount⟩
    generalize (step i s).currentState = q at hkeeps h
    generalize s.currentState = q₀ at hkeeps ⊢
    cases hkeeps with
    | stay => exact h
    | getConfig => exact absurd (Option.some.inj h).symm hw.1
    | xferData => exact absurd (Option.some.inj h).symm hw.2
    | _ => simp [State.sets] at h

/-- The configuration is handed over with the counter at `0`. -/
lemma counter_of_gcXferData (h : (step i s).currentState = .gcXferData) :
    (step i s).stateCounter = 0#16 := by
  have hne : s.currentState ≠ .gcXferData := by
    intro hs
    rw [step_currentState] at h
    simp only [control, hs, onForce] at h
    split_ifs at h
  rcases counter_step i s with hzero | ⟨hkeeps, -⟩
  · exact hzero
  · generalize (step i s).currentState = q at hkeeps h
    generalize s.currentState = q₀ at hkeeps hne
    cases hkeeps with
    | stay => exact absurd h hne
    | _ => exact absurd h (by simp)

lemma phase_of_neededMode (h : s.currentState.neededMode = .m2) : s.phase = .config := by
  unfold Regs.phase
  cases hs : s.currentState <;> simp only [hs, State.neededMode, reduceCtorEq] at h
  all_goals rfl

/-- The mode lines go on from M2 to M3 in `GC_XFER_DATA` only. -/
lemma step_of_neededMode (h : s.currentState.neededMode = .m2) (hf : i.forceFsmIdle = false) :
    (step i s).currentState.neededMode = .m2 ∨
      s.currentState = .gcXferData ∧ (step i s).currentState = .gcSetModeM3 := by
  rw [step_currentState]
  unfold control
  cases hs : s.currentState <;> simp only [hs, State.neededMode, reduceCtorEq] at h
  all_goals
    simp only [onForce, onCount, hs]
    split_ifs
    all_goals first
      | exact absurd (hf.symm.trans ‹i.forceFsmIdle = true›) (by decide)
      | exact .inl rfl
      | exact .inr ⟨trivial, rfl⟩

/-- The get-config sequence is entered from `IDLE`, by a `get_config` that nothing precedes. -/
lemma getsConfig_of_step (h : (step i s).currentState.GetsConfig) :
    s.currentState.GetsConfig ∨
      s.currentState = .idle ∧ triggerAcq i s = false ∧ i.setConfig = false ∧
        i.getConfig = true := by
  rw [step_currentState] at h
  unfold control at h
  cases hs : s.currentState
  case idle =>
    simp only [hs] at h
    split_ifs at h with htrig hset hget
    · exact absurd h (by decide)
    · exact absurd h (by decide)
    · exact .inr ⟨rfl, Bool.eq_false_of_not_eq_true htrig, Bool.eq_false_of_not_eq_true hset, hget⟩
    · exact absurd h (by decide)
  case abortWfifo =>
    rw [hs] at h
    have habort : State.abortSetModeM3.GetsConfig := h
    exact absurd habort (by decide)
  all_goals
    simp only [hs, onForce, onAbort, onCount] at h
    split_ifs at h
    all_goals first
      | exact .inl (by decide)
      | exact absurd h (by simp [State.GetsConfig, State.neededMode])

lemma not_getConfig_of_sets (h : s.currentState.sets = some w)
    (hno : ¬ s.currentState.GetsConfig) : w ≠ .gcM2 ∧ w ≠ .gcM3 := by
  cases hs : s.currentState <;> simp only [hs, State.sets, Option.some.injEq, reduceCtorEq] at h
  case gcSetModeM2 | gcSetModeM3 =>
    rw [hs] at hno
    exact absurd (by decide) hno
  all_goals
    subst h
    exact ⟨by decide, by decide⟩

end Step

namespace Run

variable {r : Run} {w : Switch} {t u : ℕ}

/-- In cycle `u` the ASIC is switched to M1, M2 or M3: `vata_s_latch` rises on its code. -/
def Switches (r : Run) (u : ℕ) : Prop :=
  Rises (fun t => (r.out t).vataSLatch) u ∧
    ∃ m : Mode, (m = .m1 ∨ m = .m2 ∨ m = .m3) ∧ (r.out u).vataMode = m.code

/-- The switch of cycle `u` keeps to figure 6: the mode lines have the new code for ten cycles
before `vata_s_latch` rises, it stays high for ten cycles, and while it does they keep it. -/
structure SwitchTimed (r : Run) (u : ℕ) : Prop where
  setUp : 10 ≤ u ∧ ∀ j, 1 ≤ j → j ≤ 10 → (r.out (u - j)).vataMode = (r.out u).vataMode
  held : ∀ j < 10, (r.out (u + j)).vataSLatch = true
  stable : ∀ v, u ≤ v → (∀ x, u ≤ x → x ≤ v → (r.out x).vataSLatch = true) →
    (r.out v).vataMode = (r.out u).vataMode

/-- A `get_config` is accepted in cycle `t`: the machine is in `IDLE`, and neither a trigger nor a
`set_config` comes before it. -/
def TakesGetConfig (r : Run) (t : ℕ) : Prop :=
  r.Idle t ∧ triggerAcq (r.inp t) (r.regs t) = false ∧ (r.inp t).setConfig = false ∧
    (r.inp t).getConfig = true

lemma FromReset.stateCounter_zero (h : r.FromReset) : (r.regs 0).stateCounter = 0#16 := by
  obtain ⟨edges, pl, hs⟩ := h
  simp [hs, Regs.reset]

/-! ## What a switch waits for -/

/-- A state of a switch lasts until the counter is at `9`. -/
lemma dwells {q : State} (hq : q.sets = some w ∨ q.latchesFor = some w)
    (hforce : ∀ t, (r.inp t).forceFsmIdle = false) (hu : (r.regs u).currentState = q) {j : ℕ}
    (hj : (r.regs u).stateCounter.toNat + j ≤ 9) :
    (r.regs (u + j)).currentState = q ∧
      (r.regs (u + j)).stateCounter.toNat = (r.regs u).stateCounter.toNat + j := by
  induction j with
  | zero => exact ⟨hu, rfl⟩
  | succ j ih =>
      obtain ⟨hstate, hcount⟩ := ih (by omega)
      have hwait : ¬ (r.regs (u + j)).stateCounter ≥ 9#16 := by
        rw [ge_iff_le, BitVec.le_def, hcount]
        have hnine : (9#16).toNat = 9 := rfl
        omega
      have hcontrol := control_of_waiting (by rwa [hstate]) (hforce (u + j)) hwait
      rw [← Nat.add_assoc, regs_succ]
      constructor
      · rw [step_currentState, hcontrol, hstate]
      · rw [step_stateCounter, hcontrol, if_neg Bool.false_ne_true, BitVec.toNat_add, hcount,
          BitVec.toNat_ofNat]
        omega

/-- The latch rises from the state that has set the mode lines. -/
lemma exists_sets_of_switches (hr : r.FromReset) (h : r.Switches u) :
    ∃ v w, u = v + 1 ∧ (r.regs u).currentState.latchesFor = some w ∧
      (r.regs v).currentState.sets = some w ∧ (r.regs v).stateCounter ≥ 9#16 ∧
      (r.regs u).stateCounter = 0#16 := by
  obtain ⟨⟨hhigh, hlow⟩, m, hm, hmode⟩ := h
  obtain ⟨w, hw⟩ := exists_latchesFor hm hhigh hmode
  cases u with
  | zero =>
      have hidle : (r.regs 0).currentState = .idle := hr.idle_zero
      rw [hidle] at hw
      simp [State.latchesFor] at hw
  | succ v =>
      have hne : (r.regs v).currentState.latchesFor ≠ some w := fun hv =>
        absurd ((outputs_of_latchesFor (i := r.inp v) hv).2.symm.trans
          (hlow.resolve_left (Nat.succ_ne_zero v))) (by decide)
      have hstep := r.regs_succ v
      rw [hstep] at hw ⊢
      obtain ⟨hsets, hcount⟩ := sets_of_latchesFor hw hne
      exact ⟨v, w, rfl, hw, hsets, hcount, counter_of_latchesFor hw hne⟩

/-- From the count `9` on the latch rises on the mode that is set. -/
lemma switches_of_sets (hforce : ∀ t, (r.inp t).forceFsmIdle = false)
    (hsets : (r.regs u).currentState.sets = some w) (hcount : (r.regs u).stateCounter ≥ 9#16) :
    r.Switches (u + 1) ∧ (r.regs (u + 1)).currentState.latchesFor = some w ∧
      (r.regs (u + 1)).stateCounter = 0#16 := by
  have hlatch : (step (r.inp u) (r.regs u)).currentState.latchesFor = some w :=
    latchesFor_of_sets hsets (hforce u) hcount
  have hlow := (outputs_of_sets (i := r.inp u) hsets).2
  have hne : (r.regs u).currentState.latchesFor ≠ some w := fun h =>
    absurd ((outputs_of_latchesFor (i := r.inp u) h).2.symm.trans hlow) (by decide)
  have hzero := counter_of_latchesFor hlatch hne
  rw [← regs_succ] at hlatch hzero
  obtain ⟨hmode, hhigh⟩ := outputs_of_latchesFor (i := r.inp (u + 1)) hlatch
  exact ⟨⟨rises_succ.mpr ⟨hhigh, hlow⟩, w.mode, w.mode_eq, hmode⟩, hlatch, hzero⟩

/-- As long as the latch is high its state is not left. -/
lemma latchesFor_while (hw : (r.regs u).currentState.latchesFor = some w) {v : ℕ} (huv : u ≤ v)
    (hhigh : ∀ x, u ≤ x → x ≤ v → (r.out x).vataSLatch = true) :
    (r.regs v).currentState.latchesFor = some w := by
  refine invariant_between (P := fun x => (r.regs x).currentState.latchesFor = some w) hw
    (fun x hux hxv ih => ?_) huv le_rfl
  have hlatch := hhigh (x + 1) (by omega) hxv
  rw [out, outputs_vataSLatch] at hlatch
  rw [regs_succ] at hlatch ⊢
  exact latchesFor_of_latches ih hlatch

/-- Once the mode lines are set up, the latch is held long enough and on what they show. -/
lemma switchTimed_of_setUp (hforce : ∀ t, (r.inp t).forceFsmIdle = false)
    (hlatch : (r.regs u).currentState.latchesFor = some w)
    (hzero : (r.regs u).stateCounter = 0#16) (hu : 10 ≤ u)
    (hsets : ∀ j, 1 ≤ j → j ≤ 10 → (r.regs (u - j)).currentState.sets = some w) :
    r.SwitchTimed u := by
  have hmode : (r.out u).vataMode = w.mode.code := (outputs_of_latchesFor hlatch).1
  refine ⟨⟨hu, fun j hj hj' => ?_⟩, fun j hj => ?_, fun x hux hhigh => ?_⟩
  · rw [hmode]
    exact (outputs_of_sets (hsets j hj hj')).1
  · have hcount : (r.regs u).stateCounter.toNat + j ≤ 9 := by
      rw [hzero, BitVec.toNat_ofNat]
      omega
    have hstay := (dwells (.inr hlatch) hforce rfl hcount).1
    exact (outputs_of_latchesFor (by rw [hstay]; exact hlatch)).2
  · rw [hmode]
    exact (outputs_of_latchesFor (latchesFor_while hlatch hux hhigh)).1

/-! ## The switches of the other sequences -/

/-- The counter is cleared on every way to the mode lines, but for those of a get-config. -/
lemma switchTimed_of_not_getsConfig (hr : r.FromReset)
    (hforce : ∀ t, (r.inp t).forceFsmIdle = false) (h : r.Switches u)
    (hno : ∀ t, ¬ (r.regs t).currentState.GetsConfig) : r.SwitchTimed u := by
  obtain ⟨v, w, rfl, hlatch, hsets, hcount, hzero⟩ := exists_sets_of_switches hr h
  have hw := not_getConfig_of_sets hsets (hno v)
  have hdwelt := dwelt_of_counter (P := fun q => q.sets = some w)
    (fun _ _ => counter_of_sets hw) (fun _ => hr.stateCounter_zero) hsets
  have hnine : 9 ≤ (r.regs v).stateCounter.toNat := hcount
  have hv := (hdwelt 9 hnine).1
  refine switchTimed_of_setUp hforce hlatch hzero (by omega) fun j hj hj' => ?_
  obtain ⟨k, rfl⟩ := Nat.exists_eq_add_of_le' hj
  rw [Nat.add_sub_add_right]
  exact (hdwelt k (by omega)).2

lemma not_getsConfig (hr : r.FromReset) (hno : ∀ t, ¬ r.TakesGetConfig t) (t : ℕ) :
    ¬ (r.regs t).currentState.GetsConfig := by
  induction t with
  | zero =>
      have hidle : (r.regs 0).currentState = .idle := hr.idle_zero
      rw [hidle]
      decide
  | succ t ih =>
      rw [regs_succ]
      exact fun h => (getsConfig_of_step h).elim ih (hno t)

/-! ## The switches of a get-config -/

/-- The counter goes on from `IDLE`. -/
lemma TakesGetConfig.setsM2 (h : r.TakesGetConfig t) :
    (r.regs (t + 1)).currentState = .gcSetModeM2 ∧
      (r.regs (t + 1)).stateCounter = (r.regs t).stateCounter + 1#16 := by
  obtain ⟨hidle, htrig, hset, hget⟩ := h
  have hstate : (r.regs t).currentState = .idle := hidle
  rw [regs_succ, step_currentState, step_stateCounter]
  simp [control, hstate, htrig, hset, hget]

/-- A `get_config` that nothing forces away hands its configuration over. -/
lemma exists_gcXferData (hforce : ∀ t, (r.inp t).forceFsmIdle = false) (h : r.TakesGetConfig t) :
    ∃ v, t < v ∧ (r.regs v).currentState = .gcXferData ∧
      (r.regs (v + 1)).currentState = .gcSetModeM3 := by
  have hfirst := h.setsM2.1
  obtain ⟨d, hgoal, -, hbefore⟩ := exists_first_of_decreasing
    (fun d => (r.regs (t + 1 + d)).currentState = .gcSetModeM3)
    (fun d => (r.regs (t + 1 + d)).currentState.neededMode = .m2 ∨
      (r.regs (t + 1 + d)).currentState = .gcSetModeM3)
    (fun d => remaining (r.regs (t + 1 + d))) (.inl (by rw [Nat.add_zero, hfirst]; rfl)) (by
      rintro d (hm2 | hdone) hno
      · have hconfig := phase_of_neededMode hm2
        exact ⟨(step_of_neededMode hm2 (hforce _)).imp_right And.right,
          remaining_step_lt (fun h => absurd (hconfig.symm.trans h) (by decide))
            fun h => absurd (hconfig.symm.trans h) (by decide)⟩
      · exact absurd hdone hno)
  cases d with
  | zero =>
      rw [Nat.add_zero, hfirst] at hgoal
      exact absurd hgoal (by decide)
  | succ d =>
      obtain ⟨hm2, hno⟩ := hbefore d (Nat.lt_succ_self d)
      rcases step_of_neededMode (hm2.resolve_right hno) (hforce _) with hstill | ⟨hxfer, -⟩
      · have hnot : (r.regs (t + 1 + (d + 1))).currentState.neededMode = .m2 := hstill
        rw [hgoal] at hnot
        exact absurd hnot (by decide)
      · exact ⟨t + 1 + d, by omega, hxfer, hgoal⟩

/-- At the end of a get-config the mode lines have shown M3 for nine cycles only. -/
lemma exists_switch_not_timed (hforce : ∀ t, (r.inp t).forceFsmIdle = false)
    (h : r.TakesGetConfig t) : ∃ u, r.Switches u ∧ ¬ r.SwitchTimed u := by
  obtain ⟨v, htv, hxfer, hset⟩ := exists_gcXferData hforce h
  have hzero : (r.regs v).stateCounter = 0#16 := by
    obtain ⟨v, rfl⟩ := Nat.exists_eq_add_one.mpr (Nat.zero_lt_of_lt htv)
    rw [regs_succ] at hxfer ⊢
    exact counter_of_gcXferData hxfer
  -- `GC_XFER_DATA` does not clear the counter, so `GC_SET_MODE_M3` starts to count at `1`
  have hone : (r.regs (v + 1)).stateCounter.toNat = 1 := by
    rw [regs_succ, step_stateCounter]
    simp [control, hxfer, onForce, hforce v, hzero]
  have hq : State.gcSetModeM3.sets = some .gcM3 := rfl
  obtain ⟨hlast, hcount⟩ := dwells (j := 8) (.inl hq) hforce hset (by omega)
  have hnine : (r.regs (v + 9)).stateCounter ≥ 9#16 := by
    have hle : (9#16).toNat ≤ (r.regs (v + 9)).stateCounter.toNat := by
      rw [hcount, hone]
      exact le_rfl
    exact hle
  have hsets : (r.regs (v + 9)).currentState.sets = some .gcM3 := by
    rw [hlast]
    rfl
  obtain ⟨hswitch, hlatch, -⟩ := switches_of_sets hforce hsets hnine
  refine ⟨v + 10, hswitch, fun htimed => ?_⟩
  have hold : (r.out v).vataMode = Mode.m2.code := by
    rw [out, outputs, hxfer]
    rfl
  have hnew := htimed.setUp.2 10 (by omega) le_rfl
  rw [Nat.add_sub_cancel, hold] at hnew
  exact absurd (hnew.trans (outputs_of_latchesFor hlatch).1) (by decide)

/-- **The switch to M2.**  The counter goes on from `IDLE`, and the latch rises when it has reached
`9`: after a single cycle if it already had.  The set-up time is kept only by a `get_config` that
is accepted in the cycle in which the counter wraps around. -/
theorem switchTimed_m2_iff (hforce : ∀ t, (r.inp t).forceFsmIdle = false)
    (h : r.TakesGetConfig t) :
    r.Switches (t + 2 + (9 - ((r.regs t).stateCounter + 1#16).toNat)) ∧
      (r.SwitchTimed (t + 2 + (9 - ((r.regs t).stateCounter + 1#16).toNat)) ↔
        (r.regs t).stateCounter + 1#16 = 0#16) := by
  obtain ⟨hstate, hcount⟩ := h.setsM2
  rw [← hcount]
  generalize hc : (r.regs (t + 1)).stateCounter.toNat = c
  have hq : State.gcSetModeM2.sets = some .gcM2 := rfl
  -- the last cycle that sets the mode lines
  have hlast : (r.regs (t + 1 + (9 - c))).currentState = .gcSetModeM2 ∧
      9 ≤ (r.regs (t + 1 + (9 - c))).stateCounter.toNat := by
    rcases le_total c 9 with hle | hge
    · obtain ⟨hstay, hnine⟩ := dwells (j := 9 - c) (.inl hq) hforce hstate (by omega)
      exact ⟨hstay, by omega⟩
    · rw [Nat.sub_eq_zero_of_le hge]
      exact ⟨hstate, hge.trans_eq hc.symm⟩
  have hsets : (r.regs (t + 1 + (9 - c))).currentState.sets = some .gcM2 := by
    rw [hlast.1]
    rfl
  obtain ⟨hswitch, hlatch, hzero⟩ := switches_of_sets hforce hsets hlast.2
  have hu : t + 2 + (9 - c) = t + 1 + (9 - c) + 1 := by omega
  rw [hu]
  refine ⟨hswitch, fun htimed => ?_, fun hwrap => ?_⟩
  · -- otherwise the mode lines still showed M3 ten cycles before
    by_contra hne
    have hpos : c ≠ 0 := fun h0 => hne (BitVec.eq_of_toNat_eq (hc.trans h0))
    have hidle : (r.regs t).currentState = .idle := h.1
    have hold : (r.out t).vataMode = Mode.m3.code := by
      rw [out, outputs, hidle]
      rfl
    have hnew := htimed.setUp.2 (2 + (9 - c)) (by omega) (by omega)
    have ht : t + 1 + (9 - c) + 1 - (2 + (9 - c)) = t := by omega
    rw [ht, hold] at hnew
    exact absurd (hnew.trans (outputs_of_latchesFor hlatch).1) (by decide)
  · obtain rfl : c = 0 := by
      rw [← hc, hwrap]
      rfl
    refine switchTimed_of_setUp hforce hlatch hzero (by omega) fun j hj hj' => ?_
    have hset := (dwells (j := 10 - j) (.inl hq) hforce hstate (by omega)).1
    have ht : t + 1 + (9 - 0) + 1 - j = t + 1 + (10 - j) := by omega
    rw [ht, hset]
    rfl

/-! ## Which runs keep to figure 6 -/

/-- **The timing of the mode switches.**  In a run from reset without `force_fsm_idle` every
switch to M1, M2 and M3 keeps to figure 6 if and only if no `get_config` is accepted. -/
theorem switches_timed_iff (hr : r.FromReset) (hforce : ∀ t, (r.inp t).forceFsmIdle = false) :
    (∀ u, r.Switches u → r.SwitchTimed u) ↔ ∀ t, ¬ r.TakesGetConfig t := by
  constructor
  · intro htimed t hget
    obtain ⟨u, hu, hnot⟩ := exists_switch_not_timed hforce hget
    exact hnot (htimed u hu)
  · intro hno u hu
    exact switchTimed_of_not_getsConfig hr hforce hu (not_getsConfig hr hno)

/-- A `set_config` in cycle `0`, and nothing else. -/
def setConfigOnce : Run := ofReset fun t => { Input.quiet with setConfig := decide (t = 0) }

/-- In cycle `11` of `setConfigOnce` the latch rises on M1, as figure 6 has it. -/
theorem setConfigOnce_timed : setConfigOnce.SwitchTimed 11 := by
  have hno : ∀ t, ¬ setConfigOnce.TakesGetConfig t := fun _ hget => Bool.false_ne_true hget.2.2.2
  have hrises : Rises (fun t => (setConfigOnce.out t).vataSLatch) 11 := by
    rw [rises_succ]
    decide +kernel
  exact (switches_timed_iff (fromReset_ofReset _) fun _ => rfl).mpr hno 11
    ⟨hrises, .m1, .inl rfl, by decide +kernel⟩

/-- A `get_config` after twenty cycles in `IDLE`, and nothing else. -/
def getConfigLater : Run := ofReset fun t => { Input.quiet with getConfig := decide (t = 20) }

/-- In `getConfigLater` the mode lines show M2 in cycle `21`, and the latch rises in cycle `22`. -/
theorem getConfigLater_not_timed : ¬ ∀ r : Run, r.FromReset →
    (∀ t, (r.inp t).forceFsmIdle = false) → (∀ t, abortDaq (r.regs t) = false) →
      ∀ u, r.Switches u → r.SwitchTimed u := by
  intro hclaim
  have hget : getConfigLater.TakesGetConfig 20 := by
    refine ⟨?_, ?_, rfl, rfl⟩ <;> decide +kernel
  have hreset : getConfigLater.FromReset := fromReset_ofReset _
  have habort := abortDaq_eq_false_of_timeout_zero hreset fun _ => rfl
  have hcount : (getConfigLater.regs 20).stateCounter = 20#16 := by decide +kernel
  obtain ⟨hswitch, htimed⟩ := switchTimed_m2_iff (fun _ => rfl) hget
  have hwrap := htimed.mp (hclaim getConfigLater hreset (fun _ => rfl) habort _ hswitch)
  rw [hcount] at hwrap
  exact absurd hwrap (by decide)

end Run

end TrackerFpga.Vata
