import TrackerFpga.Vata.Phase

/-!
# Every command and every acquisition ends

The main machine has two loops that the ASIC controls: the conversion clock and the readout
clock both run until `vata_o5` is high.  Outside them each cycle brings the machine nearer to
`IDLE`: `remaining` is a measure that every cycle decreases, whatever `force_fsm_idle` and
`abort_daq` do, provided `vata_o5` is high in the acquisition.
-/

namespace TrackerFpga.Vata

open Clocked

/-- How many stages of its sequence the machine has before it: the configuration loops count the
bits that are left, the fast shift loop the shifts. -/
def stage (state : State) (indx : ℕ) : ℕ :=
  match state with
  | .idle => 0
  | .scSetModeM1 => 3 * 1024 + 12
  | .scLatchModeM1 => 3 * 1024 + 11
  | .scLowerLatchM1 => 3 * 1024 + 10
  | .scSetDataI3 => 3 * indx + 9
  | .scClockData => 3 * indx + 8
  | .scLowerClock => 3 * indx + 7
  | .scSetModeM3 => 6
  | .scLatchModeM3 => 5
  | .gcSetModeM2 => 5 * 1024 + 16
  | .gcLatchModeM2 => 5 * 1024 + 15
  | .gcLowerLatchM2 => 5 * 1024 + 14
  | .gcSetDataI3 => 5 * indx + 12
  | .gcClockData => 5 * indx + 11
  | .gcShiftCfgReg => 5 * indx + 10
  | .gcReadO5 => 5 * indx + 9
  | .gcLowerClock => 5 * indx + 8
  | .gcXferData => 7
  | .gcSetModeM3 => 6
  | .gcLatchModeM3 => 5
  | .acqDelay => 2013
  | .acqHold => 2012
  | .acqLowerI1 => 2011
  | .acqSetModeM4 => 2010
  | .convLatchM4 => 2009
  | .convRaiseI3 => 2008
  | .convLowerI4 => 2007
  | .convClkLo => 2006
  | .convClkHi => 2005
  | .convSetModeM5 => 2004
  | .roLatchModeM5 => 2003
  | .roClkHi => 2002
  | .roReadO6 => 2001
  | .roClkLo => 2000
  | .roShiftData => 100 + (1024 - indx)
  | .roWfifo k => 30 - k.val
  | .roSetModeM3 => 4
  | .roLatchModeM3 => 3
  | .abortWfifo => 5
  | .abortSetModeM3 => 2
  | .abortLatchModeM3 => 1

/-- The measure: the stages left, then the cycles left in this one. -/
def remaining (s : Regs) : ℕ :=
  stage s.currentState s.regIndx.toNat * 65536 + (65535 - s.stateCounter.toNat)

/-- A step to an earlier stage decreases the measure. -/
lemma remaining_lt_of_stage_lt {s s' : Regs}
    (h : stage s'.currentState s'.regIndx.toNat < stage s.currentState s.regIndx.toNat) :
    remaining s' < remaining s := by
  unfold remaining
  omega

/-- A cycle spent waiting for the count `n` decreases the measure. -/
lemma remaining_lt_of_waiting {s s' : Regs} {n : BitVec 16} (hn : ¬ s.stateCounter ≥ n)
    (hstate : s'.currentState = s.currentState) (hindx : s'.regIndx = s.regIndx)
    (hcount : s'.stateCounter = s.stateCounter + 1#16) : remaining s' < remaining s := by
  unfold remaining
  rw [hstate, hindx, hcount]
  have hlt : s.stateCounter.toNat < n.toNat := by simpa [BitVec.le_def] using hn
  have := n.isLt
  rw [BitVec.toNat_add, BitVec.toNat_ofNat]
  omega

/-- Outside `IDLE` a cycle either waits for a count or goes to an earlier stage. -/
lemma control_progress {i : Input} {s : Regs} (hidle : s.phase ≠ .idle)
    (ho5 : s.phase = .acquiring → i.vataO5 = true) :
    (∃ n, ¬ s.stateCounter ≥ n ∧ control i s = { nextState := s.currentState }) ∨
      stage (control i s).nextState (nextRegIndx (control i s) s.regIndx).toNat
        < stage s.currentState s.regIndx.toNat := by
  have hindx := s.regIndx.isLt
  unfold Regs.phase at hidle ho5
  cases hs : s.currentState
  case idle => simp [hs, State.phase] at hidle
  case abortWfifo =>
    right
    simp [control, hs, stage]
  all_goals
    simp only [hs, State.phase, forall_const, reduceCtorEq, false_implies] at ho5
    simp only [control, hs, onForce, onAbort, onCount]
    split_ifs
    all_goals first
      | exact .inl ⟨_, ‹¬ _ ≥ _›, rfl⟩
      | (right; simp [stage, nextRegIndx])
  -- what is left compares the stages of a loop before and after one of its rounds
  all_goals bv_omega

lemma remaining_step_lt {i : Input} {s : Regs} (hidle : s.phase ≠ .idle)
    (ho5 : s.phase = .acquiring → i.vataO5 = true) : remaining (step i s) < remaining s := by
  rcases control_progress hidle ho5 with ⟨n, hn, hc⟩ | hlt
  · exact remaining_lt_of_waiting hn (by simp [hc]) (by simp [hc, nextRegIndx]) (by simp [hc])
  · exact remaining_lt_of_stage_lt hlt

namespace Run

variable {r : Run} {t : ℕ}

/-- A phase that lasts until the machine is in `IDLE`, and needs no answer of the ASIC, ends. -/
lemma exists_idle_of_lasting {p : Phase} (hp : p ≠ .idle) (hno5 : p ≠ .acquiring)
    (ht : r.phase t = p)
    (hstep : ∀ u, t ≤ u → r.phase u = p → r.phase (u + 1) = p ∨ r.phase (u + 1) = .idle) :
    ∃ t', t < t' ∧ r.Idle t' ∧ ∀ u, t ≤ u → u < t' → r.phase u = p := by
  obtain ⟨d, hgoal, -, hbefore⟩ := exists_first_of_decreasing (fun d => r.Idle (t + d))
    (fun d => r.phase (t + d) = p ∨ r.phase (t + d) = .idle)
    (fun d => remaining (r.regs (t + d))) (.inl ht) (by
      rintro d (hlasting | hidle) hno
      · refine ⟨hstep (t + d) (Nat.le_add_right t d) hlasting,
          remaining_step_lt (fun h => hno (idle_iff.mpr h))
            (fun h => absurd (hlasting.symm.trans h) hno5)⟩
      · exact absurd (idle_iff.mpr hidle) hno)
  have hlasting : ∀ u, t ≤ u → u < t + d → r.phase u = p := by
    intro u hu hut
    obtain ⟨e, rfl⟩ := Nat.exists_eq_add_of_le hu
    obtain ⟨hinv, hno⟩ := hbefore e (by omega)
    exact hinv.resolve_right fun h => hno (idle_iff.mpr h)
  refine ⟨t + d, ?_, hgoal, hlasting⟩
  rcases Nat.eq_zero_or_pos d with rfl | hd
  · rw [Nat.add_zero, idle_iff, ht] at hgoal
    exact absurd hgoal hp
  · omega

/-- A configuration command that is not forced away ends in `IDLE`. -/
lemma exists_idle_of_config (ht : r.phase t = .config)
    (hforce : ∀ u, t ≤ u → (r.inp u).forceFsmIdle = false) :
    ∃ t', t < t' ∧ r.Idle t' ∧ ∀ u, t ≤ u → u < t' → r.phase u = .config :=
  exists_idle_of_lasting (by decide) (by decide) ht fun u hu hconfig =>
    step_of_config hconfig (hforce u hu)

/-- The machine comes back to `IDLE` whatever its inputs are. -/
lemma exists_idle_of_returning (ht : r.phase t = .returning) :
    ∃ t', t < t' ∧ r.Idle t' ∧ ∀ u, t ≤ u → u < t' → r.phase u = .returning :=
  exists_idle_of_lasting (by decide) (by decide) ht fun _ _ hreturning =>
    step_of_returning hreturning

/-- An acquisition that nothing stops sends its first word. -/
lemma exists_firstWord (ht : r.phase t = .acquiring)
    (hgo : ∀ u, t ≤ u → r.phase u = .acquiring →
      (r.inp u).vataO5 = true ∧ (r.inp u).forceFsmIdle = false ∧ abortDaq (r.regs u) = false) :
    ∃ w, t < w ∧ r.phase w = .sending 0 ∧ ∀ u, t ≤ u → u < w → r.phase u = .acquiring := by
  obtain ⟨d, hgoal, hinv, hbefore⟩ := exists_first_of_decreasing
    (fun d => r.phase (t + d) = .sending 0)
    (fun d => r.phase (t + d) = .acquiring ∨ r.phase (t + d) = .sending 0)
    (fun d => remaining (r.regs (t + d))) (.inl ht) (by
      rintro d (hacq | hsend) hno
      · obtain ⟨ho5, hforce, habort⟩ := hgo (t + d) (Nat.le_add_right t d) hacq
        refine ⟨?_, remaining_step_lt (fun h => absurd (hacq.symm.trans h) (by decide))
          fun _ => ho5⟩
        exact step_of_acquiring hacq hforce habort
      · exact absurd hsend hno)
  refine ⟨t + d, ?_, hgoal, fun u hu hut => ?_⟩
  · rcases Nat.eq_zero_or_pos d with rfl | hd
    · rw [Nat.add_zero, ht] at hgoal
      simp at hgoal
    · omega
  · obtain ⟨e, rfl⟩ := Nat.exists_eq_add_of_le hu
    exact (hbefore e (by omega)).1.resolve_right (hbefore e (by omega)).2

end Run

end TrackerFpga.Vata
