import TrackerFpga.Vata.Config

/-!
# A read-back that is forced away

`get_config` reads the ASIC register by turning it once around: the bit that leaves at one end is
clocked in again at the other.  Until the last of the 520 edges the register is therefore rotated.
Each state of the sequence has a branch for `force_fsm_idle`, which goes straight to
`ABORT_SET_MODE_M3`, with no state that turns the register on to the end.  What a forced idle
leaves in the ASIC is the register rotated by the edges made so far (`forced_get_config`).
-/

namespace TrackerFpga.Vata

open SerialRegister Clocked

/-- A forced idle ends a configuration sequence. -/
lemma returning_of_forced {i : Input} {s : Regs} (h : s.phase = .config)
    (hforce : i.forceFsmIdle = true) : (step i s).phase = .returning := by
  have hstep := phase_step i s
  rw [h] at hstep
  generalize (step i s).phase = p at hstep
  cases hstep with
  | configForced _ => rfl
  | configGoesOn hf | configDone hf => exact absurd (hforce.symm.trans hf) (by decide)

lemma clockHigh_of_returning {s : Regs} (h : s.phase = .returning ∨ s.phase = .idle) :
    s.currentState.clockHigh = false := by
  unfold Regs.phase at h
  cases hs : s.currentState <;> simp [hs, State.phase] at h <;> rfl

namespace Run

variable {r : Run} {a : Asic} {t f T : ℕ}

/-- The sequence started in the `IDLE` cycle `t` meets its first forced idle in cycle `f`. -/
structure ForcedAway (r : Run) (t f : ℕ) : Prop where
  lt : t < f
  busy : ∀ u, t < u → u ≤ f → ¬ r.Idle u
  calm : ∀ u, t < u → u < f → (r.inp u).forceFsmIdle = false
  forced : (r.inp f).forceFsmIdle = true

/-- The machine is in its configuration sequence up to the forced idle. -/
lemma ForcedAway.config (h : r.ForcedAway t f) (hfirst : r.phase (t + 1) = .config) {u : ℕ}
    (hu : t < u) (huf : u ≤ f) : r.phase u = .config := by
  refine invariant_between (P := fun v => r.phase v = .config) hfirst (fun v hv hvf ih => ?_) hu huf
  have hnext : r.phase (v + 1) = .config ∨ r.phase (v + 1) = .idle :=
    step_of_config ih (h.calm v hv hvf)
  exact hnext.resolve_right fun hidle => h.busy (v + 1) (by omega) hvf (idle_iff.mpr hidle)

/-- On its way back to `IDLE` the machine makes no rising edge of `vata_i1`. -/
lemma asic_eq_of_returning (hfT : f ≤ T)
    (hback : ∀ u, f < u → u ≤ T → r.phase u = .returning ∨ r.phase u = .idle) :
    (r.asic a T).shiftReg = (r.asic a f).shiftReg ∧ (r.asic a T).edges = (r.asic a f).edges := by
  refine invariant_between (P := fun u => (r.asic a u).shiftReg = (r.asic a f).shiftReg ∧
    (r.asic a u).edges = (r.asic a f).edges) ⟨rfl, rfl⟩ (fun u hu huT ih => ?_) hfT le_rfl
  have hlow : (r.out (u + 1)).vataI1 = false := by
    rw [out, outputs_vataI1]
    exact clockHigh_of_returning (hback (u + 1) (Nat.lt_succ_of_le hu) huT)
  obtain ⟨hreg, hedges⟩ := Asic.observe_of_not_rises (o := r.out (u + 1)) (a := r.asic a u)
    (by rw [hlow, Bool.false_and])
  exact ⟨hreg.trans ih.1, hedges.trans ih.2⟩

/-- A sequence that is forced away comes back to `IDLE` with the ASIC as it was in the cycle of
the forced idle. -/
lemma ForcedAway.exists_returns (h : r.ForcedAway t f) (hfirst : r.phase (t + 1) = .config) :
    ∃ T, r.Returns t T ∧ f < T ∧ (r.asic a T).shiftReg = (r.asic a f).shiftReg ∧
      (r.asic a T).edges = (r.asic a f).edges := by
  have hreturning : r.phase (f + 1) = .returning :=
    returning_of_forced (h.config hfirst h.lt le_rfl) h.forced
  obtain ⟨T, hT, hidle, hback⟩ := exists_idle_of_returning hreturning
  have hbusy : ∀ u, t < u → u < T → ¬ r.Idle u := by
    intro u hu huT
    rcases Nat.lt_or_ge f u with hfu | huf
    · rw [idle_iff, hback u hfu huT]
      simp
    · exact h.busy u hu huf
  refine ⟨T, ⟨h.lt.trans (by omega), hidle, hbusy⟩, by omega,
    asic_eq_of_returning (by omega) fun u hu huT => ?_⟩
  rcases Nat.eq_or_lt_of_le huT with rfl | hlt
  · exact .inr (idle_iff.mp hidle)
  · exact .inl (hback u hu hlt)

/-- The get-config sequence started in cycle `t` and forced away in cycle `f` leaves the ASIC
register rotated by the edges of `vata_i1` it had made, and so leaves it as it was exactly when
that rotation does; it does if no edge or every edge was made. -/
structure LeavesRotated (r : Run) (a : Asic) (t f T : ℕ) : Prop where
  returns : r.Returns t T
  late : f < T
  edges : (r.asic a T).edges = (r.asic a t).edges + (r.regs f).edgesDone
  edges_le : (r.regs f).edgesDone ≤ 520
  shiftReg : (r.asic a T).shiftReg = (r.asic a t).shiftReg.rotateLeft (r.regs f).edgesDone
  unchanged : (r.asic a T).shiftReg = (r.asic a t).shiftReg ↔
    (r.asic a t).shiftReg.rotateLeft (r.regs f).edgesDone = (r.asic a t).shiftReg
  ends : (r.regs f).edgesDone = 0 ∨ (r.regs f).edgesDone = 520 →
    (r.asic a T).shiftReg = (r.asic a t).shiftReg

lemma edgesDone_le (s : Regs) : s.edgesDone ≤ 520 := by
  unfold Regs.edgesDone
  split <;> omega

/-- **A forced idle during the read-back.**  In every run, with any content of the ASIC, a
get-config sequence that meets a forced idle in any of its cycles brings the machine back to
`IDLE` with the ASIC register rotated left by the edges that the sequence had made. -/
theorem forced_get_config (hwired : r.Wired a) (hidle : r.Idle t)
    (hcalm : triggerAcq (r.inp t) (r.regs t) = false) (hset : (r.inp t).setConfig = false)
    (hget : (r.inp t).getConfig = true) (hf : r.ForcedAway t f) :
    ∃ T, r.LeavesRotated a t f T := by
  have hfirst := gcSetModeM2_of_get hidle hcalm hset hget
  have hphase : r.phase (t + 1) = .config := by rw [phase, Regs.phase, hfirst]; rfl
  obtain ⟨hdriven, -⟩ := reading hwired hfirst hf.lt fun u hu huf =>
    ⟨hf.config hphase hu huf.le, hf.calm u hu huf⟩
  obtain ⟨T, hT, hfT, hreg, hedges⟩ := hf.exists_returns (a := a) hphase
  have hle := edgesDone_le (r.regs f)
  have hrot : (r.asic a T).shiftReg =
      (r.asic a t).shiftReg.rotateLeft (r.regs f).edgesDone := by
    rw [hreg, hdriven.shiftReg, partlyLoaded_self _ hle]
  refine ⟨T, hT, hfT, hedges.trans hdriven.edges, hle, hrot, by rw [hrot], fun hends => ?_⟩
  rw [hreg, hdriven.shiftReg]
  rcases hends with h | h
  · rw [h, partlyLoaded_zero]
  · rw [h, partlyLoaded_width]

/-- An ASIC whose configuration register holds a single one. -/
def singleOne : Asic := { Asic.blank with shiftReg := 1#520 }

/-- A `get_config` pulse in cycle `0`, and a forced idle six cycles after the first edge. -/
def forcedAfterEdge (t : ℕ) : Input :=
  { Input.quiet with getConfig := decide (t = 0), forceFsmIdle := decide (t = 1025) }

/-- The run of these inputs from reset. -/
def readBackForced : Run := closedLoop (Regs.reset 0#12 0#520) singleOne forcedAfterEdge

lemma readBackForced_forcedAway : readBackForced.ForcedAway 0 1025 := by
  refine ⟨by decide, fun u hu huf hidle => ?_, fun u _ huf => ?_, by decide +kernel⟩
  · have hbusy : ∀ v < 1026, 0 < v →
        (bench (Regs.reset 0#12 0#520) singleOne forcedAfterEdge v).1.currentState ≠ .idle := by
      decide +kernel
    have hbench := congrArg (fun p => p.1.currentState)
      (closedLoop_eq_bench (Regs.reset 0#12 0#520) singleOne forcedAfterEdge u)
    exact hbusy u (by omega) hu (hbench.symm.trans hidle)
  · have hne : u ≠ 1025 := by omega
    simp [readBackForced, forcedAfterEdge, closedLoop, drive, hne]

/-- The ASIC of `readBackForced` is rotated by one edge. -/
theorem readBackForced_rotated : ∃ T, readBackForced.LeavesRotated singleOne 0 1025 T :=
  forced_get_config (wired_closedLoop _ _ _) (by decide) (by decide) (by decide) (by decide)
    readBackForced_forcedAway

/-- The machine comes back to `IDLE`, and the single one has moved. -/
theorem readBackForced_changed : ¬ ∀ (r : Run) (a : Asic) (t f T : ℕ), r.Wired a → r.Idle t →
    triggerAcq (r.inp t) (r.regs t) = false → (r.inp t).setConfig = false →
    (r.inp t).getConfig = true → r.ForcedAway t f → r.Returns t T →
    (r.asic a T).shiftReg = (r.asic a t).shiftReg := by
  intro hclaim
  have hfirst : readBackForced.phase (0 + 1) = .config := by decide
  obtain ⟨T, hT, -, hreg, -⟩ := readBackForced_forcedAway.exists_returns (a := singleOne) hfirst
  have hsame := hclaim readBackForced singleOne 0 1025 T (wired_closedLoop _ _ _) (by decide)
    (by decide) (by decide) (by decide) readBackForced_forcedAway hT
  rw [hreg] at hsame
  have hbench := congrArg (fun p => p.2.shiftReg)
    (closedLoop_eq_bench (Regs.reset 0#12 0#520) singleOne forcedAfterEdge 1025)
  have hmoved := hbench.symm.trans hsame
  exact absurd hmoved (by decide +kernel)

end Run

end TrackerFpga.Vata
