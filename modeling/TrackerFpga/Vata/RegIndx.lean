import TrackerFpga.Vata.Readout

/-!
# The range of `reg_indx`

`reg_indx` is declared `integer range 0 to 519`.  The loops that read and write the configuration
count it down and stop at `0`.  A readout counts it up with every sample, and nothing but `vata_o5`
ends a readout: `inRange_iff` says that the range is left exactly where the ASIC makes the interface
take the sample number `520`, or answers only after `518` or `519` of them.
-/

namespace TrackerFpga.Vata

open Clocked

section Step

variable {i : Input} {s : Regs} {n : ℕ} {e : Bool}

/-- Where the index is counted down it is not `0`. -/
lemma regIndx_ne_zero_of_dec (h : (control i s).decRegIndx = true) : s.regIndx ≠ 0#10 := by
  unfold control at h
  cases hs : s.currentState
  case abortWfifo =>
    rw [hs] at h
    exact absurd h (by simp)
  all_goals
    rw [hs] at h
    simp only [onForce, onAbort, onCount] at h
    split_ifs at h <;> assumption

/-- Where the index is counted up. -/
lemma control_incRegIndx : (control i s).incRegIndx = true ↔
    i.forceFsmIdle = false ∧ abortDaq s = false ∧
      (s.currentState = .roReadO6 ∧ s.stateCounter ≥ 7#16 ∨
        s.currentState = .roClkLo ∧ s.stateCounter ≥ 32#16 ∧ i.vataO5 = true ∧
          s.regIndx ≠ 379#10 ∨
        s.currentState = .roShiftData) := by
  unfold control
  cases hs : s.currentState
  case abortWfifo => simp
  all_goals
    simp only [onForce, onAbort, onCount]
    split_ifs <;> simp_all

/-- The index stays in its range if it is not counted up from `519`. -/
lemma toNat_regIndx_step_le (hle : s.regIndx.toNat ≤ 519)
    (hno : ¬ ((control i s).incRegIndx = true ∧ s.regIndx = 519#10)) :
    (step i s).regIndx.toNat ≤ 519 := by
  have hdec := regIndx_ne_zero_of_dec (i := i) (s := s)
  rw [step_regIndx, nextRegIndx]
  split_ifs with h0 h519 hinc hdec'
  · exact Nat.zero_le _
  · exact le_rfl
  · have hne : s.regIndx ≠ 519#10 := fun heq => hno ⟨hinc, heq⟩
    bv_omega
  · have hne := hdec hdec'
    bv_omega
  · exact hle

/-- The last cycle of a readout clock at whose end `vata_o5` is high. -/
def stopBit (i : Input) (s : Regs) : Bool := endsReadoutClock s && i.vataO5

/-- The index after `n` samples; `stopped` says that the cycle before was that of the stop bit. -/
def Regs.Index (stopped : Bool) (n : ℕ) (s : Regs) : Prop :=
  match s.currentState with
  | .roClkHi | .roReadO6 | .roClkLo => s.regIndx.toNat = n
  | .roShiftData =>
      stopped = true ∧ s.regIndx.toNat = n + 1 ∨ stopped = false ∧ s.regIndx.toNat ≤ 379
  | .roWfifo _ => True
  | _ => n = 0

/-- A cycle of the readout keeps the invariant. -/
lemma index_of_cycle {stopped : Bool} (h : s.Index stopped n)
    (hcycle : ReadoutCycle i s (control i s)) (hle : s.regIndx.toNat ≤ 519)
    (hno : ¬ ((control i s).incRegIndx = true ∧ s.regIndx = 519#10)) :
    (step i s).Index (stopBit i s) (if readsO6 i s then n + 1 else n) := by
  generalize hc : control i s = c at hcycle hno
  cases hcycle with
  | waits hs _ =>
      rcases hs with hs | hs | hs <;> rw [hs] at hc <;> simp only [Regs.Index, hs] at h <;>
        simpa [Regs.Index, hc, nextRegIndx, readsO6] using h
  | falls hs =>
      simp only [Regs.Index, hs] at h
      simpa [Regs.Index, hc, nextRegIndx, readsO6] using h
  | reads hs _ =>
      simp only [Regs.Index, hs] at h
      have hne : s.regIndx ≠ 519#10 := fun heq => hno ⟨rfl, heq⟩
      simp only [Regs.Index, step_currentState, step_regIndx, hc, nextRegIndx, readsO6,
        Bool.false_eq_true, if_false, if_true]
      bv_omega
  | goesOn hs _ _ =>
      simp only [Regs.Index, hs] at h
      simpa [Regs.Index, hc, nextRegIndx, readsO6] using h
  | stopsFull _ _ _ _ | shifted _ _ => simp [Regs.Index, hc]
  | stops hs hcount ho5 _ =>
      simp only [Regs.Index, hs] at h
      have hstop : stopBit i s = true := by simp [stopBit, endsReadoutClock, hs, hcount, ho5]
      have hne : s.regIndx ≠ 519#10 := fun heq => hno ⟨rfl, heq⟩
      simp only [Regs.Index, step_currentState, step_regIndx, hc, nextRegIndx, readsO6,
        Bool.false_eq_true, if_false, if_true]
      exact .inl ⟨hstop, by bv_omega⟩
  | shifts hs hlast =>
      have hstop : stopBit i s = false := by simp [stopBit, endsReadoutClock, hs]
      simp only [Regs.Index, step_currentState, step_regIndx, hc, nextRegIndx,
        Bool.false_eq_true, if_false, if_true]
      exact .inr ⟨hstop, by bv_omega⟩

/-- A cycle of an acquisition that nothing stops keeps the invariant. -/
lemma index_step {stopped : Bool} (h : s.Index stopped n) (hphase : s.phase = .acquiring)
    (hforce : i.forceFsmIdle = false) (habort : abortDaq s = false) (hle : s.regIndx.toNat ≤ 519)
    (hno : ¬ ((control i s).incRegIndx = true ∧ s.regIndx = 519#10)) :
    (step i s).Index (stopBit i s) (if readsO6 i s then n + 1 else n) := by
  unfold Regs.phase at hphase
  cases hs : s.currentState <;> simp only [hs, State.phase, reduceCtorEq] at hphase
  case roClkHi | roReadO6 | roClkLo | roShiftData =>
    refine index_of_cycle h (readoutCycle_control ?_ hforce habort) hle hno
    rw [hs]
    decide
  -- up to the first readout clock nothing is sampled
  all_goals
    simp only [Regs.Index, hs] at h
    rw [readsO6_eq_false (by simp [hs]), if_neg Bool.false_ne_true]
    simp only [Regs.Index, step_currentState, step_regIndx, control, hs, onForce, onAbort, onCount,
      hforce, habort, Bool.false_eq_true, if_false]
    try split_ifs
    all_goals first | exact h | simp_all [nextRegIndx]

/-- After the stop bit the machine makes up for the shifts that are missing. -/
lemma roShiftData_of_stopBit (hstop : stopBit i s = true) (hforce : i.forceFsmIdle = false)
    (habort : abortDaq s = false) (hnext : (step i s).phase = .acquiring) :
    (step i s).currentState = .roShiftData := by
  simp only [stopBit, endsReadoutClock, Bool.and_eq_true, decide_eq_true_eq] at hstop
  obtain ⟨⟨hs, hcount⟩, ho5⟩ := hstop
  rw [Regs.phase, step_currentState] at hnext
  rw [step_currentState]
  unfold control at hnext ⊢
  rw [hs] at hnext ⊢
  simp only [onForce, onAbort, onCount, hforce, habort, hcount, ho5, Bool.false_eq_true, if_false,
    if_true] at hnext ⊢
  split_ifs at hnext ⊢
  · exact absurd hnext (by decide)
  · rfl

lemma readsO6_iff : readsO6 i s = true ↔ i.forceFsmIdle = false ∧ abortDaq s = false ∧
    s.currentState = .roReadO6 ∧ s.stateCounter ≥ 7#16 := by
  by_cases hs : s.currentState = .roReadO6
  · simp only [readsO6, control, hs, onForce, onAbort, onCount]
    split_ifs <;> simp_all
  · simp [readsO6_eq_false hs, hs]

end Step

namespace Run

variable {r : Run} {a t u : ℕ}

/-- In cycle `t` the index is counted out of its range. -/
def LeavesRange (r : Run) (t : ℕ) : Prop :=
  (control (r.inp t) (r.regs t)).incRegIndx = true ∧ (r.regs t).regIndx = 519#10 ∨
    (control (r.inp t) (r.regs t)).decRegIndx = true ∧ (r.regs t).regIndx = 0#10

/-- The index is always one of `0` to `519`, and never counted out of them. -/
structure InRange (r : Run) : Prop where
  range : ∀ t, (r.regs t).regIndx.toNat ≤ 519
  kept : ∀ t, ¬ r.LeavesRange t

/-- Nothing stops the acquisition of cycle `a` in cycle `t`, and after `519` samples another one is
taken or the stop bit comes, or it has come after `518` in the cycle before. -/
def Overruns (r : Run) (a t : ℕ) : Prop :=
  (r.inp t).forceFsmIdle = false ∧ abortDaq (r.regs t) = false ∧
    ((r.o6Bits a t).length = 519 ∧
        (readsO6 (r.inp t) (r.regs t) = true ∨ stopBit (r.inp t) (r.regs t) = true) ∨
      (r.o6Bits a t).length = 518 ∧ stopBit (r.inp (t - 1)) (r.regs (t - 1)) = true)

/-- Nothing stops an acquisition that goes on. -/
lemma AcquiringSince.not_stopped (h : r.AcquiringSince a t) (hau : a < u) (hut : u < t) :
    (r.inp u).forceFsmIdle = false ∧ abortDaq (r.regs u) = false := by
  have hnext : (step (r.inp u) (r.regs u)).phase = .acquiring :=
    h.acquiring (u + 1) (by omega) hut
  rcases acquiring_of_step hnext with ⟨hidle, -⟩ | ⟨-, hgo⟩
  · exact absurd ((h.acquiring u hau hut.le).symm.trans hidle) (by decide)
  · exact hgo

lemma regIndx_le (hr : r.FromReset) (hno : ∀ u < t, ¬ r.LeavesRange u) :
    (r.regs t).regIndx.toNat ≤ 519 := by
  induction t with
  | zero =>
      obtain ⟨edges, pl, hs⟩ := hr
      rw [regs_zero, hs]
      exact Nat.zero_le _
  | succ t ih =>
      rw [regs_succ]
      exact toNat_regIndx_step_le (ih fun u hu => hno u (by omega))
        fun hinc => hno t (Nat.lt_succ_self t) (.inl hinc)

lemma length_o6Bits_succ (hau : a < u) : (r.o6Bits a (u + 1)).length =
    if readsO6 (r.inp u) (r.regs u) then (r.o6Bits a u).length + 1
    else (r.o6Bits a u).length := by
  rw [o6Bits_succ hau, nextBits]
  split_ifs <;> simp

/-- The index in an acquisition, up to the cycle in which it leaves its range. -/
lemma index_acquiring (hr : r.FromReset) (h : r.AcquiringSince a t)
    (hno : ∀ u < t, ¬ r.LeavesRange u) :
    (r.regs t).Index (stopBit (r.inp (t - 1)) (r.regs (t - 1))) (r.o6Bits a t).length := by
  refine invariant_between (P := fun u => (r.regs u).Index
    (stopBit (r.inp (u - 1)) (r.regs (u - 1))) (r.o6Bits a u).length) (a := a + 1) (b := t) ?_
    (fun u hau hut ih => ?_) h.lt le_rfl
  · have hidle : (r.regs a).currentState = .idle := h.accepts.1
    simp [Regs.Index, o6Bits, regs_succ, control, hidle, h.accepts.2]
  · obtain ⟨hforce, habort⟩ := h.not_stopped hau hut
    rw [Nat.add_sub_cancel, length_o6Bits_succ hau, regs_succ]
    exact index_step ih (h.acquiring u hau hut.le) hforce habort
      (regIndx_le hr fun v hv => hno v (by omega)) fun hinc => hno u hut (.inl hinc)

/-- The first time the index leaves its range is an overrun. -/
lemma leavesRange_iff (hr : r.FromReset) (h : r.AcquiringSince a t)
    (hno : ∀ u < t, ¬ r.LeavesRange u) : r.LeavesRange t ↔ r.Overruns a t := by
  have hindex := index_acquiring hr h hno
  constructor
  · rintro (⟨hinc, h519⟩ | ⟨hdec, hzero⟩)
    · obtain ⟨hforce, habort, hwhere⟩ := control_incRegIndx.mp hinc
      refine ⟨hforce, habort, ?_⟩
      rcases hwhere with ⟨hs, hcount⟩ | ⟨hs, hcount, ho5, -⟩ | hs
      · simp only [Regs.Index, hs, h519] at hindex
        exact .inl ⟨hindex.symm, .inl (readsO6_iff.mpr ⟨hforce, habort, hs, hcount⟩)⟩
      · simp only [Regs.Index, hs, h519] at hindex
        exact .inl ⟨hindex.symm, .inr (by simp [stopBit, endsReadoutClock, hs, hcount, ho5])⟩
      · simp only [Regs.Index, hs, h519] at hindex
        rcases hindex with ⟨hstop, hn⟩ | ⟨-, hle⟩
        · exact .inr ⟨(Nat.succ.inj hn).symm, hstop⟩
        · exact absurd hle (by decide)
    · exact absurd hzero (regIndx_ne_zero_of_dec hdec)
  · rintro ⟨hforce, habort, ⟨hn, hread | hstop⟩ | ⟨hn, hstop⟩⟩
    · obtain ⟨-, -, hs, hcount⟩ := readsO6_iff.mp hread
      simp only [Regs.Index, hs, hn] at hindex
      refine .inl ⟨control_incRegIndx.mpr ⟨hforce, habort, .inl ⟨hs, hcount⟩⟩, ?_⟩
      exact BitVec.eq_of_toNat_eq hindex
    · simp only [stopBit, endsReadoutClock, Bool.and_eq_true, decide_eq_true_eq] at hstop
      obtain ⟨⟨hs, hcount⟩, ho5⟩ := hstop
      simp only [Regs.Index, hs, hn] at hindex
      have h519 : (r.regs t).regIndx = 519#10 := BitVec.eq_of_toNat_eq hindex
      refine .inl ⟨control_incRegIndx.mpr ⟨hforce, habort, .inr (.inl ⟨hs, hcount, ho5, ?_⟩)⟩, h519⟩
      rw [h519]
      decide
    · obtain ⟨u, rfl⟩ := Nat.exists_eq_succ_of_ne_zero (Nat.zero_lt_of_lt h.lt).ne'
      rw [Nat.succ_eq_add_one, Nat.add_sub_cancel] at hstop hindex
      have hau : a < u := by
        refine lt_of_le_of_ne (Nat.lt_succ_iff.mp h.lt) ?_
        rintro rfl
        have hidle : (r.regs a).currentState = .idle := h.accepts.1
        simp [stopBit, endsReadoutClock, hidle] at hstop
      obtain ⟨hforce', habort'⟩ := h.not_stopped hau (Nat.lt_succ_self u)
      have hs : (r.regs (u + 1)).currentState = .roShiftData :=
        roShiftData_of_stopBit hstop hforce' habort' (h.acquiring (u + 1) h.lt le_rfl)
      simp only [Regs.Index, hs, hn, hstop, reduceCtorEq, false_and, or_false, true_and] at hindex
      exact .inl ⟨control_incRegIndx.mpr ⟨hforce, habort, .inr (.inr hs)⟩,
        BitVec.eq_of_toNat_eq hindex⟩

/-- The index leaves its range in an acquisition only. -/
lemma acquiring_of_leavesRange (h : r.LeavesRange t) : r.phase t = .acquiring := by
  rcases h with ⟨hinc, -⟩ | ⟨hdec, hzero⟩
  · obtain ⟨-, -, ⟨hs, -⟩ | ⟨hs, -⟩ | hs⟩ := control_incRegIndx.mp hinc <;>
      rw [phase, Regs.phase, hs] <;> rfl
  · exact absurd hzero (regIndx_ne_zero_of_dec hdec)

end Run

/-! ## A readout without a stop bit -/

/-- What is left before the index leaves its range: the states, and the cycles of this one. -/
def readoutLeft (s : Regs) : ℕ :=
  (3 * (519 - s.regIndx.toNat) +
    match s.currentState with
    | .roClkHi => 2
    | .roReadO6 => 1
    | _ => 3) * 65536 + (65535 - s.stateCounter.toNat)

section Low

variable {i : Input} {s : Regs}

/-- A cycle in which the machine waits for a count leaves less. -/
lemma readoutLeft_of_waiting {n : BitVec 16} (hn : ¬ s.stateCounter ≥ n)
    (hc : control i s = { nextState := s.currentState }) :
    (step i s).currentState = s.currentState ∧ readoutLeft (step i s) < readoutLeft s := by
  have hlt : s.stateCounter.toNat < n.toNat := by simpa [BitVec.le_def] using hn
  have hsmall := n.isLt
  have hcount : (step i s).stateCounter.toNat = s.stateCounter.toNat + 1 := by
    rw [step_stateCounter, hc]
    exact Nat.mod_eq_of_lt (show s.stateCounter.toNat + 1 < 2 ^ 16 by omega)
  have hindx : (step i s).regIndx = s.regIndx := by
    rw [step_regIndx, hc]
    rfl
  have hstate : (step i s).currentState = s.currentState := by rw [step_currentState, hc]
  refine ⟨hstate, ?_⟩
  rw [readoutLeft, readoutLeft, hcount, hindx, hstate]
  omega

/-- With `vata_o5` low a readout clock goes on, and so does the next one. -/
lemma readoutLeft_step (hs : s.currentState.ClocksReadout) (hforce : i.forceFsmIdle = false)
    (habort : abortDaq s = false) (ho5 : i.vataO5 = false) (hle : s.regIndx.toNat ≤ 519)
    (hno : ¬ ((control i s).incRegIndx = true ∧ s.regIndx = 519#10)) :
    (step i s).currentState.ClocksReadout ∧ readoutLeft (step i s) < readoutLeft s := by
  have hcycle := readoutCycle_control (.inl hs) hforce habort
  generalize hc : control i s = c at hcycle hno
  cases hcycle with
  | waits _ hcount =>
      obtain ⟨hstate, hless⟩ := readoutLeft_of_waiting hcount hc
      exact ⟨hstate ▸ hs, hless⟩
  | falls hs =>
      refine ⟨.inr (.inl (by rw [step_currentState, hc])), ?_⟩
      simp only [readoutLeft, step_currentState, step_regIndx, step_stateCounter, hc, hs,
        nextRegIndx, Bool.false_eq_true, if_false, if_true]
      bv_omega
  | reads hs _ =>
      have hne : s.regIndx ≠ 519#10 := fun heq => hno ⟨rfl, heq⟩
      refine ⟨.inr (.inr (by rw [step_currentState, hc])), ?_⟩
      simp only [readoutLeft, step_currentState, step_regIndx, step_stateCounter, hc, hs,
        nextRegIndx, Bool.false_eq_true, if_false, if_true]
      bv_omega
  | goesOn hs _ _ =>
      refine ⟨.inl (by rw [step_currentState, hc]), ?_⟩
      simp only [readoutLeft, step_currentState, step_regIndx, step_stateCounter, hc, hs,
        nextRegIndx, Bool.false_eq_true, if_false, if_true]
      bv_omega
  | stopsFull _ _ ho5' _ | stops _ _ ho5' _ => exact absurd (ho5.symm.trans ho5') (by decide)
  | shifts hs' _ | shifted hs' _ =>
      rw [hs'] at hs
      exact absurd hs (by decide)

end Low

namespace Run

variable {r : Run} {t : ℕ}

/-- If the ASIC never ends a readout and nothing else does, the index leaves its range. -/
lemma exists_leavesRange (hr : r.FromReset)
    (ht : (r.regs t).currentState.ClocksReadout)
    (hgo : ∀ u, t ≤ u → (r.inp u).forceFsmIdle = false ∧ abortDaq (r.regs u) = false ∧
      (r.inp u).vataO5 = false) : ∃ u, r.LeavesRange u := by
  by_contra hnever
  have hno : ∀ u, ¬ r.LeavesRange u := fun u hleaves => hnever ⟨u, hleaves⟩
  obtain ⟨d, hgoal, -⟩ := exists_first_of_decreasing (fun _ => False)
    (fun d => (r.regs (t + d)).currentState.ClocksReadout)
    (fun d => readoutLeft (r.regs (t + d))) ht (by
      intro d hs _
      obtain ⟨hforce, habort, ho5⟩ := hgo (t + d) (Nat.le_add_right t d)
      rw [← Nat.add_assoc, regs_succ]
      exact readoutLeft_step hs hforce habort ho5 (regIndx_le hr fun u _ => hno u)
        fun hinc => hno (t + d) (.inl hinc))
  exact hgoal

/-- **The range of `reg_indx`.**  The index stays in its range in a run exactly if no acquisition
overruns. -/
theorem inRange_iff (hr : r.FromReset) :
    r.InRange ↔ ∀ a t, r.AcquiringSince a t → ¬ r.Overruns a t := by
  constructor
  · intro hrange a t h hover
    exact hrange.kept t ((leavesRange_iff hr h fun u _ => hrange.kept u).mpr hover)
  · intro hall
    have hkept : ∀ t, ¬ r.LeavesRange t := by
      intro t
      induction t using Nat.strong_induction_on with
      | _ t ih =>
          intro hleaves
          obtain ⟨a, h⟩ := exists_acquiringSince hr.idle_zero (acquiring_of_leavesRange hleaves)
          exact hall a t h ((leavesRange_iff hr h ih).mp hleaves)
    exact ⟨fun t => regIndx_le hr fun u _ => hkept u, hkept⟩

/-- A forced trigger in cycle `0`, answered by an ASIC that ends the conversion but not the
readout. -/
def noStopBit : Run := ofReset fun t =>
  { Input.quiet with
    forceTrigger := decide (t = 0), forceTriggerEna := true, vataO5 := decide (t < 116) }

lemma noStopBit_leavesRange : ∃ u, noStopBit.LeavesRange u := by
  have hr : noStopBit.FromReset := fromReset_ofReset _
  have hfirst : (noStopBit.regs 116).currentState = .roClkHi := by decide +kernel
  refine exists_leavesRange hr (.inl hfirst) fun u hu => ⟨rfl, ?_, ?_⟩
  · exact abortDaq_eq_false_of_timeout_zero hr (fun _ => rfl) u
  · exact decide_eq_false (not_lt.mpr hu)

/-- Its acquisition overruns. -/
theorem noStopBit_overruns : ∃ a t, noStopBit.AcquiringSince a t ∧ noStopBit.Overruns a t := by
  by_contra hnone
  obtain ⟨u, hu⟩ := noStopBit_leavesRange
  refine ((inRange_iff (fromReset_ofReset _)).mpr fun a t h hover => ?_).kept u hu
  exact hnone ⟨a, t, h, hover⟩

/-- The index does not stay in its range in every run. -/
theorem noStopBit_not_inRange : ¬ ∀ r : Run, r.FromReset → r.InRange := by
  intro hclaim
  obtain ⟨u, hu⟩ := noStopBit_leavesRange
  exact (hclaim noStopBit (fromReset_ofReset _)).kept u hu

end Run

end TrackerFpga.Vata
