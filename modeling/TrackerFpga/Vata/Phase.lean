import TrackerFpga.Vata.IfaceFsm

/-!
# The phases of an acquisition

What the states of the main machine are for: the machine waits (`idle`), talks to the
configuration register (`config`), acquires and reads one event (`acquiring`), sends its packet
word by word (`sending k`), and brings the ASIC back to mode M3 (`returning`).  `Phase.Step` says
which phase may follow which, and on what events; `phase_step` is the refinement: every clock
cycle of the interface is a step of this abstract machine.  Everything about framing, event
numbers, aborts and event ids is proved on the phases, so this file alone looks at the
transitions of all the states.

`closing` is the phase of `ABORT_WFIFO`, the state that would close a packet with an abort word.
No phase leads to it.
-/

namespace TrackerFpga.Vata

open Clocked

/-- The phases of the main machine; in `sending k` the word `k` of a packet is offered. -/
inductive Phase
  | idle
  | config
  | acquiring
  | sending (k : ℕ)
  | returning
  | closing
  deriving DecidableEq, Repr

/-- An acquisition is under way: it is being acquired or its packet is being sent. -/
def Phase.Active (p : Phase) : Prop := p = .acquiring ∨ ∃ k, p = .sending k

/-- The phase a state belongs to. -/
def State.phase : State → Phase
  | .idle => .idle
  | .scSetModeM1 | .scLatchModeM1 | .scLowerLatchM1 | .scSetDataI3 | .scClockData
  | .scLowerClock | .scSetModeM3 | .scLatchModeM3 => .config
  | .gcSetModeM2 | .gcLatchModeM2 | .gcLowerLatchM2 | .gcSetDataI3 | .gcClockData
  | .gcShiftCfgReg | .gcReadO5 | .gcLowerClock | .gcXferData | .gcSetModeM3
  | .gcLatchModeM3 => .config
  | .acqDelay | .acqHold | .acqLowerI1 | .acqSetModeM4 => .acquiring
  | .convLatchM4 | .convRaiseI3 | .convLowerI4 | .convClkHi | .convClkLo
  | .convSetModeM5 => .acquiring
  | .roLatchModeM5 | .roClkHi | .roReadO6 | .roClkLo | .roShiftData => .acquiring
  | .roWfifo k => .sending k
  | .roSetModeM3 | .roLatchModeM3 => .returning
  | .abortWfifo => .closing
  | .abortSetModeM3 | .abortLatchModeM3 => .returning

/-- The phase of the main machine. -/
def Regs.phase (s : Regs) : Phase := s.currentState.phase

/-- What decides the next phase: `trigger_acq`, a configuration command, `force_fsm_idle` and
`abort_daq`. -/
structure Events where
  trigger : Bool
  command : Bool
  force : Bool
  abort : Bool

/-- The events of a cycle. -/
def events (i : Input) (s : Regs) : Events where
  trigger := triggerAcq i s
  command := i.setConfig || i.getConfig
  force := i.forceFsmIdle
  abort := abortDaq s

/-- The transitions between phases. -/
inductive Phase.Step (e : Events) : Phase → Phase → Prop
  | accept : e.trigger = true → Step e .idle .acquiring
  | command : e.trigger = false → e.command = true → Step e .idle .config
  | wait : e.trigger = false → e.command = false → Step e .idle .idle
  | configForced : e.force = true → Step e .config .returning
  | configGoesOn : e.force = false → Step e .config .config
  | configDone : e.force = false → Step e .config .idle
  | acquiringForced : e.force = true → Step e .acquiring .returning
  | stopped : e.force = false → e.abort = true → Step e .acquiring .returning
  | acquiringGoesOn : e.force = false → e.abort = false → Step e .acquiring .acquiring
  | firstWord : e.force = false → e.abort = false → Step e .acquiring (.sending 0)
  | sendingForced (k : ℕ) : e.force = true → Step e (.sending k) .returning
  | nextWord (k : ℕ) : k < 18 → e.force = false → Step e (.sending k) (.sending (k + 1))
  | lastWord : e.force = false → Step e (.sending 18) .returning
  | returningGoesOn : Step e .returning .returning
  | returned : Step e .returning .idle
  | closed : Step e .closing .returning

lemma phase_eq_idle_iff {s : Regs} : s.phase = .idle ↔ s.currentState = .idle := by
  unfold Regs.phase
  cases s.currentState <;> simp [State.phase]

lemma phase_eq_sending_iff {s : Regs} {k : ℕ} :
    s.phase = .sending k ↔ ∃ hk : k < 19, s.currentState = .roWfifo ⟨k, hk⟩ := by
  unfold Regs.phase
  cases hs : s.currentState
  case roWfifo j =>
    simp only [State.phase, Phase.sending.injEq, State.roWfifo.injEq]
    exact ⟨fun h => ⟨h ▸ j.isLt, Fin.ext h⟩, fun ⟨_, h⟩ => congrArg Fin.val h⟩
  all_goals simp [State.phase]

/-- **Refinement.**  A clock cycle of the interface is a step of the abstract machine. -/
theorem phase_step (i : Input) (s : Regs) : s.phase.Step (events i s) (step i s).phase := by
  have hnext : (step i s).phase = (control i s).nextState.phase := rfl
  rw [hnext, Regs.phase]
  cases hs : s.currentState
  case idle =>
    simp only [control, hs]
    split_ifs with htrig hset hget
    · exact .accept htrig
    · exact .command (Bool.eq_false_of_not_eq_true htrig) (by simp [hset, events])
    · exact .command (Bool.eq_false_of_not_eq_true htrig) (by simp [hget, events])
    · exact .wait (Bool.eq_false_of_not_eq_true htrig) (by simp [hset, hget, events])
  case roWfifo k =>
    simp only [control, hs, onForce]
    split_ifs with hk hf hf
    · exact .sendingForced k hf
    · exact .nextWord k hk (Bool.eq_false_of_not_eq_true hf)
    · exact .sendingForced k hf
    · obtain rfl : k = 18 := by omega
      exact .lastWord (Bool.eq_false_of_not_eq_true hf)
  case abortWfifo =>
    simp only [control, hs]
    exact .closed
  -- every other state is a guard on `force_fsm_idle`, one on `abort_daq` and one on a count
  all_goals
    simp only [control, hs, onForce, onAbort, onCount]
    split_ifs <;>
    first
      | exact .configForced ‹_›
      | exact .acquiringForced ‹_›
      | exact .returningGoesOn
      | exact .returned
      | exact .configGoesOn (Bool.eq_false_of_not_eq_true ‹_›)
      | exact .configDone (Bool.eq_false_of_not_eq_true ‹_›)
      | exact .stopped (Bool.eq_false_of_not_eq_true ‹¬ i.forceFsmIdle = true›) ‹_›
      | exact .acquiringGoesOn (Bool.eq_false_of_not_eq_true ‹¬ i.forceFsmIdle = true›)
          (Bool.eq_false_of_not_eq_true ‹¬ abortDaq s = true›)
      | exact .firstWord (Bool.eq_false_of_not_eq_true ‹¬ i.forceFsmIdle = true›)
          (Bool.eq_false_of_not_eq_true ‹¬ abortDaq s = true›)

/-! ## What one step says about the phase before it -/

section Inversion

variable {i : Input} {s : Regs}

lemma acquiring_of_step (h : (step i s).phase = .acquiring) :
    s.phase = .idle ∧ triggerAcq i s = true ∨
      s.phase = .acquiring ∧ i.forceFsmIdle = false ∧ abortDaq s = false := by
  have hstep := phase_step i s
  rw [h] at hstep
  generalize s.phase = p at hstep
  cases hstep with
  | accept ht => exact .inl ⟨rfl, ht⟩
  | acquiringGoesOn hf ha => exact .inr ⟨rfl, hf, ha⟩

lemma sending_zero_of_step (h : (step i s).phase = .sending 0) :
    s.phase = .acquiring ∧ i.forceFsmIdle = false ∧ abortDaq s = false := by
  have hstep := phase_step i s
  rw [h] at hstep
  generalize s.phase = p at hstep
  cases hstep with
  | firstWord hf ha => exact ⟨rfl, hf, ha⟩

lemma sending_succ_of_step {k : ℕ} (h : (step i s).phase = .sending (k + 1)) :
    s.phase = .sending k ∧ k < 18 ∧ i.forceFsmIdle = false := by
  have hstep := phase_step i s
  rw [h] at hstep
  generalize s.phase = p at hstep
  cases hstep with
  | nextWord _ hk hf => exact ⟨rfl, hk, hf⟩

/-- `ABORT_WFIFO` is entered from no state. -/
lemma step_phase_ne_closing : (step i s).phase ≠ .closing := by
  intro h
  have hstep := phase_step i s
  rw [h] at hstep
  generalize s.phase = p at hstep
  cases hstep

end Inversion

/-! ## What one step says about the phase after it -/

section Forward

variable {i : Input} {s : Regs}

lemma step_of_idle (h : s.phase = .idle) (ht : triggerAcq i s = true) :
    (step i s).phase = .acquiring := by
  have hstep := phase_step i s
  rw [h] at hstep
  generalize (step i s).phase = p at hstep
  cases hstep with
  | accept _ => rfl
  | command hf _ => exact absurd (ht.symm.trans hf) (by decide)
  | wait hf _ => exact absurd (ht.symm.trans hf) (by decide)

lemma step_of_config (h : s.phase = .config) (hf : i.forceFsmIdle = false) :
    (step i s).phase = .config ∨ (step i s).phase = .idle := by
  have hstep := phase_step i s
  rw [h] at hstep
  generalize (step i s).phase = p at hstep
  cases hstep with
  | configForced hf' => exact absurd (hf.symm.trans hf') (by decide)
  | configGoesOn _ => exact .inl rfl
  | configDone _ => exact .inr rfl

lemma step_of_sending {k : ℕ} (h : s.phase = .sending k) (hk : k < 18)
    (hf : i.forceFsmIdle = false) : (step i s).phase = .sending (k + 1) := by
  have hstep := phase_step i s
  rw [h] at hstep
  generalize (step i s).phase = p at hstep
  cases hstep with
  | sendingForced _ hf' => exact absurd (hf.symm.trans hf') (by decide)
  | nextWord _ _ _ => rfl
  | lastWord _ => omega

lemma step_of_sending_last (h : s.phase = .sending 18) : (step i s).phase = .returning := by
  have hstep := phase_step i s
  rw [h] at hstep
  generalize (step i s).phase = p at hstep
  cases hstep with
  | sendingForced _ _ => rfl
  | nextWord _ hk _ => omega
  | lastWord _ => rfl

lemma step_of_stopped (h : s.phase = .acquiring)
    (hstop : i.forceFsmIdle = true ∨ abortDaq s = true) : (step i s).phase = .returning := by
  have hstep := phase_step i s
  rw [h] at hstep
  generalize (step i s).phase = p at hstep
  cases hstep with
  | acquiringForced _ => rfl
  | stopped _ _ => rfl
  | acquiringGoesOn hf ha | firstWord hf ha =>
      rcases hstop with h' | h'
      · exact absurd (h'.symm.trans hf) (by decide)
      · exact absurd (h'.symm.trans ha) (by decide)

lemma step_of_acquiring (h : s.phase = .acquiring) (hf : i.forceFsmIdle = false)
    (ha : abortDaq s = false) :
    (step i s).phase = .acquiring ∨ (step i s).phase = .sending 0 := by
  have hstep := phase_step i s
  rw [h] at hstep
  generalize (step i s).phase = p at hstep
  cases hstep with
  | acquiringForced hf' => exact absurd (hf.symm.trans hf') (by decide)
  | stopped _ ha' => exact absurd (ha.symm.trans ha') (by decide)
  | acquiringGoesOn _ _ => exact .inl rfl
  | firstWord _ _ => exact .inr rfl

lemma step_of_returning (h : s.phase = .returning) :
    (step i s).phase = .returning ∨ (step i s).phase = .idle := by
  have hstep := phase_step i s
  rw [h] at hstep
  generalize (step i s).phase = p at hstep
  cases hstep with
  | returningGoesOn => exact .inl rfl
  | returned => exact .inr rfl

lemma step_of_active (h : s.phase.Active) :
    (step i s).phase.Active ∨ (step i s).phase = .returning := by
  have hstep := phase_step i s
  rcases h with h | ⟨k, h⟩ <;> rw [h] at hstep <;> generalize (step i s).phase = p at hstep
  · cases hstep with
    | acquiringForced _ | stopped _ _ => exact .inr rfl
    | acquiringGoesOn _ _ => exact .inl (.inl rfl)
    | firstWord _ _ => exact .inl (.inr ⟨0, rfl⟩)
  · cases hstep with
    | sendingForced _ _ | lastWord _ => exact .inr rfl
    | nextWord _ _ _ => exact .inl (.inr ⟨k + 1, rfl⟩)

end Forward

/-! ## The strobes and the outputs, by phase -/

section Strobes

variable (i : Input) (s : Regs)

/-- The header is latched exactly when an acquisition is accepted. -/
lemma control_setPktData :
    (control i s).setPktData = (decide (s.currentState = .idle) && triggerAcq i s) := by
  cases hs : s.currentState
  case idle =>
    simp only [control, hs, decide_true, Bool.true_and]
    split_ifs with ht <;> simp [ht]
  case abortWfifo => simp [control, hs]
  all_goals
    simp only [control, hs, onForce, onAbort, onCount]
    split_ifs <;> simp

/-- The event counter counts exactly where the last word of a packet is not forced away. -/
lemma control_incEventCounter :
    (control i s).incEventCounter =
      (decide (s.currentState = .roWfifo 18) && !i.forceFsmIdle) := by
  cases hs : s.currentState
  case roWfifo k =>
    simp only [control, hs, onForce]
    by_cases hk : k.val < 18
    · have hne : k ≠ 18 := fun h => by simp [h] at hk
      rw [dif_pos hk]
      split_ifs <;> simp [hne]
    · obtain rfl : k = 18 := by omega
      rw [dif_neg hk]
      cases i.forceFsmIdle <;> simp
  case abortWfifo => simp [control, hs]
  all_goals
    simp only [control, hs, onForce, onAbort, onCount]
    split_ifs <;> simp

lemma outputs_dataTvalid :
    (outputs i s).dataTvalid = true ↔ (∃ k, s.phase = .sending k) ∨ s.phase = .closing := by
  unfold outputs Regs.phase
  cases s.currentState <;> simp [State.phase]

lemma outputs_of_sending {k : Fin 19} (h : s.currentState = .roWfifo k) :
    outputs i s =
      { vataI3 := true, vataMode := 4#3, dataTvalid := true, dataTdata := wfifoWord s k,
        dataTlast := decide (k = 18), eventIdClr := decide (k = 1) } := by
  rw [outputs, h]

lemma outputs_eventIdClr : (outputs i s).eventIdClr = true ↔ s.phase = .sending 1 := by
  unfold outputs Regs.phase
  cases s.currentState
  case roWfifo k =>
    simp only [State.phase, decide_eq_true_eq, Phase.sending.injEq]
    omega
  all_goals simp [State.phase]

end Strobes

/-! ## Acquisitions in a run -/

namespace Run

/-- The phase in cycle `t`. -/
def phase (r : Run) (t : ℕ) : Phase := (r.regs t).phase

variable {r : Run} {a t w k : ℕ}

lemma idle_iff : r.Idle t ↔ r.phase t = .idle := phase_eq_idle_iff.symm

lemma FromReset.idle_zero (h : r.FromReset) : r.Idle 0 := by
  obtain ⟨edges, pl, hs⟩ := h
  simp [Idle, hs, Regs.reset]

/-- The acquisition accepted in cycle `a` is still being acquired in cycle `t`. -/
structure AcquiringSince (r : Run) (a t : ℕ) : Prop where
  accepts : r.Accepts a
  lt : a < t
  acquiring : ∀ u, a < u → u ≤ t → r.phase u = .acquiring

lemma exists_acquiringSince (h0 : r.Idle 0) (ht : r.phase t = .acquiring) :
    ∃ a, r.AcquiringSince a t := by
  induction t with
  | zero => simp [idle_iff.mp h0] at ht
  | succ t ih =>
      rcases acquiring_of_step ht with ⟨hidle, htrig⟩ | ⟨hacq, -, -⟩
      · refine ⟨t, ⟨idle_iff.mpr hidle, htrig⟩, Nat.lt_succ_self t, fun u hu hut => ?_⟩
        obtain rfl : u = t + 1 := by omega
        exact ht
      · obtain ⟨a, ha⟩ := ih hacq
        refine ⟨a, ha.accepts, Nat.lt_succ_of_lt ha.lt, fun u hu hut => ?_⟩
        rcases Nat.lt_succ_iff_lt_or_eq.mp (Nat.lt_succ_of_le hut) with hlt | rfl
        · exact ha.acquiring u hu (Nat.lt_succ_iff.mp hlt)
        · exact ht

/-- The packet of the acquisition accepted in cycle `a` is offered from cycle `w` on, and word
`k` of it has been reached. -/
structure SendingSince (r : Run) (a w k : ℕ) : Prop where
  accepts : r.Accepts a
  lt : a < w
  acquiring : ∀ u, a < u → u < w → r.phase u = .acquiring
  sending : ∀ j ≤ k, r.phase (w + j) = .sending j

lemma SendingSince.not_idle (h : r.SendingSince a w k) {u : ℕ} (hu : a < u) (huw : u ≤ w + k) :
    ¬ r.Idle u := by
  rw [idle_iff]
  rcases Nat.lt_or_ge u w with hlt | hge
  · simp [h.acquiring u hu hlt]
  · obtain ⟨j, rfl⟩ := Nat.exists_eq_add_of_le hge
    simp [h.sending j (by omega)]

/-- A packet that has reached its first word. -/
lemma SendingSince.of_first (ha : r.Accepts a) (haw : a < w)
    (hacq : ∀ u, a < u → u < w → r.phase u = .acquiring) (hw : r.phase w = .sending 0) :
    r.SendingSince a w 0 where
  accepts := ha
  lt := haw
  acquiring := hacq
  sending j hj := by
    obtain rfl : j = 0 := Nat.le_zero.mp hj
    exact hw

/-- A word on offer belongs to an acquisition and follows the words before it. -/
lemma exists_sendingSince (h0 : r.Idle 0) (ht : r.phase t = .sending k) :
    ∃ a w, t = w + k ∧ r.SendingSince a w k := by
  induction k generalizing t with
  | zero =>
      cases t with
      | zero => simp [idle_iff.mp h0] at ht
      | succ t =>
          obtain ⟨hacq, -, -⟩ := sending_zero_of_step ht
          obtain ⟨a, ha⟩ := exists_acquiringSince h0 hacq
          refine ⟨a, t + 1, rfl, .of_first ha.accepts (Nat.lt_succ_of_lt ha.lt) ?_ ht⟩
          intro u hu hut
          exact ha.acquiring u hu (Nat.lt_succ_iff.mp hut)
  | succ k ih =>
      cases t with
      | zero => simp [idle_iff.mp h0] at ht
      | succ t =>
          obtain ⟨hprev, -, -⟩ := sending_succ_of_step ht
          obtain ⟨a, w, rfl, hs⟩ := ih hprev
          refine ⟨a, w, rfl, hs.accepts, hs.lt, hs.acquiring, fun j hj => ?_⟩
          rcases Nat.lt_succ_iff_lt_or_eq.mp (Nat.lt_succ_of_le hj) with hlt | rfl
          · exact hs.sending j (Nat.lt_succ_iff.mp hlt)
          · exact ht

/-- Without a forced idle the packet goes on to its last word. -/
lemma SendingSince.complete (h : r.SendingSince a w k)
    (hforce : ∀ j, k ≤ j → j < 18 → (r.inp (w + j)).forceFsmIdle = false) :
    r.SendingSince a w 18 where
  accepts := h.accepts
  lt := h.lt
  acquiring := h.acquiring
  sending := by
    intro j
    induction j with
    | zero => exact fun _ => h.sending 0 (Nat.zero_le k)
    | succ j ih =>
        intro hj
        by_cases hjk : j + 1 ≤ k
        · exact h.sending (j + 1) hjk
        · exact step_of_sending (ih (by omega)) (by omega) (hforce j (by omega) (by omega))

lemma phase_ne_closing (h0 : r.Idle 0) (t : ℕ) : r.phase t ≠ .closing := by
  cases t with
  | zero => simp [idle_iff.mp h0]
  | succ t => exact step_phase_ne_closing

/-- From reset, a word is offered exactly in the phases `sending k`. -/
lemma dataTvalid_iff (h0 : r.Idle 0) :
    (r.out t).dataTvalid = true ↔ ∃ k, r.phase t = .sending k := by
  refine (outputs_dataTvalid (r.inp t) (r.regs t)).trans (or_iff_left ?_)
  exact phase_ne_closing h0 t

lemma out_of_sending (h : r.phase t = .sending k) :
    ∃ hk : k < 19, r.out t =
      { vataI3 := true, vataMode := 4#3, dataTvalid := true,
        dataTdata := wfifoWord (r.regs t) ⟨k, hk⟩, dataTlast := decide (k = 18),
        eventIdClr := decide (k = 1) } := by
  obtain ⟨hk, hstate⟩ := phase_eq_sending_iff.mp h
  refine ⟨hk, (outputs_of_sending (r.inp t) (r.regs t) hstate).trans ?_⟩
  simp [Fin.ext_iff]

/-- The first word of `singleEvent` is on offer in cycle `560`. -/
lemma singleEvent_sendingSince : singleEvent.SendingSince 0 560 0 := by
  have hrun : (∀ u < 560, 0 < u → singleEvent.phase u = .acquiring) ∧
      singleEvent.phase 560 = .sending 0 := by decide +kernel
  exact .of_first (by decide) (by decide) (fun u hu huw => hrun.1 u huw hu) hrun.2

end Run

end TrackerFpga.Vata
