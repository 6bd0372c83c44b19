import TrackerFpga.Vata.Phase

/-!
# The acknowledge timeout

`trigger_ack_timeout_fsm` is started by `trigger_acq` itself, and the main machine by
`trigger_acq` in `IDLE`; each ignores the triggers that come while it is busy.  As long as no
trigger moves one of them without the other (`Run.InStep`), the timeout that runs during an
acquisition is its own, and an acquisition is stopped exactly when its window of
`trigger_ack_timeout` cycles passes without an acknowledge (`timeout_exact`).
-/

namespace TrackerFpga.Vata

open Clocked

namespace Run

variable {r : Run} {T : BitVec 32} {a t u v : ℕ}

/-- The registers of `trigger_ack_timeout_fsm` in cycle `t`. -/
def timeout (r : Run) (t : ℕ) : TriggerAckTimeout := (r.regs t).triggerAckTimeout

lemma timeout_succ (t : ℕ) :
    r.timeout (t + 1) = (r.timeout t).step (triggerAcq (r.inp t) (r.regs t))
      (r.inp t).triggerAck (r.inp t).triggerAckTimeout := rfl

lemma abortDaq_regs (t : ℕ) : abortDaq (r.regs t) = (r.timeout t).abortDaq := rfl

/-- With `trigger_ack_timeout` at `0` no acquisition is aborted. -/
lemma abortDaq_eq_false_of_timeout_zero (hr : r.FromReset)
    (hzero : ∀ t, (r.inp t).triggerAckTimeout = 0#32) (t : ℕ) : abortDaq (r.regs t) = false := by
  have hidle : (r.timeout t).currentState = .idle := by
    induction t with
    | zero =>
        obtain ⟨edges, pl, hs⟩ := hr
        simp [timeout, hs, Regs.reset, TriggerAckTimeout.reset]
    | succ t ih =>
        simp [timeout_succ, TriggerAckTimeout.step, TriggerAckTimeout.nextState, ih, hzero]
  simp [abortDaq_regs, TriggerAckTimeout.abortDaq, hidle]

/-- No trigger moves one machine alone: one that is accepted finds the timeout machine idle, and
one during the acquisition finds it busy. -/
def InStep (r : Run) : Prop :=
  ∀ t, triggerAcq (r.inp t) (r.regs t) = true →
    (r.Idle t → (r.timeout t).currentState = .idle) ∧
      (r.phase t = .acquiring → (r.timeout t).currentState ≠ .idle)

/-- Where the timeout machine stands in cycle `u` of the acquisition accepted in cycle `a`. -/
inductive TimeoutSince (r : Run) (T : BitVec 32) (a u : ℕ) : Prop
  | counting (state : (r.timeout u).currentState = .incCounter)
      (count : (r.timeout u).counter.toNat + (a + 1) = u) (le : u ≤ a + T.toNat + 1)
      (quiet : ∀ v, a < v → v < u → (r.inp v).triggerAck = false)
  | acknowledged
      (state : (r.timeout u).currentState = .acqOk ∨ (r.timeout u).currentState = .idle)
      (v : ℕ) (lt : a < v) (le : v ≤ a + T.toNat) (before : v < u)
      (ack : (r.inp v).triggerAck = true)
  | expired (state : (r.timeout u).currentState = .acqAbort0) (eq : u = a + T.toNat + 2)
      (quiet : ∀ v, a < v → v ≤ a + T.toNat → (r.inp v).triggerAck = false)

/-- The counter of a timeout that is not over counts the cycles since the trigger. -/
lemma timeoutSince_of_counting (hT : ∀ t, (r.inp t).triggerAckTimeout = T)
    (hstate : (r.timeout u).currentState = .incCounter)
    (hcount : (r.timeout u).counter.toNat + (a + 1) = u) (hle : u ≤ a + T.toNat + 1)
    (hquiet : ∀ v, a < v → v < u → (r.inp v).triggerAck = false) :
    r.TimeoutSince T a (u + 1) := by
  have hT32 := T.isLt
  have hnext : (r.timeout (u + 1)).currentState =
      if (r.timeout u).counter ≥ T then .acqAbort0
      else if (r.inp u).triggerAck = true then .acqOk else .incCounter := by
    simp [timeout_succ, TriggerAckTimeout.step, TriggerAckTimeout.nextState, hstate, hT]
  have hcounter : (r.timeout (u + 1)).counter = (r.timeout u).counter + 1#32 := by
    simp [timeout_succ, TriggerAckTimeout.step, TriggerAckTimeout.counterClr,
      TriggerAckTimeout.counterEna, hstate]
  by_cases hover : (r.timeout u).counter ≥ T
  · have hle' : T.toNat ≤ (r.timeout u).counter.toNat := hover
    refine .expired (by rw [hnext, if_pos hover]) (by omega) fun v hv hvT => ?_
    exact hquiet v hv (by omega)
  · have hlt : (r.timeout u).counter.toNat < T.toNat := by
      rw [ge_iff_le, BitVec.le_def] at hover
      omega
    rw [if_neg hover] at hnext
    cases hack : (r.inp u).triggerAck
    · refine .counting (by simpa [hack] using hnext) ?_ (by omega) fun v hv hvu => ?_
      · rw [hcounter, BitVec.toNat_add, BitVec.toNat_ofNat]
        omega
      · rcases Nat.lt_succ_iff_lt_or_eq.mp hvu with hlt' | rfl
        · exact hquiet v hv hlt'
        · exact hack
    · exact .acknowledged (.inl (by simpa [hack] using hnext)) u (by omega) (by omega)
        (Nat.lt_succ_self u) hack

/-- While the machines are in step, a cycle of an acquisition moves its own timeout on. -/
lemma timeoutSince_succ (hT : ∀ t, (r.inp t).triggerAckTimeout = T) (hstep : r.InStep)
    (h : r.TimeoutSince T a u) (hu : r.phase u = .acquiring)
    (hu' : r.phase (u + 1) = .acquiring) : r.TimeoutSince T a (u + 1) := by
  cases h with
  | counting hstate hcount hle hquiet =>
      exact timeoutSince_of_counting hT hstate hcount hle hquiet
  | acknowledged hstate v hv hvT hvu hack =>
      refine .acknowledged (.inr ?_) v hv hvT (Nat.lt_succ_of_lt hvu) hack
      rcases hstate with hok | hidle
      · simp [timeout_succ, TriggerAckTimeout.step, TriggerAckTimeout.nextState, hok]
      · have hno : triggerAcq (r.inp u) (r.regs u) = false :=
          Bool.eq_false_of_not_eq_true fun htrig => (hstep u htrig).2 hu hidle
        simp [timeout_succ, TriggerAckTimeout.step, TriggerAckTimeout.nextState, hidle, hno]
  | expired hstate _ _ =>
      -- an acquisition that meets `abort_daq` does not go on
      have habort : abortDaq (r.regs u) = true := by
        simp [abortDaq_regs, TriggerAckTimeout.abortDaq, hstate]
      have hstopped : r.phase (u + 1) = .returning := step_of_stopped hu (.inr habort)
      exact absurd (hstopped.symm.trans hu') (by decide)

/-- While the machines are in step, the timeout that runs during an acquisition is its own. -/
lemma timeoutSince_of_acquiringSince (hT : ∀ t, (r.inp t).triggerAckTimeout = T)
    (hpos : T ≠ 0#32) (hstep : r.InStep) (h : r.AcquiringSince a u) : r.TimeoutSince T a u := by
  have hidle := (hstep a h.accepts.2).1 h.accepts.1
  have hgt : T > 0#32 := by bv_omega
  refine invariant_between (P := r.TimeoutSince T a) (a := a + 1) ?_ (fun v hav hvu ih => ?_)
    h.lt le_rfl
  · refine .counting ?_ ?_ (by omega) fun v hv hv' => by omega
    · simp [timeout_succ, TriggerAckTimeout.step, TriggerAckTimeout.nextState, hidle, hT,
        h.accepts.2, hgt]
    · simp [timeout_succ, TriggerAckTimeout.step, TriggerAckTimeout.counterClr, hidle, hT,
        h.accepts.2, hgt]
  · exact timeoutSince_succ hT hstep ih (h.acquiring v hav hvu.le)
      (h.acquiring (v + 1) (by omega) hvu)

/-- An acquisition is stopped by its own timeout, in which no acknowledge came, and by nothing
else; and it is stopped if none comes. -/
structure TimeoutExact (r : Run) (T : BitVec 32) (a : ℕ) : Prop where
  unacknowledged : ∀ u, r.AcquiringSince a u → abortDaq (r.regs u) = true →
    ∀ v, a < v → v ≤ a + T.toNat → (r.inp v).triggerAck = false
  own : ∀ u, r.AcquiringSince a u → abortDaq (r.regs u) = true →
    u = a + T.toNat + 2 ∧ (r.timeout a).currentState = .idle ∧
      ∀ v, a < v → v ≤ a + T.toNat + 1 →
        (r.timeout v).currentState = .incCounter ∧ (r.timeout v).counter.toNat + (a + 1) = v
  stopped : (∀ v, a < v → v ≤ a + T.toNat → (r.inp v).triggerAck = false) →
    r.AcquiringSince a (a + T.toNat + 2) →
      abortDaq (r.regs (a + T.toNat + 2)) = true ∧ r.phase (a + T.toNat + 3) = .returning

lemma AcquiringSince.mono (h : r.AcquiringSince a u) (hv : a < v) (hvu : v ≤ u) :
    r.AcquiringSince a v where
  accepts := h.accepts
  lt := hv
  acquiring w hw hwv := h.acquiring w hw (hwv.trans hvu)

/-- The only state of the timeout in which an acquisition meets `abort_daq` is its expiry. -/
lemma TimeoutSince.expired_of_abort (h : r.TimeoutSince T a u)
    (habort : abortDaq (r.regs u) = true) :
    u = a + T.toNat + 2 ∧ ∀ v, a < v → v ≤ a + T.toNat → (r.inp v).triggerAck = false := by
  rw [abortDaq_regs] at habort
  cases h with
  | counting hstate => simp [TriggerAckTimeout.abortDaq, hstate] at habort
  | acknowledged hstate =>
      rcases hstate with hstate | hstate <;> simp [TriggerAckTimeout.abortDaq, hstate] at habort
  | expired _ heq hquiet => exact ⟨heq, hquiet⟩

/-- **The acknowledge timeout.**  In a run with a constant `trigger_ack_timeout` other than `0`
in which the two machines stay in step, every acquisition is stopped by its own timeout, if no
acknowledge comes within it, and by no other. -/
theorem timeout_exact (hT : ∀ t, (r.inp t).triggerAckTimeout = T) (hpos : T ≠ 0#32)
    (hstep : r.InStep) : ∀ a, r.Accepts a → r.TimeoutExact T a := by
  intro a ha
  refine ⟨fun u hu habort => ?_, fun u hu habort => ?_, fun hquiet hu => ?_⟩
  · exact ((timeoutSince_of_acquiringSince hT hpos hstep hu).expired_of_abort habort).2
  · obtain ⟨heq, hquiet⟩ :=
      (timeoutSince_of_acquiringSince hT hpos hstep hu).expired_of_abort habort
    refine ⟨heq, (hstep a ha.2).1 ha.1, fun v hv hvT => ?_⟩
    cases timeoutSince_of_acquiringSince hT hpos hstep (hu.mono hv (by omega)) with
    | counting hstate hcount => exact ⟨hstate, hcount⟩
    | acknowledged _ v' hv' hvT' _ hack =>
        exact absurd hack (by simp [hquiet v' hv' hvT'])
    | expired _ heq' _ => omega
  · cases timeoutSince_of_acquiringSince hT hpos hstep hu with
    | counting _ _ hle => omega
    | acknowledged _ v hv hvT _ hack => exact absurd hack (by simp [hquiet v hv hvT])
    | expired hstate _ _ =>
        have habort : abortDaq (r.regs (a + T.toNat + 2)) = true := by
          simp [abortDaq_regs, TriggerAckTimeout.abortDaq, hstate]
        exact ⟨habort, step_of_stopped (hu.acquiring _ hu.lt le_rfl) (.inr habort)⟩

/-- A forced trigger in cycle `0`, with a timeout of five cycles and no acknowledge. -/
def unanswered : Run := ofReset fun t =>
  { Input.quiet with
    forceTrigger := decide (t = 0), forceTriggerEna := true, triggerAckTimeout := 5#32 }

/-- The acquisition of `unanswered` is stopped in cycle `7`. -/
theorem unanswered_stopped :
    abortDaq (unanswered.regs 7) = true ∧ unanswered.phase 8 = .returning := by
  have honly : ∀ t, triggerAcq (unanswered.inp t) (unanswered.regs t) = true → t = 0 := by
    intro t ht
    by_contra hne
    simp [triggerAcq, unanswered, ofReset, Input.quiet, hne] at ht
  have hinStep : unanswered.InStep := by
    intro t ht
    rw [honly t ht]
    exact ⟨fun _ => by decide, fun h => absurd h (by decide)⟩
  have hacquiring : ∀ u ≤ 7, 0 < u → unanswered.phase u = .acquiring := by decide +kernel
  exact (timeout_exact (T := 5#32) (fun _ => rfl) (by decide) hinStep 0 (by decide)).stopped
    (fun _ _ _ => rfl) ⟨by decide, by decide, fun u hu hut => hacquiring u hut hu⟩

/-- With a timeout of one cycle, a first acquisition is aborted; a second trigger comes in the
last cycle before `IDLE` and starts a timeout alone; a third one is accepted in the next cycle
and acknowledged one cycle later. -/
def timeoutAhead : Run := ofReset fun t =>
  { Input.quiet with
    forceTrigger := decide (t = 0 ∨ t = 23 ∨ t = 24), forceTriggerEna := true,
    triggerAck := decide (t = 25), triggerAckTimeout := 1#32, holdTime := 100#16 }

/-- The acquisition accepted in cycle `24` is acknowledged in cycle `25`, within its window, and
stopped in cycle `26` all the same. -/
theorem timeoutAhead_stopped : ¬ ∀ r : Run, r.FromReset →
    (∀ t, (r.inp t).forceFsmIdle = false) → ∀ T : BitVec 32, T ≠ 0#32 →
      (∀ t, (r.inp t).triggerAckTimeout = T) → ∀ a, r.Accepts a → r.TimeoutExact T a := by
  intro hclaim
  have hexact := hclaim timeoutAhead (fromReset_ofReset _) (fun _ => rfl) 1#32 (by decide)
    (fun _ => rfl) 24 (by decide +kernel)
  have hacquiring : ∀ u ≤ 26, 24 < u → timeoutAhead.phase u = .acquiring := by decide +kernel
  have hack := hexact.unacknowledged 26
    ⟨by decide +kernel, by decide, fun u hu hut => hacquiring u hut hu⟩ (by decide +kernel) 25
    (by decide) (by decide)
  exact absurd hack (by decide)

end Run

end TrackerFpga.Vata
