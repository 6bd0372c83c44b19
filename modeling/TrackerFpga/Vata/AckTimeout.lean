import TrackerFpga.Vata.Timeout

/-!
# `trigger_ack_timeout_fsm` by itself

With a timeout of `T` cycles the machine looks at `trigger_ack` in the `T` cycles after a trigger.
If none of them has an acknowledge, `abort_daq` is high for two cycles; the first acknowledge among
them brings the machine back to `IDLE` two cycles later (`ack_timeout`).  Inside the interface the
machine does the same, and an acquisition whose trigger is not acknowledged is aborted
(`aborts_of_noAck`).
-/

namespace TrackerFpga.Vata.TriggerAckTimeout

open Clocked

/-- A run of the machine with a constant timeout. -/
structure Run where
  start : TriggerAckTimeout
  timeout : BitVec 32
  triggerEna : ℕ → Bool
  triggerAck : ℕ → Bool

namespace Run

/-- The registers in cycle `t`. -/
def regs (r : Run) (t : ℕ) : TriggerAckTimeout :=
  run (fun (i : Bool × Bool) s => s.step i.1 i.2 r.timeout) r.start
    (fun t => (r.triggerEna t, r.triggerAck t)) t

/-- The state in cycle `t`. -/
def state (r : Run) (t : ℕ) : TimeoutState := (r.regs t).currentState

/-- `abort_daq` in cycle `t`. -/
def abortDaq (r : Run) (t : ℕ) : Bool := (r.regs t).abortDaq

/-- A trigger meets the machine in `IDLE`. -/
def Taken (r : Run) (t : ℕ) : Prop := r.state t = .idle ∧ r.triggerEna t = true

/-- No trigger is taken after cycle `t` and before cycle `u`. -/
def NoneTaken (r : Run) (t u : ℕ) : Prop := ∀ v, t < v → v < u → ¬ r.Taken v

/-- There is no acknowledge after cycle `t` and before cycle `u`. -/
def NoAck (r : Run) (t u : ℕ) : Prop := ∀ v, t < v → v < u → r.triggerAck v = false

variable {r : Run} {e k t u : ℕ}

lemma regs_succ (t : ℕ) :
    r.regs (t + 1) = (r.regs t).step (r.triggerEna t) (r.triggerAck t) r.timeout := run_succ ..

lemma state_succ (t : ℕ) : r.state (t + 1) =
    (r.regs t).nextState (r.triggerEna t) (r.triggerAck t) r.timeout := by
  rw [state, regs_succ]
  rfl

/-- The states with `abort_daq` high. -/
lemma abortDaq_iff : r.abortDaq t = true ↔ r.state t = .acqAbort0 ∨ r.state t = .acqAbort1 := by
  unfold abortDaq TriggerAckTimeout.abortDaq state
  cases (r.regs t).currentState <;> simp

lemma state_of_abort0 (h : r.state t = .acqAbort0) : r.state (t + 1) = .acqAbort1 := by
  unfold state at h
  rw [state_succ, nextState, h]

lemma state_of_abort1 (h : r.state t = .acqAbort1) : r.state (t + 1) = .idle := by
  unfold state at h
  rw [state_succ, nextState, h]

lemma state_of_ok (h : r.state t = .acqOk) : r.state (t + 1) = .idle := by
  unfold state at h
  rw [state_succ, nextState, h]

/-- The machine waits in `IDLE` for a trigger. -/
lemma idle_of_noneTaken (hidle : r.state e = .idle) (heu : e ≤ u)
    (hnone : ∀ v, e ≤ v → v < u → ¬ r.Taken v) : r.state u = .idle := by
  refine invariant_between (P := fun x => r.state x = .idle) (b := u) hidle ?_ heu le_rfl
  intro x hex hxu hx
  have hlow : r.triggerEna x = false :=
    Bool.eq_false_of_not_eq_true fun hena => hnone x hex hxu ⟨hx, hena⟩
  rw [state_succ, nextState, show (r.regs x).currentState = .idle from hx, hlow]
  rfl

lemma not_abort_of_idle (hidle : r.state e = .idle) (hte : t < e) (heu : e ≤ u)
    (hnone : r.NoneTaken t u) : r.abortDaq u = false := by
  have hidle' := idle_of_noneTaken hidle heu fun v hv hvu => hnone v (by omega) hvu
  rw [← Bool.not_eq_true, abortDaq_iff, hidle']
  simp

/-- With a timeout of `0` the machine stays in `IDLE`. -/
lemma idle_of_timeout_zero (hidle : r.state 0 = .idle) (hT : r.timeout = 0#32) (t : ℕ) :
    r.state t = .idle := by
  induction t with
  | zero => exact hidle
  | succ t ih =>
      rw [state_succ, nextState, show (r.regs t).currentState = .idle from ih, hT]
      cases r.triggerEna t <;> rfl

section Taken

variable (h : r.Taken t) (hT : r.timeout ≠ 0#32)
include h hT

/-- Until an acknowledge comes, the machine counts the cycles since the trigger. -/
lemma counting (hk : k ≤ r.timeout.toNat) (hquiet : r.NoAck t (t + 1 + k)) :
    r.state (t + 1 + k) = .incCounter ∧ (r.regs (t + 1 + k)).counter = BitVec.ofNat 32 k := by
  obtain ⟨hidle, hena⟩ := h
  have hgt : r.timeout > 0#32 := by bv_omega
  induction k with
  | zero =>
      unfold state at hidle
      refine ⟨?_, ?_⟩
      · rw [Nat.add_zero, state_succ, nextState, hidle, hena]
        simp [hgt]
      · rw [Nat.add_zero, regs_succ]
        simp [step, counterClr, hidle, hena, hgt]
  | succ k ih =>
      obtain ⟨hstate, hcount⟩ := ih (by omega) fun v hv hvk => hquiet v hv (by omega)
      have hack := hquiet (t + 1 + k) (by omega) (by omega)
      have hmore : ¬ (r.regs (t + 1 + k)).counter ≥ r.timeout := by
        have hlt := r.timeout.isLt
        rw [hcount, ge_iff_le, BitVec.le_def, BitVec.toNat_ofNat]
        omega
      unfold state at hstate
      refine ⟨?_, ?_⟩
      · rw [← Nat.add_assoc, state_succ, nextState, hstate, hack]
        simp [hmore]
      · rw [← Nat.add_assoc, regs_succ]
        simp [step, counterClr, counterEna, hstate, hcount, BitVec.ofNat_add]

/-- Without an acknowledge `abort_daq` is high in the two cycles after the count. -/
lemma expires (hquiet : r.NoAck t (t + r.timeout.toNat + 1)) :
    r.state (t + r.timeout.toNat + 2) = .acqAbort0 ∧
      r.state (t + r.timeout.toNat + 3) = .acqAbort1 ∧
      r.state (t + r.timeout.toNat + 4) = .idle := by
  have hlast : t + r.timeout.toNat + 1 = t + 1 + r.timeout.toNat := by omega
  rw [hlast] at hquiet
  obtain ⟨hstate, hcount⟩ := counting h hT le_rfl hquiet
  rw [← hlast] at hstate hcount
  have hover : (r.regs (t + r.timeout.toNat + 1)).counter ≥ r.timeout := by
    rw [hcount, ge_iff_le, BitVec.le_def, BitVec.toNat_ofNat]
    omega
  have habort : r.state (t + r.timeout.toNat + 2) = .acqAbort0 := by
    unfold state at hstate
    rw [state_succ, nextState, hstate]
    exact if_pos hover
  have hsecond := state_of_abort0 habort
  exact ⟨habort, hsecond, state_of_abort1 hsecond⟩

/-- The first acknowledge in time brings the machine back. -/
lemma acknowledged (hk : 1 ≤ k) (hkT : k ≤ r.timeout.toNat) (hack : r.triggerAck (t + k) = true)
    (hquiet : r.NoAck t (t + k)) :
    r.state (t + k + 1) = .acqOk ∧ r.state (t + k + 2) = .idle := by
  obtain ⟨k, rfl⟩ := Nat.exists_eq_add_of_le' hk
  have hsame : t + (k + 1) = t + 1 + k := by omega
  rw [hsame] at hack hquiet ⊢
  obtain ⟨hstate, hcount⟩ := counting h hT (by omega) hquiet
  have hmore : ¬ (r.regs (t + 1 + k)).counter ≥ r.timeout := by
    have hlt := r.timeout.isLt
    rw [hcount, ge_iff_le, BitVec.le_def, BitVec.toNat_ofNat]
    omega
  have hok : r.state (t + 1 + k + 1) = .acqOk := by
    unfold state at hstate
    rw [state_succ, nextState, hstate, hack]
    simp [hmore]
  exact ⟨hok, state_of_ok hok⟩

/-- Up to the first acknowledge, or to the end of the count, the machine is not aborting. -/
lemma not_abort_of_counting (hu : t ≤ u) (huT : u ≤ t + 1 + r.timeout.toNat)
    (hquiet : r.NoAck t u) : r.abortDaq u = false := by
  rw [← Bool.not_eq_true, abortDaq_iff]
  rcases Nat.eq_or_lt_of_le hu with rfl | hlt
  · rw [h.1]
    simp
  · obtain ⟨k, rfl⟩ := Nat.exists_eq_add_of_le (Nat.succ_le_of_lt hlt)
    rw [(counting h hT (by omega) hquiet).1]
    simp

end Taken

/-- **The timeout.**  After a trigger that is taken in cycle `t`, `abort_daq` is high exactly in the
cycles `t + T + 2` and `t + T + 3` if no acknowledge comes in the `T` cycles after it, and not at
all if one does, until the next trigger is taken; with a timeout of `0` it is never high. -/
theorem ack_timeout (hr : r.start = .reset) :
    (r.timeout = 0#32 → ∀ t, r.abortDaq t = false) ∧
    (r.timeout ≠ 0#32 → ∀ t, r.Taken t →
      (r.NoAck t (t + r.timeout.toNat + 1) →
        (∀ u, t ≤ u → r.NoneTaken t u →
          (r.abortDaq u = true ↔
            u = t + r.timeout.toNat + 2 ∨ u = t + r.timeout.toNat + 3)) ∧
        r.state (t + r.timeout.toNat + 4) = .idle) ∧
      ∀ k, 1 ≤ k → k ≤ r.timeout.toNat → r.triggerAck (t + k) = true → r.NoAck t (t + k) →
        (∀ u, t ≤ u → r.NoneTaken t u → r.abortDaq u = false) ∧ r.state (t + k + 2) = .idle) := by
  refine ⟨fun hT t => ?_, fun hT t ht => ⟨fun hquiet => ?_, fun k hk hkT hack hquiet => ?_⟩⟩
  · have hzero : r.state 0 = .idle := congrArg currentState hr
    rw [← Bool.not_eq_true, abortDaq_iff, idle_of_timeout_zero hzero hT t]
    simp
  · obtain ⟨habort, hsecond, hidle⟩ := expires ht hT hquiet
    refine ⟨fun u htu hnone => ?_, hidle⟩
    rcases Nat.lt_or_ge u (t + r.timeout.toNat + 2) with hearly | hlate
    · have hno := not_abort_of_counting ht hT htu (by omega) fun v hv hvu => hquiet v hv (by omega)
      rw [hno]
      simp
      omega
    rcases Nat.lt_or_ge u (t + r.timeout.toNat + 4) with hbetween | hafter
    · refine iff_of_true ?_ (by omega)
      rw [abortDaq_iff]
      obtain rfl | rfl : u = t + r.timeout.toNat + 2 ∨ u = t + r.timeout.toNat + 3 := by omega
      · exact .inl habort
      · exact .inr hsecond
    · rw [not_abort_of_idle hidle (by omega) hafter hnone]
      simp
      omega
  · obtain ⟨hok, hidle⟩ := acknowledged ht hT hk hkT hack hquiet
    refine ⟨fun u htu hnone => ?_, hidle⟩
    rcases Nat.lt_or_ge u (t + k + 1) with hearly | hlate
    · exact not_abort_of_counting ht hT htu (by omega) fun v hv hvu => hquiet v hv (by omega)
    rcases Nat.eq_or_lt_of_le hlate with rfl | hlater
    · rw [← Bool.not_eq_true, abortDaq_iff, hok]
      simp
    · exact not_abort_of_idle hidle (by omega) hlater hnone

/-- A trigger in cycle `0` that is not acknowledged within five cycles. -/
def unacknowledged : Run where
  start := .reset
  timeout := 5#32
  triggerEna t := decide (t = 0)
  triggerAck _ := false

/-- It is aborted in cycle `7`. -/
theorem unacknowledged_aborts : unacknowledged.abortDaq 7 = true := by
  refine (((ack_timeout (r := unacknowledged) rfl).2 (by decide) 0 ⟨rfl, rfl⟩).1
    (fun _ _ _ => rfl)).1 7 (by decide) ?_ |>.mpr (.inl rfl)
  rintro v hv - ⟨-, hena⟩
  have hzero : v = 0 := of_decide_eq_true hena
  omega

end Run

end TrackerFpga.Vata.TriggerAckTimeout

namespace TrackerFpga.Vata.Run

/-- The timeout machine inside the interface. -/
def ackTimeout (r : Run) (T : BitVec 32) : TriggerAckTimeout.Run where
  start := r.start.triggerAckTimeout
  timeout := T
  triggerEna t := triggerAcq (r.inp t) (r.regs t)
  triggerAck t := (r.inp t).triggerAck

variable {r : Run} {T : BitVec 32} {t : ℕ} (hT : ∀ t, (r.inp t).triggerAckTimeout = T)
include hT

/-- With a constant timeout it is a run of that machine. -/
lemma ackTimeout_regs (t : ℕ) : (r.ackTimeout T).regs t = r.timeout t := by
  induction t with
  | zero => rfl
  | succ t ih =>
      rw [TriggerAckTimeout.Run.regs_succ, ih, timeout_succ, hT]
      rfl

/-- **Without an acknowledge** an acquisition whose trigger the timeout machine takes is aborted,
for two cycles. -/
theorem aborts_of_noAck (hpos : T ≠ 0#32) (hidle : (r.timeout t).currentState = .idle)
    (hacq : triggerAcq (r.inp t) (r.regs t) = true)
    (hquiet : ∀ v, t < v → v < t + T.toNat + 1 → (r.inp v).triggerAck = false) :
    abortDaq (r.regs (t + T.toNat + 2)) = true ∧ abortDaq (r.regs (t + T.toNat + 3)) = true := by
  have htaken : (r.ackTimeout T).Taken t := by
    refine ⟨?_, hacq⟩
    rw [TriggerAckTimeout.Run.state, ackTimeout_regs hT]
    exact hidle
  have hline : ∀ u, abortDaq (r.regs u) = (r.ackTimeout T).abortDaq u := by
    intro u
    rw [TriggerAckTimeout.Run.abortDaq, ackTimeout_regs hT]
    rfl
  obtain ⟨hfirst, hsecond, -⟩ := TriggerAckTimeout.Run.expires htaken hpos hquiet
  rw [hline, hline, TriggerAckTimeout.Run.abortDaq_iff, TriggerAckTimeout.Run.abortDaq_iff]
  exact ⟨.inl hfirst, .inr hsecond⟩

end TrackerFpga.Vata.Run
