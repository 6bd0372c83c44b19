import TrackerFpga.Lib.Clocked

/-!
# `gen_event_id_go`

The machine that tells the sender of event ids to start, translated from `gen_event_id_go.vhd`.
It gives a go when `FEE_busy` rises and then waits for `FEE_ready`.

`FEE_ready` is stretched to five cycles and the machine looks at its level, so a dead time that
begins while the announcement of the last one is still high is given more than one go, and one that
begins before it is given its go late.  Either way the first go of a dead time comes within three
cycles and the last one within seven (`first_go`, `exists_dead_time`).
-/

namespace TrackerFpga.EventId

open Clocked

/-- The states of `gen_event_id_go`. -/
inductive GoState
  | idle
  | waitForReady
  deriving DecidableEq, Repr

/-- The registers of `gen_event_id_go`.  The process has `event_id_go <= '0'` outside the test of
the clock edge; this is read as it is synthesised: `event_id_go` is a register that is `'0'` after
every edge at which the process does not raise it. -/
structure GenEventIdGo where
  state : GoState
  lastFeeBusy : Bool
  eventIdGo : Bool
  deriving DecidableEq, Repr

namespace GenEventIdGo

/-- The registers under `rst_n = '0'`. -/
def reset : GenEventIdGo := { state := .idle, lastFeeBusy := false, eventIdGo := false }

/-- One clock cycle. -/
def step (feeBusy feeReady : Bool) (s : GenEventIdGo) : GenEventIdGo :=
  match s.state with
  | .idle =>
      if !s.lastFeeBusy && feeBusy then
        { state := .waitForReady, lastFeeBusy := feeBusy, eventIdGo := true }
      else { state := .idle, lastFeeBusy := feeBusy, eventIdGo := false }
  | .waitForReady =>
      { state := if feeReady then .idle else .waitForReady, lastFeeBusy := false,
        eventIdGo := false }

/-- The registers in cycle `t` of a run from reset. -/
def regs (busy ready : ℕ → Bool) (t : ℕ) : GenEventIdGo :=
  run (fun i : Bool × Bool => step i.1 i.2) reset (fun t => (busy t, ready t)) t

/-- `event_id_go` in cycle `t`. -/
def go (busy ready : ℕ → Bool) (t : ℕ) : Bool := (regs busy ready t).eventIdGo

/-- How the distributor drives the two lines: a dead time lasts for ten cycles at least, and
`FEE_ready` is high from the second to the sixth cycle after the end of each, and after reset. -/
structure Handshake (busy ready : ℕ → Bool) : Prop where
  busy_zero : busy 0 = false
  lasts : ∀ x, Rises busy x → ∀ j < 10, busy (x + j) = true
  ready_iff : ∀ t, ready t = true ↔ ∃ f, (f = 0 ∨ Falls busy f) ∧ f + 2 ≤ t ∧ t ≤ f + 6

section Run

variable {busy ready : ℕ → Bool} {t x y : ℕ}

lemma state_zero : (regs busy ready 0).state = .idle := rfl

lemma regs_succ (t : ℕ) :
    regs busy ready (t + 1) = (regs busy ready t).step (busy t) (ready t) := run_succ ..

/-! ## One cycle -/

/-- In `IDLE` the last `FEE_busy` was low: the two are set together. -/
lemma lastFeeBusy_of_idle (h : (regs busy ready t).state = .idle) :
    (regs busy ready t).lastFeeBusy = false := by
  induction t with
  | zero => rfl
  | succ t ih =>
      rw [regs_succ, step] at h ⊢
      cases hstate : (regs busy ready t).state with
      | idle =>
          simp only [hstate, ih hstate] at h ⊢
          cases hbusy : busy t with
          | false => rfl
          | true => simp [hbusy] at h
      | waitForReady => rfl

lemma step_of_idle (h : (regs busy ready t).state = .idle) : regs busy ready (t + 1) =
    { state := if busy t then .waitForReady else .idle, lastFeeBusy := busy t,
      eventIdGo := busy t } := by
  rw [regs_succ, step, h, lastFeeBusy_of_idle h]
  cases busy t <;> rfl

lemma step_of_wait (h : (regs busy ready t).state = .waitForReady) : regs busy ready (t + 1) =
    { state := if ready t then .idle else .waitForReady, lastFeeBusy := false,
      eventIdGo := false } := by
  rw [regs_succ, step, h]

/-- A go is the answer to `FEE_busy` in `IDLE`. -/
lemma go_succ : go busy ready (t + 1) = true ↔
    (regs busy ready t).state = .idle ∧ busy t = true := by
  rw [go]
  cases hstate : (regs busy ready t).state with
  | idle => simp [step_of_idle hstate]
  | waitForReady => simp [step_of_wait hstate]

lemma go_zero : go busy ready 0 = false := rfl

/-! ## Dead times -/

section Handshake

variable (h : Handshake busy ready)
include h

/-- Between dead times the machine waits no longer than for the announcement. -/
lemma wait_of_low (hlow : busy t = false) (hwait : (regs busy ready t).state = .waitForReady) :
    ∃ f, (f = 0 ∨ Falls busy f) ∧ f ≤ t ∧ t ≤ f + 2 := by
  induction t with
  | zero => simp [state_zero] at hwait
  | succ t ih =>
      cases hprev : busy t with
      | true => exact ⟨t + 1, .inr (falls_succ.mpr ⟨hlow, hprev⟩), le_rfl, by omega⟩
      | false =>
          cases hstate : (regs busy ready t).state with
          | idle => simp [step_of_idle hstate, hprev] at hwait
          | waitForReady =>
              obtain ⟨f, hf, hft, htf⟩ := ih hprev hstate
              have hready : ready t ≠ true := by
                intro hready
                simp [step_of_wait hstate, hready] at hwait
              have hnot : ¬ (f + 2 ≤ t ∧ t ≤ f + 6) := fun hin =>
                hready ((h.ready_iff t).mpr ⟨f, hf, hin⟩)
              exact ⟨f, hf, by omega, by omega⟩

/-- **A dead time is given a go** within three cycles. -/
lemma first_go (hx : Rises busy x) : ∃ y, x < y ∧ y ≤ x + 3 ∧ go busy ready y = true := by
  have hbusy : ∀ j < 10, busy (x + j) = true := h.lasts x hx
  have hgo : ∀ j < 3, (regs busy ready (x + j)).state = .idle →
      ∃ y, x < y ∧ y ≤ x + 3 ∧ go busy ready y = true := fun j hj hidle =>
    ⟨x + j + 1, by omega, by omega, go_succ.mpr ⟨hidle, hbusy j (by omega)⟩⟩
  cases hstate : (regs busy ready x).state with
  | idle => exact hgo 0 (by decide) hstate
  | waitForReady =>
      obtain ⟨x, rfl⟩ : ∃ u, x = u + 1 := by
        cases x with
        | zero => simp [state_zero] at hstate
        | succ u => exact ⟨u, rfl⟩
      obtain ⟨-, hlow⟩ := rises_succ.mp hx
      have hwait : (regs busy ready x).state = .waitForReady := by
        cases hprev : (regs busy ready x).state with
        | idle => simp [step_of_idle hprev, hlow] at hstate
        | waitForReady => rfl
      obtain ⟨f, hf, hfx, hxf⟩ := wait_of_low h hlow hwait
      -- the announcement is under way or comes in the next cycle
      have hready : ∀ j, f + 2 ≤ x + 1 + j → x + 1 + j ≤ f + 6 → ready (x + 1 + j) = true :=
        fun j hlo hhi => (h.ready_iff _).mpr ⟨f, hf, hlo, hhi⟩
      by_cases hnow : ready (x + 1) = true
      · exact hgo 1 (by decide) (by simp [step_of_wait hstate, hnow])
      · have hnext : (regs busy ready (x + 1 + 1)).state = .waitForReady := by
          simp [step_of_wait hstate, hnow]
        have hlate : ready (x + 1 + 1) = true := hready 1 (by omega) (by omega)
        exact hgo 2 (by decide) (by simp [step_of_wait hnext, hlate])

/-- **A go belongs to a dead time**, which began seven cycles before it at most. -/
lemma exists_dead_time (hy : go busy ready y = true) :
    ∃ x, Rises busy x ∧ x < y ∧ y ≤ x + 7 := by
  cases y with
  | zero => simp [go_zero] at hy
  | succ t =>
      obtain ⟨hidle, hbusy⟩ := go_succ.mp hy
      obtain ⟨x, hx, hxt, hall⟩ := exists_rise hbusy
      refine ⟨x, hx, by omega, ?_⟩
      by_contra hlate
      obtain ⟨u, rfl⟩ : ∃ u, t = u + 1 := ⟨t - 1, by omega⟩
      have hprev : busy u = true := hall u (by omega) (by omega)
      cases hstate : (regs busy ready u).state with
      | idle => simp [step_of_idle hstate, hprev] at hidle
      | waitForReady =>
          have hready : ready u = true := by
            by_contra hno
            simp [step_of_wait hstate, hno] at hidle
          -- the announcement that ended the wait came in this dead time
          obtain ⟨f, hf, hfu, huf⟩ := (h.ready_iff u).mp hready
          have hlow : busy f = false := by
            rcases hf with rfl | hf
            · exact h.busy_zero
            · exact hf.1
          by_cases hxf : x ≤ f
          · exact absurd (hall f hxf (by omega)) (by simp [hlow])
          · omega

end Handshake

end Run

end GenEventIdGo

end TrackerFpga.EventId
