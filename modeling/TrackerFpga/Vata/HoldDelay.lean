import TrackerFpga.Vata.Ctrl

/-!
# The hold delay

`set_hold_delay` writes a `u32` to a register of 32 bits, and `get_hold_delay` reads it back in
full.  The interface gets the low sixteen bits of it, `hold_time`, and compares them in `ACQ_DELAY`
with a counter of sixteen bits that is cleared on the way in.  So a number below `2 ^ 16` is the
hold time itself: the acquisitions that nothing stops leave `ACQ_DELAY` one cycle after the counter
has reached it (`holdsFor_ofNat`).
-/

namespace TrackerFpga.Vata

open AxiLite Interaction Mapped

/-! ## `VataCtrl` -/

namespace Ctrl

/-- `HOLD_TIME_REG_OFFSET`. -/
def holdTimeRegOffset : ℕ := 18

/-- `VataCtrl::set_hold_delay`. -/
def setHoldDelay (holdDelay : BitVec 32) : Driver ℤ := do
  Driver.write holdTimeRegOffset holdDelay
  pure 0

/-- `VataCtrl::get_hold_delay`. -/
def getHoldDelay : Driver (BitVec 32) := Driver.read holdTimeRegOffset

end Ctrl

/-! ## `ACQ_DELAY` -/

namespace Run

/-- The machine is forced to idle, or the acquisition is aborted. -/
def Stopped (r : Run) (t : ℕ) : Prop :=
  (r.inp t).forceFsmIdle = true ∨ abortDaq (r.regs t) = true

variable {r : Run} {a t : ℕ} {hold : BitVec 16}

/-- A cycle in `ACQ_DELAY` that nothing stops waits for the counter. -/
lemma step_acqDelay (hstate : (r.regs t).currentState = .acqDelay)
    (hhold : (r.inp t).holdTime = hold) (hgo : ¬ r.Stopped t) :
    ((r.regs t).stateCounter < hold ∧ (r.regs (t + 1)).currentState = .acqDelay ∧
      (r.regs (t + 1)).stateCounter = (r.regs t).stateCounter + 1#16) ∨
    (hold ≤ (r.regs t).stateCounter ∧ (r.regs (t + 1)).currentState = .acqHold) := by
  obtain ⟨hforce, habort⟩ := not_or.mp hgo
  have hcontrol : control (r.inp t) (r.regs t) =
      onCount hold (r.regs t) { nextState := .acqHold, stateCounterClr := true } := by
    simp [control, hstate, onForce, onAbort, hforce, habort, hhold]
  rw [regs_succ, step_currentState, step_stateCounter, hcontrol, onCount]
  by_cases hcount : (r.regs t).stateCounter ≥ hold
  · rw [if_pos hcount]
    exact .inr ⟨hcount, rfl⟩
  · rw [if_neg hcount]
    exact .inl ⟨BitVec.not_le.mp hcount, hstate, rfl⟩

/-- The counter is cleared when an acquisition is accepted. -/
lemma acqDelay_of_accepts (ha : r.Accepts a) :
    (r.regs (a + 1)).currentState = .acqDelay ∧ (r.regs (a + 1)).stateCounter = 0#16 := by
  have hidle : (r.regs a).currentState = .idle := ha.1
  have hcontrol : control (r.inp a) (r.regs a) =
      { nextState := .acqDelay, stateCounterClr := true, setPktData := true } := by
    simp [control, hidle, ha.2]
  rw [regs_succ, step_currentState, step_stateCounter, hcontrol]
  exact ⟨rfl, rfl⟩

/-- **The delay of an acquisition.**  With the hold time `hold` all along, an acquisition that is
not stopped is in `ACQ_DELAY` for `hold + 1` cycles. -/
lemma delay_of_accepts (hold : BitVec 16) (ha : r.Accepts a)
    (hgo : ∀ u, a < u → u ≤ a + 1 + hold.toNat → (r.inp u).holdTime = hold ∧ ¬ r.Stopped u) :
    (∀ u, a < u → u ≤ a + 1 + hold.toNat → (r.regs u).currentState = .acqDelay) ∧
      (r.regs (a + 1 + hold.toNat + 1)).currentState = .acqHold := by
  have hcount : ∀ k ≤ hold.toNat, (r.regs (a + 1 + k)).currentState = .acqDelay ∧
      (r.regs (a + 1 + k)).stateCounter.toNat = k := by
    intro k
    induction k with
    | zero =>
        intro _
        obtain ⟨hstate, hzero⟩ := acqDelay_of_accepts ha
        exact ⟨hstate, by rw [Nat.add_zero, hzero]; rfl⟩
    | succ k ih =>
        intro hk
        obtain ⟨hstate, hcounter⟩ := ih (by omega)
        obtain ⟨hhold, hrun⟩ := hgo (a + 1 + k) (by omega) (by omega)
        rcases step_acqDelay hstate hhold hrun with ⟨-, hstay, hnext⟩ | ⟨hle, -⟩
        · refine ⟨hstay, ?_⟩
          have hlt := hold.isLt
          rw [Nat.add_succ, hnext, BitVec.toNat_add, hcounter]
          exact Nat.mod_eq_of_lt (by simp; omega)
        · rw [BitVec.le_def, hcounter] at hle
          omega
  refine ⟨fun u hau hu => ?_, ?_⟩
  · obtain ⟨k, rfl⟩ := Nat.exists_eq_add_of_le (Nat.succ_le_of_lt hau)
    exact (hcount k (by omega)).1
  · obtain ⟨hstate, hcounter⟩ := hcount hold.toNat le_rfl
    obtain ⟨hhold, hrun⟩ := hgo (a + 1 + hold.toNat) (by omega) le_rfl
    rcases step_acqDelay hstate hhold hrun with ⟨hlt, -⟩ | ⟨-, hleave⟩
    · rw [BitVec.lt_def, hcounter] at hlt
      omega
    · exact hleave

end Run

/-! ## The register -/

namespace Core

namespace Run

/-- No write reaches the register of the hold delay from cycle `t` on and before cycle `u`. -/
def KeepsHold (r : Run) (t u : ℕ) : Prop :=
  ∀ x, t ≤ x → x < u → ∀ v, ¬ r.bus.Writes x Ctrl.holdTimeRegOffset v

/-- What the register of the hold delay holds in cycle `t`. -/
def holdDelay (r : Run) (t : ℕ) : BitVec 32 := held (r.slvReg t) Ctrl.holdTimeRegOffset

variable {r : Run} {t t' u : ℕ} {d v : BitVec 32} {ret : ℤ}

lemma holdDelay_of_keeps (h : r.KeepsHold t u) (htu : t ≤ u) : r.holdDelay u = r.holdDelay t :=
  Bus.slvReg_of_never_writes (p := 100) r.advances htu h

lemma KeepsHold.mono {u' : ℕ} (h : r.KeepsHold t u) (hu : u' ≤ u) : r.KeepsHold t u' :=
  fun x hx hxu => h x hx (hxu.trans_le hu)

/-- The methods do to the register what they do to the memory. -/
lemma holdDelay_of_set (h : Exec r.bus.env (Ctrl.setHoldDelay d) t ret t') :
    r.holdDelay t' = d := by
  obtain ⟨_, x, hwrite, hdone⟩ := exec_bind.mp h
  obtain ⟨-, rfl⟩ := exec_done.mp hdone
  obtain ⟨u, -, -, hwrites, rfl⟩ := Bus.exec_write.mp hwrite
  obtain ⟨hk, hnew⟩ := Bus.slvReg_of_writes (r.file_succ u) hwrites
  exact (congrFun hnew _).trans (Function.update_self ..)

lemma holdDelay_of_get (h : Exec r.bus.env Ctrl.getHoldDelay t v t') : v = r.holdDelay t := by
  obtain ⟨u, htu, hno, hread, -⟩ := Bus.exec_read.mp h
  obtain ⟨hk, rfl⟩ := data_of_reads hread
  have hsame : r.slvReg u = r.slvReg t :=
    Bus.slvReg_of_noWrites r.advances hno htu (Nat.le_succ u)
  exact congrFun hsame _

end Run

/-- What a core does once the driver has set the hold delay to `d`, until the register is written
again: acquisitions that are not stopped are in `ACQ_DELAY` for `h + 1` cycles, and
`get_hold_delay` returns `h`. -/
structure HoldsFor (d : BitVec 32) (h : ℕ) : Prop where
  delay : ∀ (r : Run) (t t' : ℕ) (ret : ℤ), Exec r.bus.env (Ctrl.setHoldDelay d) t ret t' →
    ∀ a, t' ≤ a → r.fsm.Accepts a → r.KeepsHold t' (a + 1 + h) →
      (∀ u, a < u → u ≤ a + 1 + h → ¬ r.fsm.Stopped u) →
      (∀ u, a < u → u ≤ a + 1 + h → (r.fsm.regs u).currentState = .acqDelay) ∧
        (r.fsm.regs (a + 1 + h + 1)).currentState = .acqHold
  readsBack : ∀ (r : Run) (t t' : ℕ) (ret : ℤ), Exec r.bus.env (Ctrl.setHoldDelay d) t ret t' →
    ∀ u u' v, t' ≤ u → r.KeepsHold t' u → Exec r.bus.env Ctrl.getHoldDelay u v u' → v.toNat = h

/-- **The hold time is the hold delay.**  Numbers of sixteen bits are used as they are. -/
lemma holdsFor_ofNat {h : ℕ} (hh : h < 65536) : HoldsFor (BitVec.ofNat 32 h) h := by
  constructor
  · intro r t t' ret hset a hta haccepts hkeeps hgo
    have hhold : ((BitVec.ofNat 32 h).extractLsb' 0 16).toNat = h := by
      rw [BitVec.extractLsb'_toNat, BitVec.toNat_ofNat, Nat.shiftRight_zero]
      omega
    have hdelay := Vata.Run.delay_of_accepts ((BitVec.ofNat 32 h).extractLsb' 0 16) haccepts
    rw [hhold] at hdelay
    refine hdelay fun u hau hu => ⟨?_, hgo u hau hu⟩
    have hreg : r.holdDelay u = BitVec.ofNat 32 h := by
      rw [Run.holdDelay_of_keeps (hkeeps.mono hu) (by omega), Run.holdDelay_of_set hset]
    rw [← hreg]
    rfl
  · intro r t t' ret hset u u' v htu hkeeps hget
    rw [Run.holdDelay_of_get hget, Run.holdDelay_of_keeps hkeeps htu, Run.holdDelay_of_set hset,
      BitVec.toNat_ofNat]
    exact Nat.mod_eq_of_lt (by omega)

end Core

end TrackerFpga.Vata
