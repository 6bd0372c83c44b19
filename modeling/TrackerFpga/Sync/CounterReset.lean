import TrackerFpga.Mapped.Counters

/-!
# What `SyncCtrl::counter_reset` resets

The command `counter_rst` is decoded: the cycle after it is accepted the slave raises
`counter_rst`, which the top level brings out as `global_counter_rst`
(`globalCounterRst_of_command`).
The counter listens to `counter_rst_buf` instead, and goes on counting.  So the counter restarts
at a reset exactly when it was about to: it is `0`, or all ones and wraps around
(`counterReset_works_iff`).  No other write restarts it either.
-/

namespace TrackerFpga.Sync.Core.Run

open AxiLite Interaction Mapped Vata

variable {r : Run} {t u x : ℕ}

/-- A write of `counter_rst` to the command register is accepted in cycle `u`. -/
def CounterReset (r : Run) (u : ℕ) : Prop := r.bus.Writes u 0 0#32

/-- The counter does not go on counting from cycle `x` to the next. -/
def Restarts (r : Run) (x : ℕ) : Prop := r.counter (x + 1) ≠ r.counter x + 1#64

/-- The reset of the counter works in this run: after a call of `counter_reset` whose write is
accepted in cycle `u` the counter is at most the number of cycles since, and so is what
`get_counter` returns where no carry comes between its two reads; nothing else restarts it. -/
structure CounterResetWorks (r : Run) : Prop where
  restarts : ∀ t u, Exec r.bus.env SyncCtrl.counterReset t () (u + 1) →
    ∀ x, u < x → (r.counter x).toNat ≤ x - u
  returned : ∀ t u, Exec r.bus.env SyncCtrl.counterReset t () (u + 1) →
    ∀ o x y v, u < x → x < y → r.bus.ReadsU64 1 x y o v → NoCarry r.counter x y →
      v.toNat ≤ y - u
  nothingElse : ∀ x, r.Restarts x → ∃ u, r.CounterReset u ∧ (x = u ∨ x = u + 1)

/-- The counter never restarts. -/
lemma not_restarts (r : Run) (x : ℕ) : ¬ r.Restarts x := fun h => h (r.counter_succ x)

/-- A counter that starts from `0`, or wraps around to it, counts the cycles. -/
lemma counter_le_of_zero (h : r.counter u = 0#64 ∨ r.counter u = BitVec.allOnes 64)
    (hux : u < x) : (r.counter x).toNat ≤ x - u := by
  obtain ⟨n, rfl⟩ : ∃ n, x = u + (n + 1) := ⟨x - u - 1, by omega⟩
  have hadd := r.counter_add u (n + 1)
  rcases h with hzero | hones
  · rw [hzero, BitVec.zero_add] at hadd
    rw [hadd, BitVec.toNat_ofNat]
    exact (Nat.mod_le _ _).trans (by omega)
  · have hnext : r.counter u + BitVec.ofNat 64 (n + 1) = BitVec.ofNat 64 n := by
      have hwrap : BitVec.allOnes 64 + 1#64 = 0#64 := by decide
      rw [hones, Nat.add_comm n 1, BitVec.ofNat_add, ← BitVec.add_assoc, hwrap, BitVec.zero_add]
    rw [hadd, hnext, BitVec.toNat_ofNat]
    exact (Nat.mod_le _ _).trans (by omega)

/-- A counter that is at most `1` in the next cycle is `0` or all ones. -/
lemma counter_of_succ_le (h : (r.counter (u + 1)).toNat ≤ 1) :
    r.counter u = 0#64 ∨ r.counter u = BitVec.allOnes 64 := by
  rw [counter_succ, BitVec.toNat_add] at h
  have hlt := (r.counter u).isLt
  rcases Nat.lt_or_ge ((r.counter u).toNat + 1) (2 ^ 64) with hsmall | hlarge
  · left
    apply BitVec.eq_of_toNat_eq
    rw [show (1#64).toNat = 1 by decide, Nat.mod_eq_of_lt hsmall] at h
    rw [show (0#64).toNat = 0 by decide]
    omega
  · right
    apply BitVec.eq_of_toNat_eq
    rw [BitVec.toNat_allOnes]
    omega

/-- **When the reset works.**  The reset of the counter works in a run exactly when every
`counter_reset` finds the counter at `0`, or at its end, where it restarts by itself. -/
theorem counterReset_works_iff (r : Run) :
    r.CounterResetWorks ↔
      ∀ t u, Exec r.bus.env SyncCtrl.counterReset t () (u + 1) →
        r.counter u = 0#64 ∨ r.counter u = BitVec.allOnes 64 := by
  constructor
  · intro hworks t u hcall
    refine counter_of_succ_le ?_
    have hnext := hworks.restarts t u hcall (u + 1) (Nat.lt_succ_self u)
    rwa [Nat.add_sub_cancel_left] at hnext
  · intro hcond
    refine ⟨fun t u hcall x hux => counter_le_of_zero (hcond t u hcall) hux,
      fun t u hcall o x y v hux hxy hreads hno => ?_, fun x h => absurd h (r.not_restarts x)⟩
    rcases hreads.eq_counter r.shows_counter hno with rfl | rfl
    · exact (counter_le_of_zero (hcond t u hcall) hux).trans (by omega)
    · exact counter_le_of_zero (hcond t u hcall) (hux.trans hxy)

/-- A run from reset in which the first access is `counter_reset`. -/
def resetAtOnce : Run where
  start := .reset
  master := scripted fun n => if n = 0 then some (.write (regAddr 3 0) 0#32) else none

lemma fromReset_resetAtOnce : resetAtOnce.FromReset := rfl

/-- It is accepted in cycle `1`, in which the counter is `1`, and in cycle `2` the counter is
`2`. -/
theorem resetAtOnce_not_works : ¬ resetAtOnce.CounterResetWorks := by
  intro hworks
  have hcall : Exec resetAtOnce.bus.env SyncCtrl.counterReset 0 () (1 + 1) :=
    exec_write_slot (follows_of_template (resetAtOnce.file_axi fromReset_resetAtOnce)) (n := 0)
      (by decide) (if_pos rfl)
  have hlate := hworks.restarts 0 1 hcall 2 (by decide)
  rw [counter_of_reset fromReset_resetAtOnce] at hlate
  exact absurd hlate (by decide)

/-! ## Where the pulse goes -/

/-- `last_axi_wready` is low where `axi_wready` is high. -/
lemma lastAxiWready_of_wready (hr : r.FromReset) (h : (r.regs t).file.axi.wready = true) :
    (r.regs t).control.lastAxiWready = false := by
  cases t with
  | zero =>
      have hstart : r.start = .reset := hr
      simp [regs, hstart, Regs.reset, ControlRegisterTriggers.reset]
  | succ t =>
      rw [file_axi hr] at h
      obtain ⟨hlow, -⟩ := wready_succ h
      rw [← file_axi hr] at hlow
      rw [regs_succ]
      exact hlow

/-- The command is decoded: one cycle after it is accepted the slave raises its output
`counter_rst`, and with it the port `global_counter_rst`. -/
theorem globalCounterRst_of_command (hr : r.FromReset)
    (hwren : (r.regs u).file.axi.wren (r.master u) = true) (haddr : (r.master u).awaddr = 0#5)
    (hdata : (r.master u).wdata = 0#32) : globalCounterRst (r.regs (u + 1)) = true := by
  have hready : (r.regs u).file.axi.wready = true := by
    simp only [Slave.wren, Bool.and_eq_true] at hwren
    exact hwren.1.1.1
  have hlast := lastAxiWready_of_wready hr hready
  rw [globalCounterRst, regs_succ]
  simp [step, ControlRegisterTriggers.step, hready, hlast, haddr, hdata]

end TrackerFpga.Sync.Core.Run
