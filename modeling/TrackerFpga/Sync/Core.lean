import TrackerFpga.Lib.WriteResponses
import TrackerFpga.Mapped.Bus
import TrackerFpga.Sync.Distn

/-!
# The registers and the counter of `sync_vata_distn`

The clocked part of `sync_vata_distn_v1_0.vhd`: the AXI slave with its eight registers
(`sync_vata_distn_v1_0_S00_AXI.vhd`), the decoder of the command register, and the 64-bit counter
(`sync_vata_fsm.vhd`), with the wires of the top level between them.  What the distributor does to
the lines of the cores is in `TrackerFpga.Sync.Distn`.

The top level has two wires that look like the reset of the counter.  `counter_rst` of the slave
goes to the port `global_counter_rst`; `counter_rst` of the counter is the signal
`counter_rst_buf`, which nothing drives.

`SyncCtrl` is the class of `sync_ctrl.cpp` that the software talks to this core with.
-/

namespace TrackerFpga.Sync

open AxiLite Clocked Interaction Mapped Vata

/-! ## `sync_vata_fsm` -/

/-- The register of `sync_vata_fsm`. -/
structure SyncVataFsm where
  ucounter : BitVec 64
  deriving DecidableEq, Repr

namespace SyncVataFsm

/-- The register under `rst_n = '0'`. -/
def reset : SyncVataFsm := { ucounter := 0#64 }

/-- `counter`, which `counter_rst` clears asynchronously. -/
def counter (counterRst : Bool) (s : SyncVataFsm) : BitVec 64 :=
  if counterRst then 0#64 else s.ucounter

/-- One clock cycle. -/
def step (counterRst : Bool) (s : SyncVataFsm) : SyncVataFsm where
  ucounter := if counterRst then 0#64 else s.ucounter + 1#64

end SyncVataFsm

namespace Core

/-! ## The core -/

/-- The registers of the core. -/
structure Regs where
  file : RegisterFile 3
  control : ControlRegisterTriggers 2
  fsm : SyncVataFsm

/-- The registers when `s00_axi_aresetn` is released. -/
def Regs.reset : Regs where
  file := .reset fun _ => 0#32
  control := .reset
  fsm := .reset

/-- `counter_rst` of the slave, which the top level connects to `global_counter_rst`. -/
def globalCounterRst (s : Regs) : Bool := s.control.triggers.getLsbD 0

/-- `counter_rst_buf`: the top level connects `counter_rst` of the counter to it, and nothing
drives it. -/
def counterRstBuf (_ : Regs) : Bool := false

/-- `disable_hits` of the slave. -/
def disableHits (s : Regs) : BitVec 32 := held s.file.slvReg 3

/-- `global_hit_ena` of the slave. -/
def globalHitEna (s : Regs) : Bool := (held s.file.slvReg 4).getLsbD 0

/-- `counter_buf`. -/
def counterBuf (s : Regs) : BitVec 64 := s.fsm.counter (counterRstBuf s)

/-- `reg_data_out`: what the register `k` reads as. -/
def regDataOut (s : Regs) (k : Fin (2 ^ 3)) : BitVec 32 :=
  if k.val = 1 then (counterBuf s).extractLsb' 0 32
  else if k.val = 2 then (counterBuf s).extractLsb' 32 32
  else s.file.slvReg k

/-- One clock cycle of the core. -/
def step (m : Master 5) (s : Regs) : Regs where
  file := s.file.step m (regDataOut s)
  control := s.control.step m.awaddr m.wdata s.file.axi.wready
  fsm := s.fsm.step (counterRstBuf s)

/-- A run of the core: what its registers hold in cycle `0`, and what the AXI master drives. -/
structure Run where
  start : Regs
  master : ℕ → Master 5

namespace Run

variable (r : Run)

/-- The registers in cycle `t`. -/
def regs (t : ℕ) : Regs := run step r.start r.master t

/-- The counter in cycle `t`. -/
def counter (t : ℕ) : BitVec 64 := counterBuf (r.regs t)

/-- What the software sees of the run, at 100 MHz. -/
def bus : Bus := .ofRegisterFile (fun t => (r.regs t).file) r.master 100

/-- The run starts when the reset is released. -/
def FromReset : Prop := r.start = .reset

lemma regs_succ (t : ℕ) : r.regs (t + 1) = step (r.master t) (r.regs t) := run_succ ..

lemma file_succ (t : ℕ) : (r.regs (t + 1)).file =
    (r.regs t).file.step (r.master t) (regDataOut (r.regs t)) := by
  rw [regs_succ]
  rfl

/-- The counter counts every cycle. -/
lemma counter_succ (t : ℕ) : r.counter (t + 1) = r.counter t + 1#64 := by
  simp [counter, regs_succ, step, counterBuf, counterRstBuf, SyncVataFsm.counter,
    SyncVataFsm.step]

lemma counter_add (t n : ℕ) : r.counter (t + n) = r.counter t + BitVec.ofNat 64 n := by
  induction n with
  | zero => simp
  | succ n ih =>
      rw [← Nat.add_assoc, counter_succ, ih, BitVec.ofNat_add, BitVec.add_assoc]

variable {r}

lemma file_axi (hr : r.FromReset) (t : ℕ) :
    (r.regs t).file.axi = slave .reset r.master t := by
  induction t with
  | zero =>
      have hstart : r.start = .reset := hr
      simp [regs, hstart, Regs.reset, RegisterFile.reset, slave]
  | succ t ih =>
      rw [file_succ, slave_succ, ← ih]
      rfl

/-- **One response.**  The core gives one response for each write that it accepts. -/
theorem oneResponse (hr : r.FromReset) : OneResponse (fun t => (r.regs t).file.axi) r.master := by
  rw [funext (file_axi hr)]
  exact oneResponse_slave r.master

lemma counter_of_reset (hr : r.FromReset) (t : ℕ) : r.counter t = BitVec.ofNat 64 t := by
  have hzero : r.counter 0 = 0#64 := by
    have hstart : r.start = .reset := hr
    simp [counter, regs, hstart, counterBuf, counterRstBuf, SyncVataFsm.counter, Regs.reset,
      SyncVataFsm.reset]
  have hadd := r.counter_add 0 t
  rwa [hzero, Nat.zero_add, BitVec.zero_add] at hadd

variable {t k : ℕ} {v : BitVec 32}

/-- A read takes what the core shows. -/
lemma data_of_reads (h : r.bus.Reads t k v) :
    ∃ hk : k < 2 ^ 3, v = regDataOut (r.regs t) ⟨k, hk⟩ := Bus.data_of_reads (r.file_succ t) h

lemma low_of_reads (h : r.bus.Reads t 1 v) : v = (r.counter t).extractLsb' 0 32 := by
  obtain ⟨hk, rfl⟩ := data_of_reads h
  rfl

lemma high_of_reads (h : r.bus.Reads t 2 v) : v = (r.counter t).extractLsb' 32 32 := by
  obtain ⟨hk, rfl⟩ := data_of_reads h
  rfl

end Run

end Core

/-! ## `SyncCtrl` -/

namespace SyncCtrl

/-- `SyncCtrl::counter_reset`: the command `counter_rst`. -/
def counterReset : Driver Unit := Driver.write 0 0#32

/-- `SyncCtrl::get_counter`. -/
def getCounter (o : WordOrder) : Driver (BitVec 64) := readU64 o 1

/-- `SyncCtrl::force_trigger`: the command `force_trigger`. -/
def forceTrigger : Driver Unit := Driver.write 0 1#32

/-- `SyncCtrl::asic_hit_disable`, with `N_VATA = nVata`. -/
def asicHitDisable (nVata : ℕ) (asic : ℤ) : Driver ℤ :=
  if asic < 0 ∨ asic ≥ nVata then pure 1
  else do
    let disableHits ← Driver.read 3
    Driver.write 3 (disableHits ||| 1#32 <<< asic.toNat)
    pure 0

/-- `SyncCtrl::asic_hit_enable`. -/
def asicHitEnable (nVata : ℕ) (asic : ℤ) : Driver ℤ :=
  if asic < 0 ∨ asic ≥ nVata then pure 1
  else do
    let disableHits ← Driver.read 3
    Driver.write 3 (disableHits &&& ~~~(1#32 <<< asic.toNat))
    pure 0

/-- `SyncCtrl::get_asic_hit_disable_mask`. -/
def getAsicHitDisableMask : Driver (BitVec 32) := Driver.read 3

/-- `SyncCtrl::global_hit_enable`. -/
def globalHitEnable : Driver Unit := Driver.write 4 1#32

/-- `SyncCtrl::global_hit_disable`. -/
def globalHitDisable : Driver Unit := Driver.write 4 0#32

/-- `SyncCtrl::is_global_hit_enabled`. -/
def isGlobalHitEnabled : Driver Bool := do
  let globalEnable ← Driver.read 4
  pure ((globalEnable &&& 1#32) == 1#32)

end SyncCtrl

end TrackerFpga.Sync
