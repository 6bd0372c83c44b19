import TrackerFpga.Dac.Frame
import TrackerFpga.Mapped.Script

/-!
# The DAC core and `DacCtrl`

`axi_dac121s101.vhd`: the AXI slave with its four registers (`axi_dac121s101_S00_AXI.vhd`) and the
machine that writes to the four chips.  The machine is wired to the registers as they are, and so
reads them while it sends a frame.  `DacCtrl` is the class of `dac_ctrl.cpp`; its `set_counts`
waits for 10 ms, whatever the delay register says, and at the 1 MHz of the production design these
are 10000 cycles.
-/

namespace TrackerFpga.Dac

open AxiLite Clocked Interaction Mapped

namespace Core

/-! ## The core -/

/-- The registers of the core. -/
structure Regs where
  file : RegisterFile 2
  fsm : Dac.Regs 16

/-- The registers of the slave under reset: `25 MHz` for an FPGA clock of `100 MHz`. -/
def slvRegReset (k : Fin (2 ^ 2)) : BitVec 32 := if k.val = 1 then 4#32 else 0#32

/-- The registers when `s00_axi_aresetn` is released. -/
def Regs.reset : Regs where
  file := .reset slvRegReset
  fsm := .reset

/-- One clock cycle of the handshake.  This slave is an older template, which never clears
`aw_en`. -/
def slaveStep (m : Master 4) (s : Slave 4) : Slave 4 :=
  { s.step m with
    awEn :=
      if !s.awready && s.takes m then s.awEn
      else if m.bready && s.bvalid then true
      else s.awEn }

/-- The ports of `dac121s101_fsm`. -/
def fsmInput (slvReg : Fin (2 ^ 2) → BitVec 32) : Input 16 4 where
  delayRegister := (slvReg ⟨1, by decide⟩).extractLsb' 0 16
  inputWord := (slvReg ⟨0, by decide⟩).extractLsb' 0 16
  writeTrig := (slvReg ⟨3, by decide⟩).getLsbD 0
  selectMask := (slvReg ⟨2, by decide⟩).extractLsb' 0 4

/-- One clock cycle of the core. -/
def step (m : Master 4) (s : Regs) : Regs where
  file := s.file.advance (slaveStep m s.file.axi) m s.file.slvReg
  fsm := Dac.step (fsmInput s.file.slvReg) s.fsm

/-- A run of the core: what its registers hold in cycle `0`, and what the AXI master drives. -/
structure Run where
  start : Regs
  master : ℕ → Master 4

namespace Run

variable (r : Run)

/-- The registers in cycle `t`. -/
def regs (t : ℕ) : Regs := run step r.start r.master t

/-- The register file in cycle `t`. -/
def file (t : ℕ) : RegisterFile 2 := (r.regs t).file

/-- What the slave registers hold in cycle `t`. -/
def slvReg (t : ℕ) : Fin (2 ^ 2) → BitVec 32 := (r.file t).slvReg

/-- The run of the machine in it. -/
def fsm : Dac.Run 16 4 where
  start := r.start.fsm
  inp t := fsmInput (r.slvReg t)

/-- What the software sees of the run, at 1 MHz. -/
def bus : Bus := .ofRegisterFile r.file r.master 1

/-- The run starts when the reset is released. -/
def FromReset : Prop := r.start = .reset

lemma regs_succ (t : ℕ) : r.regs (t + 1) = step (r.master t) (r.regs t) := run_succ ..

lemma file_succ (t : ℕ) : r.file (t + 1) =
    (r.file t).advance (slaveStep (r.master t) (r.file t).axi) (r.master t) (r.slvReg t) := by
  rw [file, regs_succ]
  rfl

lemma fsm_regs (t : ℕ) : r.fsm.regs t = (r.regs t).fsm := by
  induction t with
  | zero => rfl
  | succ t ih =>
      rw [Dac.Run.regs_succ, ih, regs_succ]
      rfl

end Run

end Core

/-! ## `DacCtrl` -/

/-- `enum SilayerSide`. -/
inductive SilayerSide
  | sideA
  | sideB
  deriving DecidableEq, Repr

/-- `enum DacChoice`. -/
inductive DacChoice
  | calDac
  | vthDac
  deriving DecidableEq, Repr

namespace DacCtrl

/-- `max_input`. -/
def maxInput : BitVec 32 := 4095#32

/-- `max_delay`. -/
def maxDelay : BitVec 32 := 65535#32

/-- `set_count_delay_us`. -/
def setCountDelayUs : ℕ := 10000

/-- The masks of `dac_select_masks`. -/
def selectMask : SilayerSide → DacChoice → BitVec 32
  | .sideA, .calDac => 1#32 <<< 0
  | .sideA, .vthDac => 1#32 <<< 1
  | .sideB, .calDac => 1#32 <<< 2
  | .sideB, .vthDac => 1#32 <<< 3

/-- `DacCtrl::set_delay`. -/
def setDelay (delay : BitVec 32) : Driver ℤ :=
  if maxDelay < delay then pure 1
  else do
    Driver.write 1 delay
    pure 0

/-- `DacCtrl::get_delay`. -/
def getDelay : Driver (BitVec 32) := Driver.read 1

/-- `DacCtrl::set_counts`. -/
def setCounts (side : SilayerSide) (choice : DacChoice) (counts : BitVec 32) : Driver ℤ :=
  if maxInput < counts then pure 1
  else do
    Driver.write 2 (selectMask side choice)
    Driver.write 0 counts
    Driver.write 3 0#32
    Driver.write 3 1#32
    Driver.write 3 0#32
    Driver.usleep setCountDelayUs
    pure 0

/-- `DacCtrl::get_input`. -/
def getInput : Driver (BitVec 32) := Driver.read 0

/-- The calls that write to the core. -/
inductive Call
  | setDelay (delay : BitVec 32)
  | setCounts (side : SilayerSide) (choice : DacChoice) (counts : BitVec 32)
  deriving DecidableEq, Repr

/-- The method that is called. -/
def Call.method : Call → Driver ℤ
  | .setDelay delay => DacCtrl.setDelay delay
  | .setCounts side choice counts => DacCtrl.setCounts side choice counts

end DacCtrl

end TrackerFpga.Dac
