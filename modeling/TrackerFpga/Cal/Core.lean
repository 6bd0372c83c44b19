import TrackerFpga.Lib.WriteResponses
import TrackerFpga.Cal.Fsm
import TrackerFpga.Mapped.Script

/-!
# The calibration core and `CalCtrl`

`AXI_cal_pulse_v1_1_S00_AXI.vhd`: the AXI slave with its eight registers, and the machine that
sends the pulses wired to them.  `CalCtrl` is the class of `cal_ctrl.cpp`: it keeps the settings in
fields, and each call that starts pulses writes them all before it sets the bit `run_pulses`.
-/

namespace TrackerFpga.Cal

open AxiLite Clocked Interaction Mapped

namespace Core

/-! ## The core -/

/-- The registers of the core. -/
structure Regs where
  file : RegisterFile 3
  fsm : Cal.Regs

/-- The registers when `s00_axi_aresetn` is released. -/
def Regs.reset : Regs where
  file := .reset fun _ => 0#32
  fsm := .reset

/-- The ports of `pulse_trigger_fsm`. -/
def fsmInput (slvReg : Fin (2 ^ 3) → BitVec 32) : Input where
  runPulses := (slvReg ⟨1, by decide⟩).getLsbD 0
  calPulseEna := (slvReg ⟨0, by decide⟩).getLsbD 0
  vataTriggerEna := (slvReg ⟨0, by decide⟩).getLsbD 1
  calPulseWidth := slvReg ⟨2, by decide⟩
  triggerDelay := slvReg ⟨3, by decide⟩
  nPulsesIn := slvReg ⟨4, by decide⟩
  pulseWait := slvReg ⟨5, by decide⟩

/-- `vata_fast_or_trigger_disable`. -/
def vataFastOrTriggerDisable (s : Regs) : Bool := (s.file.slvReg ⟨0, by decide⟩).getLsbD 2

/-- One clock cycle of the core. -/
def step (m : Master 5) (s : Regs) : Regs where
  file := s.file.step m s.file.slvReg
  fsm := Cal.step (fsmInput s.file.slvReg) s.fsm

/-- A run of the core: what its registers hold in cycle `0`, and what the AXI master drives. -/
structure Run where
  start : Regs
  master : ℕ → Master 5

namespace Run

variable (r : Run)

/-- The registers in cycle `t`. -/
def regs (t : ℕ) : Regs := run step r.start r.master t

/-- The register file in cycle `t`. -/
def file (t : ℕ) : RegisterFile 3 := (r.regs t).file

/-- What the slave registers hold in cycle `t`. -/
def slvReg (t : ℕ) : Fin (2 ^ 3) → BitVec 32 := (r.file t).slvReg

/-- The run of the machine in it. -/
def fsm : Cal.Run where
  start := r.start.fsm
  inp t := fsmInput (r.slvReg t)

/-- What the software sees of the run, at 100 MHz. -/
def bus : Bus := .ofRegisterFile r.file r.master 100

/-- The run starts when the reset is released. -/
def FromReset : Prop := r.start = .reset

lemma regs_succ (t : ℕ) : r.regs (t + 1) = step (r.master t) (r.regs t) := run_succ ..

lemma file_succ (t : ℕ) : r.file (t + 1) = (r.file t).step (r.master t) (r.slvReg t) := by
  rw [file, regs_succ]
  rfl

lemma advances (t : ℕ) :
    ∃ axi out, r.file (t + 1) = (r.file t).advance axi (r.master t) out := ⟨_, _, r.file_succ t⟩

lemma fsm_regs (t : ℕ) : r.fsm.regs t = (r.regs t).fsm := by
  induction t with
  | zero => rfl
  | succ t ih =>
      rw [Cal.Run.regs_succ, ih, regs_succ]
      rfl

variable {r} {k j t u : ℕ} {v w : BitVec 32}

lemma file_axi (hr : r.FromReset) (t : ℕ) : (r.file t).axi = slave .reset r.master t := by
  induction t with
  | zero =>
      have hstart : r.start = .reset := hr
      simp [file, regs, hstart, Regs.reset, RegisterFile.reset, slave]
  | succ t ih =>
      rw [file_succ, slave_succ, ← ih]
      rfl

/-- **One response.**  The core gives one response for each write that it accepts. -/
theorem oneResponse (hr : r.FromReset) : OneResponse (fun t => (r.file t).axi) r.master := by
  rw [funext (file_axi hr)]
  exact oneResponse_slave r.master

/-- The slave does not take writes in two cycles on end. -/
lemma not_writes_succ (h : r.bus.Writes t k v) : ¬ r.bus.Writes (t + 1) j w := by
  have hready : ∀ {t k v}, r.bus.Writes t k v → (r.file t).axi.wready = true := by
    rintro t k v ⟨hk, hwritten⟩
    unfold RegisterFile.written at hwritten
    split_ifs at hwritten with hwren
    simp only [Slave.wren, Bool.and_eq_true] at hwren
    exact hwren.1.1.1
  intro hnext
  have hlow : (r.file (t + 1)).axi.wready = false := by
    rw [file_succ]
    simp [RegisterFile.step, RegisterFile.advance, Slave.step, hready h]
  rw [hready hnext] at hlow
  exact absurd hlow (by decide)

end Run

end Core

/-! ## `CalCtrl` -/

/-- The settings of a `CalCtrl`. -/
structure CalCtrl where
  calPulseEna : Bool
  vataTriggerEna : Bool
  vataFastOrDisable : Bool
  calPulseWidth : BitVec 32
  vataTriggerDelay : BitVec 32
  repetitionDelay : BitVec 32
  deriving DecidableEq, Repr

namespace CalCtrl

/-- The settings that the constructor leaves. -/
def default : CalCtrl where
  calPulseEna := true
  vataTriggerEna := false
  vataFastOrDisable := false
  calPulseWidth := 200#32
  vataTriggerDelay := 0#32
  repetitionDelay := 1000#32

/-- The word for the register `enable`. -/
def enable (c : CalCtrl) : BitVec 32 :=
  BitVec.ofNat 32 c.vataFastOrDisable.toNat <<< 2 |||
    BitVec.ofNat 32 c.vataTriggerEna.toNat <<< 1 ||| BitVec.ofNat 32 c.calPulseEna.toNat

/-- `CalCtrl::write_settings`. -/
def writeSettings (c : CalCtrl) : Driver Unit := do
  Driver.write 0 c.enable
  Driver.write 2 c.calPulseWidth
  Driver.write 3 c.vataTriggerDelay
  Driver.write 5 c.repetitionDelay

/-- `CalCtrl::n_pulses`. -/
def nPulses (c : CalCtrl) (n : BitVec 32) : Driver ℤ := do
  c.writeSettings
  Driver.write 4 n
  Driver.write 1 1#32
  Driver.write 1 0#32
  pure 0

/-- `CalCtrl::start_inf_pulses`. -/
def startInfPulses (c : CalCtrl) : Driver ℤ := do
  c.writeSettings
  Driver.write 4 0#32
  Driver.write 1 1#32
  pure 0

/-- `CalCtrl::stop_inf_pulses`. -/
def stopInfPulses : Driver ℤ := do
  Driver.write 1 0#32
  pure 0

/-- The calls that write to the core, with the settings at the time. -/
inductive Call
  | nPulses (c : CalCtrl) (n : BitVec 32)
  | startInfPulses (c : CalCtrl)
  | stopInfPulses
  deriving DecidableEq, Repr

/-- The method that is called. -/
def Call.method : Call → Driver ℤ
  | .nPulses c n => c.nPulses n
  | .startInfPulses c => c.startInfPulses
  | .stopInfPulses => CalCtrl.stopInfPulses

/-- Each flag has its bit. -/
lemma enable_bits (c : CalCtrl) : c.enable.getLsbD 0 = c.calPulseEna ∧
    c.enable.getLsbD 1 = c.vataTriggerEna ∧ c.enable.getLsbD 2 = c.vataFastOrDisable := by
  cases hpulse : c.calPulseEna <;> cases htrigger : c.vataTriggerEna <;>
    cases hfast : c.vataFastOrDisable <;> simp [enable, hpulse, htrigger, hfast]

lemma getLsbD_enable (c : CalCtrl) : c.enable.getLsbD 0 = c.calPulseEna := c.enable_bits.1

end CalCtrl

end TrackerFpga.Cal
