import TrackerFpga.Lib.WriteResponses
import TrackerFpga.Mapped.Script
import TrackerFpga.Vata.Config

/-!
# `vata_460p3_axi_interface`

The core around the interface of one ASIC: the AXI4-Lite slave with its 64 registers
(`vata_460p3_axi_interface_v3_0_S00_AXI.vhd`), `control_register_triggers`, which turns a write to
register `0` into a pulse, and the wires of `vata_460p3_axi_interface_v3_0.vhd` between them and
`vata_460p3_iface_fsm`.  The power cycler and the calibration toggle, which none of these reads,
are left out.

The software sees registers (`Run.bus`), and the results of this file say what its writes and reads
do to them, to the command pulses and to the configuration register.  A command is taken from the
address and the data on the bus and not from the register, so only the stores of whole words say
which it is (`Run.wordBus`).
-/

namespace TrackerFpga.Vata.Core

open AxiLite Clocked Mapped

/-! ## The core -/

/-- The input ports of the core. -/
structure Input where
  axi : Master 8
  triggerAck : Bool
  fastOrTrigger : Bool
  vataHits : BitVec 12
  forceTrigger : Bool
  globalCounter : BitVec 64
  globalCounterRst : Bool
  calPulseTrigger : Bool
  disableFastOrTrigger : Bool
  eventIdLatch : Bool
  eventIdData : Bool
  vataO5 : Bool
  vataO6 : Bool
  dataTready : Bool

/-- All lines low but those of the master. -/
def Input.quiet (axi : Master 8) : Input where
  axi := axi
  triggerAck := false
  fastOrTrigger := false
  vataHits := 0#12
  forceTrigger := false
  globalCounter := 0#64
  globalCounterRst := false
  calPulseTrigger := false
  disableFastOrTrigger := false
  eventIdLatch := false
  eventIdData := false
  vataO5 := false
  vataO6 := false
  dataTready := true

/-- The registers of the core and of its instances. -/
structure Regs where
  file : RegisterFile 6
  control : ControlRegisterTriggers 16
  fsm : Vata.Regs

/-- The registers when `s00_axi_aresetn` is released. -/
def Regs.reset (edges : BitVec 12) (pl : BitVec 520) : Regs where
  file := .reset fun _ => 0#32
  control := .reset
  fsm := Vata.Regs.reset edges pl

/-- `CONFIG_REG_FROM_PS`: the registers `1` to `16` and the low byte of `17`. -/
def configRegFromPs (slvReg : Fin (2 ^ 6) → BitVec 32) : BitVec 520 :=
  (BitVec.ofBoolListLE
    ((List.range 520).map fun j => (held slvReg (1 + j / 32)).getLsbD (j % 32))).setWidth 520

/-- The input ports of `vata_460p3_iface_fsm`. -/
def fsmInput (i : Input) (s : Regs) : Vata.Input where
  forceFsmIdle := s.control.triggers.getLsbD 5
  fastOrTrigger := i.fastOrTrigger
  fastOrTriggerEna := (s.file.slvReg ⟨21, by decide⟩).getLsbD 12
  triggerAck := i.triggerAck
  ackTriggerEna := (s.file.slvReg ⟨21, by decide⟩).getLsbD 13
  vataHits := i.vataHits
  localVataTriggerEna := (s.file.slvReg ⟨21, by decide⟩).extractLsb' 0 12
  forceTrigger := i.forceTrigger
  forceTriggerEna := (s.file.slvReg ⟨21, by decide⟩).getLsbD 14
  calPulseTrigger := i.calPulseTrigger
  disableFastOrTrigger := i.disableFastOrTrigger
  triggerAckTimeout := s.file.slvReg ⟨20, by decide⟩
  eventIdLatch := i.eventIdLatch
  eventIdData := i.eventIdData
  getConfig := s.control.triggers.getLsbD 1
  setConfig := s.control.triggers.getLsbD 0
  holdTime := (s.file.slvReg ⟨18, by decide⟩).extractLsb' 0 16
  vataO5 := i.vataO5
  vataO6 := i.vataO6
  cfgRegFromPs := configRegFromPs s.file.slvReg
  dataTready := i.dataTready
  counterRst := i.globalCounterRst
  runningCounter := i.globalCounter
  eventCounterRst := s.control.triggers.getLsbD 4

/-- `reg_data_out`: what the register `k` reads as. -/
def regDataOut (i : Input) (s : Regs) (k : Fin (2 ^ 6)) : BitVec 32 :=
  if 31 ≤ k.val ∧ k.val ≤ 46 then (cfgRegFromPl s.fsm).extractLsb' (32 * (k.val - 31)) 32
  else if k.val = 47 then ((cfgRegFromPl s.fsm).extractLsb' 512 8).setWidth 32
  else if k.val = 48 then i.globalCounter.extractLsb' 0 32
  else if k.val = 49 then i.globalCounter.extractLsb' 32 32
  else if k.val = 50 then (liveCounter (fsmInput i s) s.fsm).extractLsb' 0 32
  else if k.val = 51 then (liveCounter (fsmInput i s) s.fsm).extractLsb' 32 32
  else if k.val = 52 then eventCounter (fsmInput i s) s.fsm
  else s.file.slvReg k

/-- One clock cycle of the core. -/
def step (i : Input) (s : Regs) : Regs where
  file := s.file.step i.axi (regDataOut i s)
  control := s.control.step i.axi.awaddr i.axi.wdata s.file.axi.wready
  fsm := Vata.step (fsmInput i s) s.fsm

/-- A run of the core. -/
structure Run where
  start : Regs
  inp : ℕ → Input

namespace Run

variable (r : Run)

/-- The registers in cycle `t`. -/
def regs (t : ℕ) : Regs := run step r.start r.inp t

/-- The register file in cycle `t`. -/
def file (t : ℕ) : RegisterFile 6 := (r.regs t).file

/-- What the slave registers hold in cycle `t`. -/
def slvReg (t : ℕ) : Fin (2 ^ 6) → BitVec 32 := (r.file t).slvReg

/-- The run of the interface inside the core. -/
def fsm : Vata.Run where
  start := r.start.fsm
  inp t := fsmInput (r.inp t) (r.regs t)

/-- What the AXI master drives. -/
def master (t : ℕ) : Master 8 := (r.inp t).axi

/-- What the software sees of the run, at 100 MHz. -/
def bus : Bus := .ofRegisterFile r.file r.master 100

/-- What it sees if it stores whole words. -/
def wordBus : Bus := .ofWords r.file r.master 100

/-- The run starts when the reset is released. -/
def FromReset : Prop := ∃ edges pl, r.start = Regs.reset edges pl

/-- The master keeps what is valid until the slave is ready. -/
def MasterHolds : Prop := Holds .reset r.master

lemma regs_succ (t : ℕ) : r.regs (t + 1) = step (r.inp t) (r.regs t) := run_succ ..

lemma file_succ (t : ℕ) : r.file (t + 1) =
    (r.file t).step (r.master t) (regDataOut (r.inp t) (r.regs t)) := by
  rw [file, regs_succ]
  rfl

lemma advances (t : ℕ) :
    ∃ axi out, r.file (t + 1) = (r.file t).advance axi (r.master t) out := ⟨_, _, r.file_succ t⟩

lemma idle_zero (hr : r.FromReset) : r.fsm.Idle 0 := by
  obtain ⟨edges, pl, hs⟩ := hr
  simp [Vata.Run.Idle, fsm, hs, Regs.reset, Vata.Regs.reset]

lemma fsm_cfgRegFromPs (t : ℕ) :
    (r.fsm.inp t).cfgRegFromPs = configRegFromPs (r.slvReg t) := by
  simp only [fsm, fsmInput, slvReg, file]

/-- The core is a simulation of the interface inside it. -/
lemma regs_fsm (t : ℕ) : (r.regs t).fsm = r.fsm.regs t := by
  induction t with
  | zero => rfl
  | succ t ih =>
      rw [regs_succ, Vata.Run.regs_succ, ← ih]
      rfl

/-- It is a simulation of its AXI slave too. -/
lemma file_axi (hr : r.FromReset) (t : ℕ) : (r.file t).axi = slave .reset r.master t := by
  induction t with
  | zero =>
      obtain ⟨edges, pl, hs⟩ := hr
      simp [file, regs, hs, Regs.reset, RegisterFile.reset, slave]
  | succ t ih =>
      rw [file_succ, slave_succ, ← ih]
      rfl

/-- **One response.**  The core gives one response for each write that it accepts. -/
theorem oneResponse (hr : r.FromReset) : OneResponse (fun t => (r.file t).axi) r.master := by
  rw [funext (r.file_axi hr)]
  exact oneResponse_slave r.master

end Run

/-! ## The words of the configuration register -/

/-- Word `k` of a configuration: 32 bits, of which the last word has only eight. -/
def cfgWord (x : BitVec 520) (k : ℕ) : BitVec 32 := x.extractLsb' (32 * k) 32

lemma getLsbD_configRegFromPs (slvReg : Fin (2 ^ 6) → BitVec 32) {j : ℕ} (hj : j < 520) :
    (configRegFromPs slvReg).getLsbD j = (held slvReg (1 + j / 32)).getLsbD (j % 32) := by
  rw [configRegFromPs, BitVec.getLsbD_setWidth, BitVec.getLsbD_ofBoolListLE, decide_eq_true hj,
    Bool.true_and, List.getD_eq_getElem?_getD]
  simp [List.getElem?_range hj]

/-- The registers `31` to `47` read as the words of `CONFIG_REG_FROM_PL`. -/
lemma regDataOut_config (i : Input) (s : Regs) {k : ℕ} (hk : k < 17) (hreg : k + 31 < 2 ^ 6) :
    regDataOut i s ⟨k + 31, hreg⟩ = cfgWord (cfgRegFromPl s.fsm) k := by
  unfold regDataOut cfgWord
  dsimp only
  rw [Nat.add_sub_cancel]
  by_cases hlt : k < 16
  · rw [if_pos (by omega)]
  · obtain rfl : k = 16 := by omega
    rw [if_neg (by omega), if_pos rfl]
    apply BitVec.eq_of_getLsbD_eq
    intro j hj
    by_cases hj8 : j < 8
    · simp [hj8, hj]
    · have hge : 520 ≤ 512 + j := by omega
      simp [hj8, hj, BitVec.getLsbD_of_ge _ _ hge]

/-! ## What an access does -/

namespace Run

variable {r : Run} {t k : ℕ} {v : BitVec 32}

lemma wren_of_writes (h : r.bus.Writes t k v) : (r.file t).axi.wren (r.master t) = true := by
  obtain ⟨hk, hwritten⟩ := h
  unfold RegisterFile.written at hwritten
  split_ifs at hwritten with hwren
  exact hwren

lemma wready_of_writes (h : r.bus.Writes t k v) : (r.file t).axi.wready = true := by
  have hwren := wren_of_writes h
  simp only [Slave.wren, Bool.and_eq_true] at hwren
  exact hwren.1.1.1

lemma not_wren_of_noWrite (h : r.bus.NoWrite t) : (r.file t).axi.wren (r.master t) = false := by
  have hnone : (r.file t).written (r.master t) = none := h
  unfold RegisterFile.written at hnone
  split_ifs at hnone with hwren
  exact Bool.eq_false_of_not_eq_true hwren

/-- A read takes what the core shows. -/
lemma data_of_reads (h : r.bus.Reads t k v) :
    ∃ hk : k < 2 ^ 6, v = regDataOut (r.inp t) (r.regs t) ⟨k, hk⟩ :=
  Bus.data_of_reads (r.file_succ t) h

lemma lastAxiWready_of_wready (hr : r.FromReset) (h : (r.file t).axi.wready = true) :
    (r.regs t).control.lastAxiWready = false := by
  cases t with
  | zero =>
      obtain ⟨edges, pl, hs⟩ := hr
      simp [regs, hs, Regs.reset, ControlRegisterTriggers.reset]
  | succ t =>
      rw [r.file_axi hr] at h
      obtain ⟨hlow, -⟩ := wready_succ h
      rw [← r.file_axi hr] at hlow
      rw [regs_succ]
      exact hlow

/-- A cycle without a write is followed by one without a command pulse. -/
lemma triggers_of_noWrite (hr : r.FromReset) (hm : r.MasterHolds) (h : r.bus.NoWrite t) :
    (r.regs (t + 1)).control.triggers = 0#16 := by
  have hlow : (r.regs t).file.axi.wready = false := by
    by_contra hready
    have hslave : (r.file t).axi.wready = true := Bool.eq_true_of_not_eq_false hready
    have hno := not_wren_of_noWrite h
    rw [r.file_axi hr] at hslave hno
    have hwren := (wren_of_wready hm.holdsWrites hslave).1
    rw [hwren] at hno
    exact absurd hno (by decide)
  rw [regs_succ]
  simp [step, ControlRegisterTriggers.step, hlow]

/-- A word stored to register `0` is followed by the pulse it names, any other by none. -/
lemma triggers_of_writes (hr : r.FromReset) (h : r.wordBus.Writes t k v) :
    (r.regs (t + 1)).control.triggers =
      if k = 0 ∧ v.toNat < 16 then 1#16 <<< v.toNat else 0#16 := by
  obtain ⟨hwrite, haddr, hdata, -⟩ := h
  obtain ⟨hk, -⟩ := id hwrite
  have hready : (r.regs t).file.axi.wready = true := wready_of_writes hwrite
  have hlast := lastAxiWready_of_wready hr hready
  have haddr' : (r.inp t).axi.awaddr = regAddr 6 k := haddr
  have hdata' : (r.inp t).axi.wdata = v := hdata
  have hzero : regAddr 6 k = 0#8 ↔ k = 0 := by
    rw [regAddr, ← BitVec.toNat_inj, BitVec.toNat_ofNat, BitVec.toNat_ofNat]
    omega
  rw [regs_succ]
  simp only [step, ControlRegisterTriggers.step, hready, hlast, haddr', hdata', Bool.not_false,
    Bool.and_self, Bool.true_and, beq_iff_eq, hzero]
  by_cases hk0 : k = 0 <;> simp [hk0]

end Run

/-! ## A master that follows a script -/

namespace Run

open Interaction

variable {r : Run} {script : ℕ → Option (Job 8)} {m n k : ℕ} {v : BitVec 32}

section Script

variable (hs : r.master = scripted script)
include hs

lemma masterHolds_of_script : r.MasterHolds := by
  rw [MasterHolds, hs]
  exact holds_scripted script

variable (hr : r.FromReset)
include hr

lemma follows_of_script : Follows r.file script :=
  follows_of_template fun t => by rw [r.file_axi hr, hs]

lemma noWrites_of_script (hgap : ∀ j, m ≤ j → j < n → ∀ addr data,
    script j ≠ some (.write addr data)) : r.bus.NoWrites (4 * m - 2) (4 * n + 1) := by
  rw [bus, hs]
  exact noWrites_of_gap (follows_of_script hs hr) hgap

lemma writes_of_script (hk : k < 2 ^ 6) (h : script n = some (.write (regAddr 6 k) v)) :
    r.wordBus.Writes (4 * n + 1) k v := by
  rw [wordBus, hs]
  refine ⟨⟨hk, (follows_of_script hs hr).write hk h⟩, ?_⟩
  show StoresWord (scripted script (4 * n + 1)) k v
  rw [scripted_of_write h]
  exact ⟨rfl, rfl, rfl⟩

/-- A script whose writes go to registers is one of the software. -/
lemma exec_of_script {α : Type} {prog : Driver α} {a : α} {t t' : ℕ}
    (hregs : ∀ j addr data, script j = some (.write addr data) → ∃ i < 2 ^ 6, addr = regAddr 6 i)
    (h : Exec (Bus.ofRegisterFile r.file (scripted script) 100).env prog t a t') :
    Exec r.wordBus.env prog t a t' := by
  rw [wordBus, hs]
  exact exec_words (follows_of_script hs hr) hregs h

end Script

end Run

/-! ## The ASIC wired to the core -/

/-- The inputs with another level on `vata_o5`. -/
def Input.withO5 (i : Input) (o5 : Bool) : Input := { i with vataO5 := o5 }

lemma fsmInput_withO5 (i : Input) (o5 : Bool) {s s' : Regs}
    (hslv : s.file.slvReg = s'.file.slvReg) (hcontrol : s.control = s'.control) :
    fsmInput (i.withO5 o5) s = { fsmInput i s' with vataO5 := o5 } := by
  simp only [fsmInput, Input.withO5, hslv, hcontrol]

namespace Run

/-- What the interface sees of the inputs, with any level on `vata_o5`. -/
def seen (s : Regs) (inp : ℕ → Input) (t : ℕ) : Vata.Input := fsmInput (inp t) (run step s inp t)

/-- The run of a core that is wired to an ASIC; outside the modes M1 and M2 the inputs say what
`vata_o5` is.  The registers do not depend on the ASIC, so the interface sees the same of them as
with any other `vata_o5`. -/
def closedLoop (s : Regs) (a : Asic) (inp : ℕ → Input) : Run where
  start := s
  inp t := (inp t).withO5 ((Vata.Run.closedLoop s.fsm a (seen s inp)).inp t).vataO5

variable (s : Regs) (a : Asic) (inp : ℕ → Input)

/-- What `vata_o5` cannot change. -/
lemma closedLoop_regs (t : ℕ) :
    ((closedLoop s a inp).regs t).file.axi = (run step s inp t).file.axi ∧
      ((closedLoop s a inp).regs t).file.slvReg = (run step s inp t).file.slvReg ∧
      ((closedLoop s a inp).regs t).control = (run step s inp t).control := by
  induction t with
  | zero => exact ⟨rfl, rfl, rfl⟩
  | succ t ih =>
      obtain ⟨haxi, hslv, hcontrol⟩ := ih
      rw [regs_succ, run_succ]
      simp only [step, RegisterFile.step, RegisterFile.advance, RegisterFile.written, haxi, hslv,
        hcontrol]
      exact ⟨rfl, rfl, rfl⟩

/-- The interface of a closed loop is a closed loop of its own. -/
lemma fsm_closedLoop :
    (closedLoop s a inp).fsm = Vata.Run.closedLoop s.fsm a (seen s inp) := by
  have hinp : (closedLoop s a inp).fsm.inp =
      (Vata.Run.closedLoop s.fsm a (seen s inp)).inp := by
    funext t
    obtain ⟨-, hslv, hcontrol⟩ := closedLoop_regs s a inp t
    rw [Vata.Run.closedLoop_inp, drive]
    exact (fsmInput_withO5 (inp t) _ hslv hcontrol).trans
      (by rw [Vata.Run.closedLoop_inp, drive, seen])
  exact congrArg (Vata.Run.mk s.fsm) hinp

lemma wired_core : (closedLoop s a inp).fsm.Wired a := by
  rw [fsm_closedLoop]
  exact Vata.Run.wired_closedLoop _ _ _

end Run

end TrackerFpga.Vata.Core
