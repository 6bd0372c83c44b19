import TrackerFpga.Vata.AxiInterface

/-!
# Every command fires once

A write to register `0` is a command, and `control_register_triggers` answers it with a pulse.  It
does not look at the register: it watches for an edge of `wready` and takes the address and the
data from the bus.  For a master that keeps a write until it is taken this comes to the same:
`wready` is high for one cycle, the cycle in which both channels of one write are taken.  So the
pulses are the commands, one cycle later and in the same order (`commands_fire_once`).
-/

namespace TrackerFpga.Vata.Core.Run

open AxiLite Clocked

variable {r : Run} {t : ℕ}

/-- The master keeps `AWVALID`, `WVALID`, `AWADDR` and `WDATA` until the slave is ready. -/
def MasterHoldsWrites (r : Run) : Prop := HoldsWrites .reset r.master

/-- The address channel of a write is taken in cycle `t`. -/
def AwTaken (r : Run) (t : ℕ) : Prop :=
  (r.file t).axi.awready = true ∧ (r.master t).awvalid = true

/-- The data channel of a write is taken in cycle `t`. -/
def WTaken (r : Run) (t : ℕ) : Prop := (r.file t).axi.wready = true ∧ (r.master t).wvalid = true

/-- A write of the word `v` to the byte address `addr` is accepted in cycle `t`. -/
structure Accepted (r : Run) (t : ℕ) (addr : BitVec 8) (v : BitVec 32) : Prop where
  aw : r.AwTaken t
  w : r.WTaken t
  address : (r.master t).awaddr = addr
  data : (r.master t).wdata = v

/-- A command is accepted in cycle `t`: a write to address `0` of a value below `N_TRIGGERS`. -/
def command (r : Run) (t : ℕ) : Bool :=
  (r.file t).axi.wren (r.master t) && (r.master t).awaddr == 0#8
    && decide ((r.master t).wdata < 16#32)

/-- The commands that were accepted before cycle `t`, in order. -/
def commands (r : Run) (t : ℕ) : List (BitVec 32) :=
  sampled r.command (fun u => (r.master u).wdata) 0 t

/-- The lines `triggers` in cycle `t`. -/
def triggers (r : Run) (t : ℕ) : BitVec 16 := (r.regs t).control.triggers

/-- What the lines `triggers` showed in the cycles before `t` in which one was high, in order. -/
def pulses (r : Run) (t : ℕ) : List (BitVec 16) :=
  sampled (fun u => r.triggers u != 0#16) r.triggers 0 t

lemma command_eq_true_iff :
    r.command t = true ↔ ∃ v < 16#32, r.Accepted t 0#8 v := by
  simp only [command, Slave.wren, Bool.and_eq_true, beq_iff_eq, decide_eq_true_eq]
  constructor
  · rintro ⟨⟨⟨⟨⟨hw, hwvalid⟩, haw⟩, hawvalid⟩, haddr⟩, hlt⟩
    exact ⟨_, hlt, ⟨haw, hawvalid⟩, ⟨hw, hwvalid⟩, haddr, rfl⟩
  · rintro ⟨v, hlt, ⟨⟨haw, hawvalid⟩, ⟨hw, hwvalid⟩, haddr, rfl⟩⟩
    exact ⟨⟨⟨⟨⟨hw, hwvalid⟩, haw⟩, hawvalid⟩, haddr⟩, hlt⟩

/-- The line `v` alone is never all lines low. -/
lemma one_shift_ne_zero {v : BitVec 32} (hv : v < 16#32) : 1#16 <<< v.toNat ≠ 0#16 := by
  intro hzero
  have hlt : v.toNat < 16 := hv
  have hbit := congrArg (fun x => x.getLsbD v.toNat) hzero
  simp [hlt] at hbit

lemma getLsbD_one_shift {v : BitVec 32} (hv : v < 16#32) (n : ℕ) :
    (1#16 <<< v.toNat).getLsbD n = decide (n = v.toNat) := by
  have hlt : v.toNat < 16 := hv
  rw [BitVec.getLsbD_shiftLeft, BitVec.getLsbD_one]
  rcases lt_trichotomy n v.toNat with h | h | h
  · simp [h, h.ne]
  · simp [h, hlt]
  · have hne : n - v.toNat ≠ 0 := by omega
    simp [h.ne', hne]

section Reset

variable (hr : r.FromReset) (hm : r.MasterHoldsWrites)
include hr hm

lemma wren_iff_wready :
    (r.file t).axi.wren (r.master t) = true ↔ (r.file t).axi.wready = true := by
  rw [r.file_axi hr]
  refine ⟨fun h => ?_, fun h => (wren_of_wready hm h).1⟩
  simp only [Slave.wren, Bool.and_eq_true] at h
  exact h.1.1.1

/-- Both channels of a write are taken in one cycle. -/
lemma awTaken_iff_wTaken : r.AwTaken t ↔ r.WTaken t := by
  have hready : (r.file t).axi.awready = (r.file t).axi.wready := by
    rw [r.file_axi hr]
    exact awready_eq_wready
  have hboth : (r.file t).axi.wready = true →
      (r.master t).awvalid = true ∧ (r.master t).wvalid = true := by
    intro h
    have hwren := (wren_iff_wready hr hm).mpr h
    simp only [Slave.wren, Bool.and_eq_true] at hwren
    exact ⟨hwren.2, hwren.1.1.2⟩
  unfold AwTaken WTaken
  rw [hready]
  exact ⟨fun h => ⟨h.1, (hboth h.1).2⟩, fun h => ⟨h.1, (hboth h.1).1⟩⟩

/-- What the lines show is the command of the cycle before. -/
lemma triggers_succ :
    r.triggers (t + 1) = if r.command t then 1#16 <<< (r.master t).wdata.toNat else 0#16 := by
  have hstep : r.triggers (t + 1) =
      ((r.regs t).control.step (r.master t).awaddr (r.master t).wdata
        (r.file t).axi.wready).triggers := by
    rw [triggers, regs_succ]
    rfl
  rw [hstep]
  by_cases hready : (r.file t).axi.wready = true
  · have hlast := lastAxiWready_of_wready hr hready
    have hwren := (wren_iff_wready hr hm).mpr hready
    by_cases haddr : (r.master t).awaddr = 0#8 <;>
      by_cases hlt : (r.master t).wdata.toNat < 16 <;>
      simp [ControlRegisterTriggers.step, command, BitVec.lt_def, hready, hlast, hwren, haddr, hlt]
  · have hwren := mt (wren_iff_wready hr hm).mp hready
    simp [ControlRegisterTriggers.step, command, hready, hwren]

/-- Some line is high in the cycles after a command. -/
lemma triggers_succ_ne_zero_iff : r.triggers (t + 1) ≠ 0#16 ↔ r.command t = true := by
  rw [triggers_succ hr hm]
  by_cases h : r.command t = true
  · have hlt : (r.master t).wdata < 16#32 := by
      simp only [command, Bool.and_eq_true, decide_eq_true_eq] at h
      exact h.2
    simp [h, one_shift_ne_zero hlt]
  · simp [h]

omit hm in
lemma triggers_zero : r.triggers 0 = 0#16 := by
  obtain ⟨edges, pl, hs⟩ := hr
  simp [triggers, regs, hs, Regs.reset, ControlRegisterTriggers.reset]

/-- Two writes are not accepted in consecutive cycles. -/
lemma command_succ (h : r.command t = true) : r.command (t + 1) = false := by
  by_contra hcon
  have hwren : ∀ u, r.command u = true → (r.file u).axi.wready = true := by
    intro u hu
    simp only [command, Bool.and_eq_true] at hu
    exact (wren_iff_wready hr hm).mp hu.1.1
  have hnext := hwren (t + 1) (Bool.eq_true_of_not_eq_false hcon)
  rw [r.file_axi hr] at hnext
  have hlow := (wready_succ hnext).1
  rw [← r.file_axi hr, hwren t h] at hlow
  simp at hlow

/-- The pulses are the commands, one cycle later. -/
lemma pulses_succ : r.pulses (t + 1) = (r.commands t).map fun v => 1#16 <<< v.toNat := by
  induction t with
  | zero => simp [pulses, commands, sampled_succ, triggers_zero hr]
  | succ t ih =>
      have hpulses : r.pulses (t + 2) =
          if r.triggers (t + 1) != 0#16 then r.pulses (t + 1) ++ [r.triggers (t + 1)]
          else r.pulses (t + 1) := sampled_succ _ _ (Nat.zero_le _)
      have hcommands : r.commands (t + 1) =
          if r.command t then r.commands t ++ [(r.master t).wdata] else r.commands t :=
        sampled_succ _ _ (Nat.zero_le _)
      rw [hpulses, hcommands, ih]
      by_cases h : r.command t = true
      · have hne := (triggers_succ_ne_zero_iff hr hm).mpr h
        simp only [bne_iff_ne.mpr hne, h, if_true, List.map_append]
        rw [triggers_succ hr hm, if_pos h]
        rfl
      · have hzero := mt (triggers_succ_ne_zero_iff hr hm).mp h
        simp [not_not.mp hzero, h]

/-- **Every command fires once.**  Both channels of a write are taken in one cycle.  The line
`v` is high in the cycle after a write of `v` to address `0` is accepted and in no other, for one
cycle at a time, and the pulses are the commands in their order. -/
theorem commands_fire_once :
    (∀ t, r.AwTaken t ↔ r.WTaken t) ∧
    r.triggers 0 = 0#16 ∧
    (∀ t, ∀ n < 16, (r.triggers (t + 1)).getLsbD n = true ↔
      r.Accepted t 0#8 (BitVec.ofNat 32 n)) ∧
    (∀ t, r.triggers t ≠ 0#16 → r.triggers (t + 1) = 0#16) ∧
    ∀ t, r.pulses (t + 1) = (r.commands t).map fun v => 1#16 <<< v.toNat := by
  refine ⟨fun t => awTaken_iff_wTaken hr hm, triggers_zero hr, fun t n hn => ?_,
    fun t hne => ?_, fun t => pulses_succ hr hm⟩
  · have hsmall : BitVec.ofNat 32 n < 16#32 := by
      rw [BitVec.lt_def, BitVec.toNat_ofNat]
      show n % 2 ^ 32 < 16
      omega
    have hnat : (BitVec.ofNat 32 n).toNat = n := Nat.mod_eq_of_lt (by omega)
    rw [triggers_succ hr hm]
    constructor
    · intro hline
      by_cases h : r.command t = true
      · obtain ⟨v, hv, hacc⟩ := command_eq_true_iff.mp h
        rw [if_pos h, hacc.data, getLsbD_one_shift hv, decide_eq_true_eq] at hline
        have hvn : v = BitVec.ofNat 32 n := BitVec.eq_of_toNat_eq (hnat.trans hline).symm
        exact hvn ▸ hacc
      · simp [h] at hline
    · intro hacc
      have h : r.command t = true := command_eq_true_iff.mpr ⟨_, hsmall, hacc⟩
      rw [if_pos h, hacc.data, getLsbD_one_shift hsmall, hnat]
      exact decide_eq_true rfl
  · cases t with
    | zero => exact absurd (triggers_zero hr) hne
    | succ t =>
        have h := (triggers_succ_ne_zero_iff hr hm).mp hne
        rw [triggers_succ hr hm, command_succ hr hm h]
        simp

end Reset

/-- The commands `5` and `0`, then the value `7` for register `1`, and `99` for the command
register. -/
def twoCommandsScript (n : ℕ) : Option (Job 8) :=
  [some (.write 0#8 5#32), some (.read 0#8), some (.write 0#8 0#32), some (.write 4#8 7#32),
    some (.write 0#8 99#32)].getD n none

/-- A core whose master follows this script. -/
def twoCommands : Run where
  start := Regs.reset 0#12 0#520
  inp t := .quiet (scripted twoCommandsScript t)

lemma twoCommands_holds : twoCommands.MasterHoldsWrites :=
  (holds_scripted twoCommandsScript).holdsWrites

/-- Its two commands are two pulses, on the lines `5` and `0`. -/
theorem twoCommands_pulses : twoCommands.pulses 21 = [32#16, 1#16] := by
  obtain ⟨-, -, -, -, hpulses⟩ := commands_fire_once ⟨0#12, 0#520, rfl⟩ twoCommands_holds
  rw [hpulses 20]
  decide +kernel

end TrackerFpga.Vata.Core.Run
