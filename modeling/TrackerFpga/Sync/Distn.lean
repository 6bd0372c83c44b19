import TrackerFpga.Vata.Phase

/-!
# `sync_vata_distn` and its cores

Up to twelve VATA interfaces on one clock, wired through `sync_vata_distn_v1_0.vhd`: every core
drives its two lines `vata_hit_busy` into it and gets back the shared vector `vata_hits` and the
shared line `force_trigger`.  The hits pass through combinationally, blocked while any core is
busy; `force_trigger` is a register that `control_register_triggers.vhd` sets for one cycle when
the software writes the command.

A state is what the cores and this register hold.  The inputs of a cycle are what the cores get
from elsewhere, the AXI write channel, and the two slave registers that switch hits off.
-/

namespace TrackerFpga.Sync

open Vata

/-! ## The cores and the distributor -/

variable {N : ℕ}

/-- What a cycle brings from outside.  `cores` is what each core gets from elsewhere; its
`vata_hits` and `force_trigger` come from the distributor.  `openPorts` is what the ports
`vata_hit_busy` without a core carry. -/
structure Input (N : ℕ) where
  cores : Fin N → Vata.Input
  openPorts : Fin 12 → BitVec 2
  disableHits : BitVec 32
  globalHitEna : Bool
  axiAwaddr : BitVec 5
  axiWdata : BitVec 32
  axiWready : Bool

/-- What the cores and the distributor hold. -/
structure State (N : ℕ) where
  cores : Fin N → Regs
  control : ControlRegisterTriggers 2

/-- The port `vata_hit_busy` of core `n`: `vata_hit` in bit 1, `vata_busy` in bit 0. -/
def vataHitBusy (i : Input N) (s : State N) (n : Fin 12) : BitVec 2 :=
  if h : n.val < N then
    BitVec.ofBool (Vata.vataHit (i.cores ⟨n, h⟩) (s.cores ⟨n, h⟩))
      ++ BitVec.ofBool (Vata.vataBusy (s.cores ⟨n, h⟩))
  else i.openPorts n

/-- `vata_hit00` to `vata_hit11`. -/
def vataHit (i : Input N) (s : State N) (n : Fin 12) : Bool :=
  (vataHitBusy i s n).getLsbD 1 && !i.disableHits.getLsbD n && i.globalHitEna

/-- `vata_busy00` to `vata_busy11`. -/
def vataBusy (i : Input N) (s : State N) (n : Fin 12) : Bool :=
  (vataHitBusy i s n).getLsbD 0 && !i.disableHits.getLsbD n

/-- `FEE_busy`. -/
def feeBusy (i : Input N) (s : State N) : Bool := (List.finRange 12).any (vataBusy i s)

/-- `vata_hits`. -/
def vataHits (i : Input N) (s : State N) : BitVec 12 :=
  (BitVec.ofBoolListLE
    ((List.finRange 12).map fun n => vataHit i s n && !feeBusy i s)).setWidth 12

/-- `force_trigger`. -/
def forceTrigger (s : State N) : Bool := s.control.triggers.getLsbD 1

/-- The input ports of core `n`. -/
def coreInput (i : Input N) (s : State N) (n : Fin N) : Vata.Input :=
  { i.cores n with vataHits := vataHits i s, forceTrigger := forceTrigger s }

/-- One clock cycle of all cores and of the distributor. -/
def step (i : Input N) (s : State N) : State N where
  cores n := Vata.step (coreInput i s n) (s.cores n)
  control := s.control.step i.axiAwaddr i.axiWdata i.axiWready

lemma vataHitBusy_busy (i : Input N) (s : State N) {n : Fin N} (hn : n.val < 12) :
    (vataHitBusy i s ⟨n.val, hn⟩).getLsbD 0 = Vata.vataBusy (s.cores n) := by
  rw [vataHitBusy, dif_pos n.isLt]
  cases Vata.vataHit (i.cores n) (s.cores n) <;> cases Vata.vataBusy (s.cores n) <;> rfl

/-- While one core is busy no hit reaches any. -/
lemma vataHits_eq_zero_of_busy {i : Input N} {s : State N} (hN : N ≤ 12)
    (hena : i.disableHits = 0#32) {n : Fin N} (hbusy : (s.cores n).currentState ≠ .idle) :
    vataHits i s = 0#12 := by
  have hfee : feeBusy i s = true := by
    rw [feeBusy, List.any_eq_true]
    refine ⟨⟨n, by omega⟩, List.mem_finRange _, ?_⟩
    have hline : Vata.vataBusy (s.cores n) = true := by simp [Vata.vataBusy, hbusy]
    simp [vataBusy, vataHitBusy_busy, hena, hline]
  have hlow : (List.finRange 12).map (fun n => vataHit i s n && !feeBusy i s) =
      List.replicate 12 false := by
    simp [hfee, List.map_const']
  rw [vataHits, hlow]
  rfl

/-! ## Runs -/

/-- A run of the cores and the distributor. -/
structure Run (N : ℕ) where
  start : State N
  inp : ℕ → Input N

namespace Run

variable (r : Run N)

/-- What is held in cycle `t`. -/
def regs (t : ℕ) : State N := Clocked.run step r.start r.inp t

/-- The state of the main machine of core `n` in cycle `t`. -/
def state (n : Fin N) (t : ℕ) : Vata.State := ((r.regs t).cores n).currentState

/-- The run starts when the reset is released.  `rising_edge_out` has no reset branch: the cores
share their hits and their clock, and hold the same edges there. -/
def FromReset : Prop :=
  (∃ edges, ∀ n, ∃ pl, r.start.cores n = Regs.reset edges pl) ∧ r.start.control = .reset

/-- Core `n` starts an acquisition in cycle `t`: it goes from `IDLE` to `ACQ_DELAY`. -/
def Starts (n : Fin N) (t : ℕ) : Prop := r.state n t = .idle ∧ r.state n (t + 1) = .acqDelay

/-- A core starts an acquisition where a trigger fires in `IDLE`. -/
lemma starts_iff (n : Fin N) (t : ℕ) :
    r.Starts n t ↔ r.state n t = .idle ∧
      triggerAcq (coreInput (r.inp t) (r.regs t) n) ((r.regs t).cores n) = true := by
  refine and_congr_right fun hidle => ?_
  have hnext : r.state n (t + 1) =
      (Vata.control (coreInput (r.inp t) (r.regs t) n) ((r.regs t).cores n)).nextState := rfl
  have hstate : ((r.regs t).cores n).currentState = .idle := hidle
  rw [hnext, Vata.control, hstate]
  simp only
  split_ifs <;> simp_all

lemma state_zero {r : Run N} (hr : r.FromReset) (n : Fin N) : r.state n 0 = .idle := by
  obtain ⟨⟨edges, hcores⟩, -⟩ := hr
  obtain ⟨pl, hn⟩ := hcores n
  have hstart : (r.regs 0).cores n = Regs.reset edges pl := hn
  rw [state, hstart]
  rfl

end Run

end TrackerFpga.Sync
