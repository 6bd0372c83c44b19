import Mathlib.Tactic.Common
import TrackerFpga.Lib.Clocked

/-!
# The AXI4-Lite slave template

The handshake registers of the register-file slave that the vendor tools generate, as a
synchronous machine: `Master` is what the master drives in a cycle, `Slave` the registers.  The
slave takes a write when address and data are both valid and `awEn` says that the response of the
last one was taken; it answers with `awready` and `wready` high for one cycle, and in that cycle
the register is written (`wren`).  A read is taken in the cycle in which `arready` is high
(`rden`).

A master may not take a valid signal back, nor change what goes with it, before the ready signal
(`Holds`).  Under this rule every cycle with `wready` high writes a register, the one whose
address is on the bus (`wren_of_wready`).
-/

namespace AxiLite

open Clocked

variable {w : ℕ}

/-- What the master drives in a cycle; addresses have `w` bits. -/
structure Master (w : ℕ) where
  awaddr : BitVec w
  awvalid : Bool
  wdata : BitVec 32
  wstrb : BitVec 4
  wvalid : Bool
  bready : Bool
  araddr : BitVec w
  arvalid : Bool
  rready : Bool
  deriving DecidableEq, Repr

/-- A master that asks for nothing. -/
def Master.quiet : Master w where
  awaddr := 0
  awvalid := false
  wdata := 0#32
  wstrb := 0#4
  wvalid := false
  bready := true
  araddr := 0
  arvalid := false
  rready := true

/-- The registers of the handshake. -/
structure Slave (w : ℕ) where
  awready : Bool
  awEn : Bool
  awaddr : BitVec w
  wready : Bool
  bvalid : Bool
  arready : Bool
  araddr : BitVec w
  rvalid : Bool
  deriving DecidableEq, Repr

namespace Slave

/-- The registers under reset. -/
def reset : Slave w where
  awready := false
  awEn := true
  awaddr := 0
  wready := false
  bvalid := false
  arready := false
  araddr := BitVec.allOnes w
  rvalid := false

/-- The write enable of the registers. -/
def wren (m : Master w) (s : Slave w) : Bool := s.wready && m.wvalid && s.awready && m.awvalid

/-- The read enable of the output register. -/
def rden (m : Master w) (s : Slave w) : Bool := s.arready && m.arvalid && !s.rvalid

/-- A write can be taken: address and data are valid, and no response is outstanding. -/
def takes (m : Master w) (s : Slave w) : Bool := m.awvalid && m.wvalid && s.awEn

/-- One clock cycle. -/
def step (m : Master w) (s : Slave w) : Slave w where
  awready := !s.awready && takes m s
  awEn :=
    if !s.awready && takes m s then false
    else if m.bready && s.bvalid then true
    else s.awEn
  awaddr := if !s.awready && takes m s then m.awaddr else s.awaddr
  wready := !s.wready && takes m s
  bvalid :=
    if s.awready && m.awvalid && s.wready && m.wvalid && !s.bvalid then true
    else if m.bready && s.bvalid then false
    else s.bvalid
  arready := !s.arready && m.arvalid
  araddr := if !s.arready && m.arvalid then m.araddr else s.araddr
  rvalid :=
    if s.arready && m.arvalid && !s.rvalid then true
    else if s.rvalid && m.rready then false
    else s.rvalid

end Slave

/-- The bits of the bytes whose strobe is high. -/
def strobeMask (strb : BitVec 4) : BitVec 32 :=
  (List.range 4).foldl
    (fun mask k => if strb.getLsbD k then mask ||| (0xFF#32 <<< (8 * k)) else mask) 0#32

/-- A word with the bytes replaced whose strobe is high. -/
def strobe (old new : BitVec 32) (strb : BitVec 4) : BitVec 32 :=
  (old &&& ~~~strobeMask strb) ||| (new &&& strobeMask strb)

/-- All four strobes replace the whole word. -/
@[simp] lemma strobe_all (old new : BitVec 32) : strobe old new 15#4 = new := by
  have hmask : strobeMask 15#4 = BitVec.allOnes 32 := by decide
  rw [strobe, hmask, BitVec.not_allOnes, BitVec.and_zero, BitVec.and_allOnes, BitVec.zero_or]

/-! ## A master that waits for the ready signals -/

/-- The handshake registers in each cycle. -/
def slave (s : Slave w) (m : ℕ → Master w) (t : ℕ) : Slave w := run Slave.step s m t

/-- The master keeps what is valid, and what goes with it, until the slave is ready. -/
structure Holds (s : Slave w) (m : ℕ → Master w) : Prop where
  aw : ∀ t, (m t).awvalid = true → (slave s m t).awready = false →
    (m (t + 1)).awvalid = true ∧ (m (t + 1)).awaddr = (m t).awaddr
  write : ∀ t, (m t).wvalid = true → (slave s m t).wready = false →
    (m (t + 1)).wvalid = true ∧ (m (t + 1)).wdata = (m t).wdata ∧ (m (t + 1)).wstrb = (m t).wstrb
  ar : ∀ t, (m t).arvalid = true → (slave s m t).arready = false →
    (m (t + 1)).arvalid = true ∧ (m (t + 1)).araddr = (m t).araddr

/-- The part of the rule that is about writes. -/
structure HoldsWrites (s : Slave w) (m : ℕ → Master w) : Prop where
  aw : ∀ t, (m t).awvalid = true → (slave s m t).awready = false →
    (m (t + 1)).awvalid = true ∧ (m (t + 1)).awaddr = (m t).awaddr
  write : ∀ t, (m t).wvalid = true → (slave s m t).wready = false →
    (m (t + 1)).wvalid = true ∧ (m (t + 1)).wdata = (m t).wdata

lemma Holds.holdsWrites {s : Slave w} {m : ℕ → Master w} (h : Holds s m) : HoldsWrites s m where
  aw := h.aw
  write t hvalid hlow := ⟨(h.write t hvalid hlow).1, (h.write t hvalid hlow).2.1⟩

section Reset

variable {m : ℕ → Master w} {t : ℕ}

lemma slave_succ (s : Slave w) (m : ℕ → Master w) (t : ℕ) :
    slave s m (t + 1) = (slave s m t).step (m t) := run_succ ..

/-- `awready` and `wready` are the same signal. -/
lemma awready_eq_wready : (slave .reset m t).awready = (slave .reset m t).wready := by
  induction t with
  | zero => rfl
  | succ t ih =>
      rw [slave_succ]
      simp only [Slave.step, ih]

/-- What raised `wready` in the cycle before. -/
lemma wready_succ (h : (slave .reset m (t + 1)).wready = true) :
    (slave .reset m t).wready = false ∧ Slave.takes (m t) (slave .reset m t) = true := by
  simpa [slave_succ, Slave.step] using h

/-- **Every `wready` is a write.**  The register is written whose address the master shows. -/
lemma wren_of_wready (hm : HoldsWrites .reset m) (h : (slave .reset m t).wready = true) :
    Slave.wren (m t) (slave .reset m t) = true ∧
      (slave .reset m t).awaddr = (m t).awaddr := by
  cases t with
  | zero => simp [slave, Slave.reset] at h
  | succ t =>
      obtain ⟨hlow, htakes⟩ := wready_succ h
      have hawlow : (slave .reset m t).awready = false := awready_eq_wready.trans hlow
      have hvalid := htakes
      simp only [Slave.takes, Bool.and_eq_true] at hvalid
      obtain ⟨haw, haddr⟩ := hm.aw t hvalid.1.1 hawlow
      obtain ⟨hw, -⟩ := hm.write t hvalid.1.2 hlow
      refine ⟨?_, ?_⟩
      · simp [Slave.wren, awready_eq_wready, h, hw, haw]
      · rw [haddr, slave_succ]
        simp [Slave.step, hawlow, htakes]

/-- A read takes the address that the master shows. -/
lemma araddr_of_rden (hm : Holds .reset m)
    (h : Slave.rden (m t) (slave .reset m t) = true) :
    (slave .reset m t).araddr = (m t).araddr := by
  simp only [Slave.rden, Bool.and_eq_true] at h
  cases t with
  | zero => simp [slave, Slave.reset] at h
  | succ t =>
      have hready := h.1.1
      rw [slave_succ] at hready
      simp only [Slave.step, Bool.and_eq_true, Bool.not_eq_true'] at hready
      rw [(hm.ar t hready.2 hready.1).2, slave_succ]
      simp [Slave.step, hready]

end Reset

/-! ## A master that follows a script -/

/-- One access of a master. -/
inductive Job (w : ℕ)
  | write (addr : BitVec w) (data : BitVec 32)
  | read (addr : BitVec w)

/-- A master with a slot of four cycles for each access: the access is valid in the first two. -/
def scripted (script : ℕ → Option (Job w)) (t : ℕ) : Master w :=
  if t % 4 < 2 then
    match script (t / 4) with
    | some (.write addr data) =>
        { Master.quiet with
          awaddr := addr, awvalid := true, wdata := data, wstrb := 15#4, wvalid := true }
    | some (.read addr) => { Master.quiet with araddr := addr, arvalid := true }
    | none => .quiet
  else .quiet

/-- A slave at rest, with the last addresses it has seen. -/
def Slave.rest (x y : BitVec w) : Slave w :=
  { (Slave.reset : Slave w) with awaddr := x, araddr := y }

/-- The slave in the cycles of a slot in which it meets the access `job`. -/
def Slave.inSlot (job : Option (Job w)) (x y : BitVec w) (k : ℕ) : Slave w :=
  match job, k with
  | _, 0 => .rest x y
  | some (.write addr _), 1 =>
      { Slave.rest addr y with awready := true, awEn := false, wready := true }
  | some (.write addr _), 2 => { Slave.rest addr y with awEn := false, bvalid := true }
  | some (.write addr _), _ => .rest addr y
  | some (.read addr), 1 => { Slave.rest x addr with arready := true }
  | some (.read addr), 2 => { Slave.rest x addr with rvalid := true }
  | some (.read addr), _ => .rest x addr
  | none, _ => .rest x y

section Scripted

variable {script : ℕ → Option (Job w)} {n k t : ℕ}

lemma scripted_slot (script : ℕ → Option (Job w)) (n : ℕ) (hk : k < 4) :
    scripted script (4 * n + k) =
      if k < 2 then
        match script n with
        | some (.write addr data) =>
            { Master.quiet with
              awaddr := addr, awvalid := true, wdata := data, wstrb := 15#4, wvalid := true }
        | some (.read addr) => { Master.quiet with araddr := addr, arvalid := true }
        | none => .quiet
      else .quiet := by
  have hmod : (4 * n + k) % 4 = k := by omega
  have hdiv : (4 * n + k) / 4 = n := by omega
  rw [scripted, hmod, hdiv]

/-- In each slot the slave meets the access of the slot, and it is at rest again in the next. -/
lemma slave_slot (script : ℕ → Option (Job w)) (n : ℕ) :
    ∃ x y, ∀ k ≤ 4, slave .reset (scripted script) (4 * n + k) = .inSlot (script n) x y k := by
  have hslot : ∀ n x y, slave .reset (scripted script) (4 * n) = .rest x y →
      ∀ k ≤ 4, slave .reset (scripted script) (4 * n + k) = .inSlot (script n) x y k := by
    intro n x y hrest k
    induction k with
    | zero =>
        intro _
        rw [Nat.add_zero, hrest]
        rcases script n with _ | ⟨_ | _⟩ <;> rfl
    | succ k ih =>
        intro hk
        rw [← Nat.add_assoc, slave_succ, ih (by omega), scripted_slot script n (by omega)]
        obtain rfl | rfl | rfl | rfl : k = 0 ∨ k = 1 ∨ k = 2 ∨ k = 3 := by omega
        all_goals rcases script n with _ | ⟨_ | _⟩ <;> rfl
  induction n with
  | zero => exact ⟨0, BitVec.allOnes w, hslot 0 _ _ rfl⟩
  | succ n ih =>
      obtain ⟨x, y, h⟩ := ih
      have hnext := h 4 le_rfl
      have hend : ∃ x' y', Slave.inSlot (script n) x y 4 = .rest x' y' := by
        rcases script n with _ | ⟨_ | _⟩ <;> exact ⟨_, _, rfl⟩
      obtain ⟨x', y', hrest⟩ := hend
      exact ⟨x', y', hslot (n + 1) x' y' (hnext.trans hrest)⟩

lemma exists_slot (t : ℕ) : ∃ n k, k < 4 ∧ t = 4 * n + k :=
  ⟨t / 4, t % 4, Nat.mod_lt _ (by decide), (Nat.div_add_mod t 4).symm⟩

/-- A scripted master keeps what is valid. -/
lemma holds_scripted (script : ℕ → Option (Job w)) : Holds .reset (scripted script) := by
  refine ⟨fun t => ?_, fun t => ?_, fun t => ?_⟩
  all_goals
    obtain ⟨n, k, hk, rfl⟩ := exists_slot t
    obtain ⟨x, y, hslot⟩ := slave_slot script n
    rw [hslot k hk.le, scripted_slot script n hk]
    obtain rfl | rfl | hk2 : k = 0 ∨ k = 1 ∨ 2 ≤ k := by omega
    · rw [Nat.add_assoc, scripted_slot script n (show 0 + 1 < 4 by decide)]
      rcases script n with _ | ⟨_ | _⟩ <;> simp [Master.quiet]
    · rcases script n with _ | ⟨_ | _⟩ <;>
        simp [Master.quiet, Slave.inSlot]
    · simp [Master.quiet, hk2.not_gt]

/-- The writes of a scripted master are performed in the second cycles of their slots. -/
lemma wren_scripted_iff (hk : k < 4) :
    Slave.wren (scripted script (4 * n + k)) (slave .reset (scripted script) (4 * n + k)) = true ↔
      k = 1 ∧ ∃ addr data, script n = some (.write addr data) := by
  obtain ⟨x, y, hslot⟩ := slave_slot script n
  rw [hslot k hk.le, scripted_slot script n hk]
  obtain rfl | rfl | hk2 : k = 0 ∨ k = 1 ∨ 2 ≤ k := by omega
  · rcases script n with _ | ⟨_ | _⟩ <;> simp [Slave.wren, Slave.inSlot, Slave.rest, Slave.reset]
  · rcases script n with _ | ⟨_ | _⟩ <;>
      simp [Slave.wren, Slave.inSlot, Slave.rest, Slave.reset, Master.quiet]
  · have hne : k ≠ 1 := by omega
    simp [Slave.wren, Master.quiet, hk2.not_gt, hne]

/-- Its reads are performed in the second cycles of their slots too. -/
lemma rden_scripted {addr : BitVec w} (h : script n = some (.read addr)) :
    Slave.rden (scripted script (4 * n + 1)) (slave .reset (scripted script) (4 * n + 1)) =
      true := by
  obtain ⟨x, y, hslot⟩ := slave_slot script n
  rw [hslot 1 (by decide), scripted_slot script n (by decide), h]
  simp [Slave.rden, Slave.inSlot, Slave.rest, Slave.reset]

end Scripted

end AxiLite
