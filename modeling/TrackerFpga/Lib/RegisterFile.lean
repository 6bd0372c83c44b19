import Mathlib.Logic.Function.Basic
import TrackerFpga.Lib.AxiLite

/-!
# A register file behind the slave template

The slave template with `2 ^ b` registers of 32 bits, at the byte addresses `0`, `4`, `8` and so
on.  A write goes to the register of the address that the handshake has latched, byte by byte as
the strobes say (`written`); a read puts on the bus what the core shows at that register
(`read`), which need not be what was written there.

`advance` takes the step of the handshake as an argument, for slaves that change it; `step` is the
template's own.
-/

namespace AxiLite

variable {b : ℕ}

/-- `loc_addr`: the number of the register at a byte address. -/
def locAddr (addr : BitVec (b + 2)) : Fin (2 ^ b) := (addr.extractLsb' 2 b).toFin

/-- The byte address of the register `k`. -/
def regAddr (b k : ℕ) : BitVec (b + 2) := BitVec.ofNat (b + 2) (4 * k)

lemma locAddr_regAddr {k : ℕ} (hk : k < 2 ^ b) : locAddr (regAddr b k) = ⟨k, hk⟩ := by
  have hpow : 2 ^ (b + 2) = 2 ^ b * 4 := Nat.pow_add 2 b 2
  have hmod : 4 * k % 2 ^ (b + 2) = 4 * k := Nat.mod_eq_of_lt (by omega)
  apply Fin.ext
  simp only [locAddr, regAddr, BitVec.val_toFin, BitVec.extractLsb'_toNat, BitVec.toNat_ofNat,
    Nat.shiftRight_eq_div_pow, hmod]
  rw [show 4 * k / 2 ^ 2 = k by omega, Nat.mod_eq_of_lt hk]

/-- The master stores the whole word `v` at the address of the register `k`. -/
structure StoresWord (m : Master (b + 2)) (k : ℕ) (v : BitVec 32) : Prop where
  address : m.awaddr = regAddr b k
  data : m.wdata = v
  strobes : m.wstrb = 15#4

/-- What the registers of a file hold, by their numbers. -/
def held (slvReg : Fin (2 ^ b) → BitVec 32) (k : ℕ) : BitVec 32 :=
  if h : k < 2 ^ b then slvReg ⟨k, h⟩ else 0#32

lemma held_of_lt (slvReg : Fin (2 ^ b) → BitVec 32) {k : ℕ} (h : k < 2 ^ b) :
    held slvReg k = slvReg ⟨k, h⟩ := dif_pos h

lemma held_update (slvReg : Fin (2 ^ b) → BitVec 32) {k : ℕ} (h : k < 2 ^ b) (v : BitVec 32) :
    held (Function.update slvReg ⟨k, h⟩ v) = Function.update (held slvReg) k v := by
  funext j
  by_cases hj : j = k
  · subst hj
    rw [held_of_lt _ h, Function.update_self, Function.update_self]
  · rw [Function.update_of_ne hj]
    unfold held
    split_ifs with hjb
    · exact Function.update_of_ne (fun heq => hj (congrArg Fin.val heq)) _ _
    · rfl

/-- The registers of a slave with `2 ^ b` registers. -/
structure RegisterFile (b : ℕ) where
  axi : Slave (b + 2)
  slvReg : Fin (2 ^ b) → BitVec 32
  axiRdata : BitVec 32

namespace RegisterFile

/-- The registers when the reset is released, with what they are reset to. -/
def reset (init : Fin (2 ^ b) → BitVec 32) : RegisterFile b where
  axi := .reset
  slvReg := init
  axiRdata := 0#32

/-- The register that is written in a cycle, and the word it takes. -/
def written (m : Master (b + 2)) (s : RegisterFile b) : Option (Fin (2 ^ b) × BitVec 32) :=
  if s.axi.wren m then
    some (locAddr s.axi.awaddr, strobe (s.slvReg (locAddr s.axi.awaddr)) m.wdata m.wstrb)
  else none

/-- The register that is read in a cycle. -/
def read (m : Master (b + 2)) (s : RegisterFile b) : Option (Fin (2 ^ b)) :=
  if s.axi.rden m then some (locAddr s.axi.araddr) else none

/-- The registers after a write. -/
def store (slvReg : Fin (2 ^ b) → BitVec 32) :
    Option (Fin (2 ^ b) × BitVec 32) → Fin (2 ^ b) → BitVec 32
  | some (k, v) => Function.update slvReg k v
  | none => slvReg

/-- One clock cycle in which the handshake goes to `axi`; `regDataOut` is what the core shows. -/
def advance (axi : Slave (b + 2)) (m : Master (b + 2)) (regDataOut : Fin (2 ^ b) → BitVec 32)
    (s : RegisterFile b) : RegisterFile b where
  axi := axi
  slvReg := store s.slvReg (s.written m)
  axiRdata := ((s.read m).map regDataOut).getD s.axiRdata

/-- One clock cycle of the template. -/
def step (m : Master (b + 2)) (regDataOut : Fin (2 ^ b) → BitVec 32) (s : RegisterFile b) :
    RegisterFile b :=
  s.advance (s.axi.step m) m regDataOut

section Advance

variable (axi : Slave (b + 2)) (m : Master (b + 2)) (out : Fin (2 ^ b) → BitVec 32)
  {s : RegisterFile b} {k : Fin (2 ^ b)} {v : BitVec 32}

lemma slvReg_of_written (h : s.written m = some (k, v)) :
    (s.advance axi m out).slvReg = Function.update s.slvReg k v := by
  simp only [advance, h, store]

lemma slvReg_of_not_written (h : s.written m = none) :
    (s.advance axi m out).slvReg = s.slvReg := by
  simp only [advance, h, store]

lemma axiRdata_of_read (h : s.read m = some k) : (s.advance axi m out).axiRdata = out k := by
  simp only [advance, h, Option.map_some, Option.getD_some]

end Advance

end RegisterFile

end AxiLite
