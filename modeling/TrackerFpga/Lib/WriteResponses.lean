import Mathlib.Data.Nat.Count
import TrackerFpga.Lib.AxiLite

/-!
# Write responses

A slave owes its master one response for each write that it accepts.  `bvalid` is one bit, so it
can keep that promise only if it accepts no write while a response is pending (`OneResponse`,
`oneResponse_iff`).  A slave of the template does not: it clears `awEn` when it takes a write, and
sets it again when the response is taken (`oneResponse_slave`).

The results are about any registers that give the three signals the values that the template gives
them (`Responds`), whatever is done to `awEn`.
-/

namespace AxiLite

variable {w : ℕ}

/-- The slave accepts a write in cycle `t`. -/
def Accepts (s : ℕ → Slave w) (m : ℕ → Master w) (t : ℕ) : Prop := (s t).wren (m t) = true

/-- The master takes a response in cycle `t`. -/
def TakesResponse (s : ℕ → Slave w) (m : ℕ → Master w) (t : ℕ) : Prop :=
  (s t).bvalid = true ∧ (m t).bready = true

instance (s : ℕ → Slave w) (m : ℕ → Master w) : DecidablePred (Accepts s m) :=
  fun t => inferInstanceAs (Decidable ((s t).wren (m t) = true))

instance (s : ℕ → Slave w) (m : ℕ → Master w) : DecidablePred (TakesResponse s m) :=
  fun t => inferInstanceAs (Decidable ((s t).bvalid = true ∧ (m t).bready = true))

/-- There is one response for each accepted write: no write is accepted while a response is
pending, and when none is pending all of them were taken. -/
structure OneResponse (s : ℕ → Slave w) (m : ℕ → Master w) : Prop where
  noneWhilePending : ∀ t, Accepts s m t → (s t).bvalid = false
  counts : ∀ t, (s t).bvalid = false →
    Nat.count (TakesResponse s m) t = Nat.count (Accepts s m) t

/-- Address, data and the strobes stay on the bus until the slave `s` is ready. -/
structure KeepsWrites (s : ℕ → Slave w) (m : ℕ → Master w) : Prop where
  aw : ∀ t, (m t).awvalid = true → (s t).awready = false →
    (m (t + 1)).awvalid = true ∧ (m (t + 1)).awaddr = (m t).awaddr
  write : ∀ t, (m t).wvalid = true → (s t).wready = false →
    (m (t + 1)).wvalid = true ∧ (m (t + 1)).wdata = (m t).wdata ∧ (m (t + 1)).wstrb = (m t).wstrb

/-- Registers that start without a write and answer writes as the template does. -/
structure Responds (s : ℕ → Slave w) (m : ℕ → Master w) : Prop where
  start : (s 0).awready = false ∧ (s 0).wready = false ∧ (s 0).bvalid = false
  awready : ∀ t, (s (t + 1)).awready = ((s t).step (m t)).awready
  wready : ∀ t, (s (t + 1)).wready = ((s t).step (m t)).wready
  bvalid : ∀ t, (s (t + 1)).bvalid = ((s t).step (m t)).bvalid

section Responds

variable {s : ℕ → Slave w} {m : ℕ → Master w} {t : ℕ}

/-- `awready` and `wready` are the same signal. -/
lemma Responds.awready_eq (h : Responds s m) : (s t).awready = (s t).wready := by
  induction t with
  | zero => rw [h.start.1, h.start.2.1]
  | succ t ih =>
      rw [h.awready, h.wready]
      simp only [Slave.step, ih]

/-- What raised `awready` in the cycle before. -/
lemma Responds.awready_succ (h : Responds s m) :
    (s (t + 1)).awready = true ↔ (s t).awready = false ∧ (s t).takes (m t) = true := by
  rw [h.awready]
  simp [Slave.step]

/-- The response after an accepted write. -/
lemma Responds.bvalid_of_accepts (h : Responds s m) (hacc : Accepts s m t)
    (hlow : (s t).bvalid = false) : (s (t + 1)).bvalid = true := by
  unfold Accepts Slave.wren at hacc
  simp only [Bool.and_eq_true] at hacc
  obtain ⟨⟨⟨hw, hwvalid⟩, haw⟩, hawvalid⟩ := hacc
  rw [h.bvalid]
  simp [Slave.step, hw, hwvalid, haw, hawvalid, hlow]

/-- A response stays until the master takes it. -/
lemma Responds.bvalid_of_pending (h : Responds s m) (hhigh : (s t).bvalid = true) :
    (s (t + 1)).bvalid = !(m t).bready := by
  rw [h.bvalid]
  cases hb : (m t).bready <;> simp [Slave.step, hhigh, hb]

/-- Without an accepted write no response comes up. -/
lemma Responds.bvalid_of_not_accepts (h : Responds s m) (hacc : ¬ Accepts s m t)
    (hlow : (s t).bvalid = false) : (s (t + 1)).bvalid = false := by
  have hno : ((s t).awready && (m t).awvalid && (s t).wready && (m t).wvalid) = false := by
    rw [← Bool.not_eq_true]
    intro hall
    simp only [Bool.and_eq_true] at hall
    refine hacc ?_
    simp [Accepts, Slave.wren, hall]
  rw [h.bvalid]
  simp [Slave.step, hno, hlow]

/-- **Step.**  As long as no write is accepted while a response is pending, the pending response is
the only one that is owed. -/
lemma Responds.count_accepts (h : Responds s m)
    (hnone : ∀ t, Accepts s m t → (s t).bvalid = false) (t : ℕ) :
    Nat.count (Accepts s m) t =
      Nat.count (TakesResponse s m) t + if (s t).bvalid = true then 1 else 0 := by
  induction t with
  | zero => simp [h.start.2.2]
  | succ t ih =>
      rw [Nat.count_succ, Nat.count_succ, ih]
      by_cases hacc : Accepts s m t
      · have hlow := hnone t hacc
        have hquiet : ¬ TakesResponse s m t := by simp [TakesResponse, hlow]
        rw [h.bvalid_of_accepts hacc hlow, if_pos hacc, if_neg hquiet, hlow]
        simp
      · rw [if_neg hacc]
        by_cases hhigh : (s t).bvalid = true
        · rw [h.bvalid_of_pending hhigh]
          cases hb : (m t).bready <;> simp [TakesResponse, hhigh, hb]
        · have hlow := Bool.not_eq_true _ ▸ hhigh
          rw [h.bvalid_of_not_accepts hacc hlow, hlow]
          simp [TakesResponse, hlow]

/-- One response for each write is the matter of not accepting a write too early. -/
lemma Responds.oneResponse_iff (h : Responds s m) :
    OneResponse s m ↔ ∀ t, Accepts s m t → (s t).bvalid = false := by
  refine ⟨OneResponse.noneWhilePending, fun hnone => ⟨hnone, fun t hlow => ?_⟩⟩
  rw [h.count_accepts hnone t, hlow]
  simp

/-- An accepted write was taken in the cycle before. -/
lemma Responds.takes_of_accepts (h : Responds s m) (hacc : Accepts s m (t + 1)) :
    (s t).awready = false ∧ (s t).takes (m t) = true := by
  refine h.awready_succ.mp ?_
  unfold Accepts Slave.wren at hacc
  simp only [Bool.and_eq_true] at hacc
  exact hacc.1.2

lemma Responds.not_accepts_zero (h : Responds s m) : ¬ Accepts s m 0 := by
  simp [Accepts, Slave.wren, h.start]

/-- A response that is pending when a write is accepted was pending, and not taken, in the cycle
before. -/
lemma Responds.pending_of_accepts (h : Responds s m) (hacc : Accepts s m (t + 1))
    (hhigh : (s (t + 1)).bvalid = true) : (s t).bvalid = true ∧ (m t).bready = false := by
  have hready := (h.takes_of_accepts hacc).1
  have hnow : ¬ Accepts s m t := by simp [Accepts, Slave.wren, hready]
  by_cases hbefore : (s t).bvalid = true
  · rw [h.bvalid_of_pending hbefore, Bool.not_eq_true'] at hhigh
    exact ⟨hbefore, hhigh⟩
  · rw [h.bvalid_of_not_accepts hnow (Bool.not_eq_true _ ▸ hbefore)] at hhigh
    exact absurd hhigh Bool.false_ne_true

/-- A write that is taken is accepted in the next cycle. -/
lemma Responds.accepts_of_takes (h : Responds s m) (hm : KeepsWrites s m)
    (hready : (s t).awready = false) (htakes : (s t).takes (m t) = true) :
    Accepts s m (t + 1) := by
  have haw := h.awready_succ.mpr ⟨hready, htakes⟩
  have hw : (s (t + 1)).wready = true := h.awready_eq ▸ haw
  simp only [Slave.takes, Bool.and_eq_true] at htakes
  have hawvalid := (hm.aw t htakes.1.1 hready).1
  have hwvalid := (hm.write t htakes.1.2 (h.awready_eq ▸ hready)).1
  simp [Accepts, Slave.wren, haw, hw, hawvalid, hwvalid]

end Responds

/-! ## The template -/

section Template

variable {m : ℕ → Master w}

lemma responds_slave (m : ℕ → Master w) : Responds (slave .reset m) m where
  start := ⟨rfl, rfl, rfl⟩
  awready t := by rw [slave_succ]
  wready t := by rw [slave_succ]
  bvalid t := by rw [slave_succ]

/-- From a write that is taken to its response `awEn` is low. -/
lemma awEn_of_busy (t : ℕ) :
    ((slave .reset m t).awready = true → (slave .reset m t).bvalid = false) ∧
      ((slave .reset m t).awready = true ∨ (slave .reset m t).bvalid = true →
        (slave .reset m t).awEn = false) := by
  induction t with
  | zero => exact ⟨fun _ => rfl, by simp [slave, Slave.reset]⟩
  | succ t ih =>
      obtain ⟨hready, hbusy⟩ := ih
      rw [slave_succ]
      cases haw : (slave .reset m t).awready <;> cases hb : (slave .reset m t).bvalid <;>
        simp_all [Slave.step, Slave.takes]

/-- **One response.**  A slave of the template gives one response for each write, whatever its
master does. -/
lemma oneResponse_slave (m : ℕ → Master w) : OneResponse (slave .reset m) m := by
  refine (responds_slave m).oneResponse_iff.mpr fun t hacc => (awEn_of_busy t).1 ?_
  simp only [Accepts, Slave.wren, Bool.and_eq_true] at hacc
  exact hacc.1.2

end Template

end AxiLite
