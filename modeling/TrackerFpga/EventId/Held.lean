import TrackerFpga.EventId.DeadTimes

/-!
# The id stays until it is cleared

After a transfer the receiver holds the id for as long as the sender is idle and no clear comes:
the latch went low early enough that no edge of it is still on its way (`eventIdOut_held`).  A
clear comes three cycles after `event_id_clr`, and only then (`exists_clr_of_cleared`).
-/

namespace TrackerFpga.EventId.Run

open Clocked Vata

variable {W R : ℕ} {r : Run W R} {t u : ℕ}

/-! ## The clear -/

lemma s2p_succ (t : ℕ) : (r.regs (t + 1)).s2p =
    (r.regs t).s2p.step (r.regs t).p2s.eventIdOut (r.regs t).p2s.eventIdLatch
      (r.inp t).eventIdClr := by
  rw [regs_succ]
  rfl

/-- In a run from reset a clear comes three cycles after `event_id_clr`. -/
lemma exists_clr_of_cleared (hstart : r.start.s2p = .reset) (h : r.Cleared u) :
    ∃ v, u = v + 3 ∧ (r.inp v).eventIdClr = true := by
  have hzero : (r.regs 0).s2p = .reset := hstart
  have hnewest : ∀ v, (r.regs (v + 1)).s2p.clrResync.getLsbD 0 = (r.inp v).eventIdClr := by
    intro v
    rw [s2p_succ]
    simp [EventIdS2p.step]
  have hmiddle : ∀ v, (r.regs (v + 1)).s2p.clrResync.getLsbD 1 =
      (r.regs v).s2p.clrResync.getLsbD 0 := by
    intro v
    rw [s2p_succ]
    simp [EventIdS2p.step]
  unfold Cleared at h
  cases u with
  | zero => simp [hzero, EventIdS2p.reset] at h
  | succ v =>
      have hedge : EventIdS2p.resyncEdge (r.regs v).s2p.clrResync = true := by
        rw [s2p_succ] at h
        exact h
      have hbit : (r.regs v).s2p.clrResync.getLsbD 1 = true := by
        unfold EventIdS2p.resyncEdge at hedge
        simp_all
      cases v with
      | zero => simp [hzero, EventIdS2p.reset] at hbit
      | succ v =>
          rw [hmiddle] at hbit
          cases v with
          | zero => simp [hzero, EventIdS2p.reset] at hbit
          | succ v => exact ⟨v, rfl, by rw [← hnewest, hbit]⟩

lemma clears_of_not_cleared (hnow : ¬ r.Cleared u) (hnext : ¬ r.Cleared (u + 1)) :
    (r.regs u).s2p.clears = false := by
  rw [Cleared, s2p_succ] at hnext
  rw [Cleared] at hnow
  simp only [EventIdS2p.step, Bool.not_eq_true] at hnext hnow
  rw [EventIdS2p.clears, hnext, hnow]
  rfl

/-! ## After a transfer -/

section Transfer

variable (g : Generics W R) (h : r.Starts t)
include g h

/-- At the end of a transfer no edge of the latch is on its way. -/
lemma latchResync_transferEnd :
    (r.regs (transferEnd W R t)).s2p.latchResync.getLsbD 0 = false ∧
      (r.regs (transferEnd W R t)).s2p.latchResync.getLsbD 1 = false := by
  have hW := g.two_le_width
  have hR := g.two_le_ratio
  obtain ⟨x, hx⟩ := receiving_at g h
  have hlast := hx (W - 1) (by omega) (2 * R) le_rfl (by omega)
  have hend : transferEnd W R t = t + 1 + 2 * R * (W - 1) + 2 * R := by
    have hmul : 2 * R * W = 2 * R * (W - 1) + 2 * R := by
      rw [← Nat.mul_succ, Nat.succ_eq_add_one, Nat.sub_add_cancel (by omega)]
    rw [transferEnd, hmul]
    omega
  rw [hend, hlast.newest, hlast.middle]
  exact ⟨decide_eq_false (by omega), decide_eq_false (by omega)⟩

/-- **The id is held** while the sender is idle and no clear comes. -/
lemma eventIdOut_held (hu : transferEnd W R t ≤ u)
    (hidle : ∀ v, transferEnd W R t ≤ v → v < u → r.Idle v)
    (hclr : ∀ v, transferEnd W R t ≤ v → v ≤ u → ¬ r.Cleared v) :
    r.eventIdOut u = r.eventIdOut (transferEnd W R t) := by
  obtain ⟨hnewest, hmiddle⟩ := latchResync_transferEnd g h
  refine (invariant_between (a := transferEnd W R t) (b := u)
    (P := fun v => ((r.regs v).s2p.latchResync.getLsbD 0 = false ∧
      (r.regs v).s2p.latchResync.getLsbD 1 = false) ∧
        r.eventIdOut v = r.eventIdOut (transferEnd W R t))
    ⟨⟨hnewest, hmiddle⟩, rfl⟩ ?_ hu le_rfl).2
  rintro v hv hvu ⟨⟨hlow0, hlow1⟩, hout⟩
  have hlatch : (r.regs v).p2s.eventIdLatch = false := by
    have hstate : (r.regs v).p2s.currentState = .idle := hidle v hv hvu
    rw [P2s.eventIdLatch, hstate]
  have hnoEdge : EventIdS2p.resyncEdge (r.regs v).s2p.latchResync = false := by
    rw [EventIdS2p.resyncEdge, hlow1, Bool.false_and]
  obtain ⟨hdata, hresync⟩ := EventIdS2p.step_of_not_clears (d := (r.regs v).p2s.eventIdOut)
    (l := (r.regs v).p2s.eventIdLatch) (c := (r.inp v).eventIdClr)
    (clears_of_not_cleared (hclr v hv hvu.le) (hclr (v + 1) (by omega) hvu))
  rw [hnoEdge, if_neg Bool.false_ne_true] at hdata
  rw [hlatch] at hresync
  refine ⟨?_, ?_⟩
  · rw [s2p_succ, hlatch, hresync, BitVec.getLsbD_shiftConcat, BitVec.getLsbD_shiftConcat]
    exact ⟨rfl, hlow0⟩
  · rw [eventIdOut, EventIdS2p.eventIdOut, s2p_succ, hdata]
    exact hout

end Transfer

end TrackerFpga.EventId.Run
