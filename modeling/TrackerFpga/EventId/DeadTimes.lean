import TrackerFpga.EventId.Gen
import TrackerFpga.EventId.Go
import TrackerFpga.Lib.Answers

/-!
# One id for each dead time

A transmission takes `64 * EVENT_ID_CLK_RATIO` cycles, and a go that comes while it lasts is lost.
So the further goes that `gen_event_id_go` gives for one dead time do nothing, and if the dead
times begin far enough apart each of them starts one transmission (`answered`).  The ids are then
the numbers of the dead times, counted from reset (`sentId_of_rises`).
-/

namespace TrackerFpga.EventId.Gen.Run

open Clocked EventId.Run

variable {R : ℕ} {r : Run R} {busy ready : ℕ → Bool} {t u x y : ℕ}

instance (r : Run R) : DecidablePred r.Starts := fun _ => inferInstanceAs (Decidable (_ ∧ _))

/-- The core is wired to `gen_event_id_go`, and software leaves its id alone. -/
structure Wired (r : Run R) (busy ready : ℕ → Bool) : Prop where
  start : r.start = .reset
  go : ∀ t, (r.inp t).eventIdGo = GenEventIdGo.go busy ready t
  noUpdate : ∀ t, ¬ r.Updates t

/-- The dead times begin so far apart that a transmission ends before the next one begins. -/
def FarApart (R : ℕ) (busy : ℕ → Bool) : Prop :=
  ∀ x x', Rises busy x → Rises busy x' → x < x' → x + 2 * R * 32 + 8 ≤ x'

/-! ## Transmissions -/

section Transfer

variable (g : Generics 32 R)
include g

/-- A transmission goes on until its end. -/
lemma not_idle_of_transfer (h : r.Starts t) (hu : t < u) (hend : u < transferEnd 32 R t) :
    ¬ r.Idle u := by
  have hlink : (r.link .reset fun _ => false).Starts t := by
    refine ⟨?_, h.2, fun v _ _ => link_not_cleared v⟩
    rw [EventId.Run.Idle, link_p2s]
    exact h.1
  refine invariant_between (P := fun v => ¬ r.Idle v) (a := t + 1) (b := transferEnd 32 R t - 1)
    (not_idle_of_starts h) (fun v hv hvend hbusy => ?_) hu (by omega)
  rw [idle_succ_iff]
  rintro (⟨hidle, -⟩ | hinc)
  · exact hbusy hidle
  · have hlast := (incEventId_iff g hlink (u := v) (by omega) (by omega)).mp (by
      rw [EventId.Run.incEventId, link_p2s]
      exact hinc)
    omega

/-- A sender that is not idle is in a transmission. -/
lemma exists_transfer (hzero : r.Idle 0) (ht : ¬ r.Idle t) :
    ∃ s, s < t ∧ r.Starts s ∧ t < transferEnd 32 R s := by
  induction t with
  | zero => exact absurd hzero ht
  | succ t ih =>
      by_cases hidle : r.Idle t
      · have hgo : (r.inp t).eventIdGo = true := by
          by_contra hno
          exact ht (idle_succ_iff.mpr (.inl ⟨hidle, by simpa using hno⟩))
        have hlong : 0 < 2 * R * 32 := by
          have hR := g.two_le_ratio
          omega
        refine ⟨t, Nat.lt_succ_self t, ⟨hidle, hgo⟩, ?_⟩
        unfold transferEnd
        omega
      · obtain ⟨s, hst, hs, hend⟩ := ih hidle
        refine ⟨s, by omega, hs, ?_⟩
        by_contra hover
        have heq : t + 1 = transferEnd 32 R s := by omega
        rw [heq] at ht
        exact ht (idle_transferEnd g hs)

end Transfer

/-- Without updates `event_id` counts the transmissions that have ended. -/
lemma eventId_eq_count (hzero : r.Idle 0) (hnone : ∀ t, ¬ r.Updates t) (t : ℕ) :
    r.Idle t ∧ r.eventId t = r.eventId 0 + BitVec.ofNat 32 (Nat.count r.Starts t) ∨
      ¬ r.Idle t ∧ r.eventId t + 1#32 = r.eventId 0 + BitVec.ofNat 32 (Nat.count r.Starts t) := by
  induction t with
  | zero => exact .inl ⟨hzero, by simp⟩
  | succ t ih =>
      have hid := eventId_of_not_updates (hnone t)
      rcases ih with ⟨hidle, heq⟩ | ⟨hbusy, heq⟩
      · rw [incEventId_of_idle hidle, if_neg Bool.false_ne_true] at hid
        by_cases hgo : (r.inp t).eventIdGo = true
        · have hs : r.Starts t := ⟨hidle, hgo⟩
          refine .inr ⟨not_idle_of_starts hs, ?_⟩
          rw [hid, heq, Nat.count_succ, if_pos hs, BitVec.ofNat_add, BitVec.add_assoc]
        · have hs : ¬ r.Starts t := fun hs => hgo hs.2
          refine .inl ⟨idle_succ_iff.mpr (.inl ⟨hidle, by simpa using hgo⟩), ?_⟩
          rw [hid, heq, Nat.count_succ, if_neg hs, Nat.add_zero]
      · have hs : ¬ r.Starts t := fun hs => hbusy hs.1
        simp only [Nat.count_succ, if_neg hs, Nat.add_zero]
        by_cases hinc : r.incEventId t = true
        · rw [if_pos hinc] at hid
          exact .inl ⟨idle_succ_iff.mpr (.inr hinc), hid.trans heq⟩
        · rw [if_neg hinc] at hid
          refine .inr ⟨fun hnext => ?_, by rw [hid, heq]⟩
          exact hinc ((idle_succ_iff.mp hnext).resolve_left fun hwait => hbusy hwait.1)

/-- The id of a transmission is the number of those before it. -/
lemma sentId_eq_count (hstart : r.start = .reset) (hnone : ∀ t, ¬ r.Updates t)
    (hs : r.Starts t) : r.sentId t = BitVec.ofNat 32 (Nat.count r.Starts t) := by
  have hidle : r.Idle 0 := by
    have hregs : r.regs 0 = .reset := hstart
    rw [Idle, hregs]
    rfl
  have hzero : r.eventId 0 = 0#32 := by
    have hregs : r.regs 0 = .reset := hstart
    rw [eventId, hregs]
    rfl
  rw [sentId_of_starts hs]
  rcases eventId_eq_count hidle hnone t with ⟨-, heq⟩ | ⟨hbusy, -⟩
  · rw [heq, hzero, BitVec.zero_add]
  · exact absurd hs.1 hbusy

/-! ## Dead times -/

lemma Wired.idle_zero (hw : r.Wired busy ready) : r.Idle 0 := by
  have hregs : r.regs 0 = .reset := hw.start
  rw [Idle, hregs]
  rfl

section Wired

variable (g : Generics 32 R) (hw : r.Wired busy ready)
  (hand : GenEventIdGo.Handshake busy ready)
include g hw hand

/-- The transmission that goes on when a dead time is given its first go would be an earlier
one's, and that has ended. -/
lemma idle_of_first_go (hfar : FarApart R busy) (hx : Rises busy x) (hxy : x < y)
    (hyx : y ≤ x + 3) (hfirst : ∀ v, x < v → v < y → GenEventIdGo.go busy ready v ≠ true) :
    r.Idle y := by
  by_contra hbusy
  obtain ⟨s, hsy, hs, hend⟩ := exists_transfer g hw.idle_zero hbusy
  have hgo : GenEventIdGo.go busy ready s = true := (hw.go s).symm.trans hs.2
  obtain ⟨x', hx', hxs, hsx⟩ := GenEventIdGo.exists_dead_time hand hgo
  unfold transferEnd at hend
  rcases Nat.lt_trichotomy x' x with hbefore | rfl | hafter
  · have hapart := hfar x' x hx' hx hbefore
    omega
  · exact hfirst s hxs hsy hgo
  · -- no dead time begins while this one lasts
    obtain ⟨v, rfl⟩ : ∃ v, x' = v + 1 := ⟨x' - 1, by omega⟩
    have hlow := (rises_succ.mp hx').2
    have hhigh := hand.lasts x hx (v - x) (by omega)
    rw [Nat.add_sub_cancel' (by omega), hlow] at hhigh
    exact absurd hhigh Bool.false_ne_true

/-- **One transmission for each dead time**, which starts within seven cycles. -/
lemma answered (hfar : FarApart R busy) : Answered (Rises busy) r.Starts 7 where
  apart x x' hx hx' hlt := by
    have hapart := hfar x x' hx hx' hlt
    omega
  answer x hx := by
    classical
    have hexists := GenEventIdGo.first_go hand hx
    obtain ⟨hxy, hyx, hgo⟩ := Nat.find_spec hexists
    refine ⟨Nat.find hexists, hxy, by omega,
      idle_of_first_go g hw hand hfar hx hxy hyx fun v hxv hv hgo => ?_, (hw.go _).trans hgo⟩
    exact Nat.find_min hexists hv ⟨hxv, by omega, hgo⟩
  once x y y' _ hxy hyx hxy' hyx' hy hy' := by
    have hR := g.two_le_ratio
    -- the later one would start while the transmission of the earlier one goes on
    have hnone : ∀ y y', x < y → y' ≤ x + 7 → r.Starts y → r.Starts y' → ¬ y < y' := by
      intro y y' hxy hyx' hy hy' hlt
      refine not_idle_of_transfer g hy hlt ?_ hy'.1
      unfold transferEnd
      omega
    have hle := hnone y y' hxy hyx' hy hy'
    have hge := hnone y' y hxy' hyx hy' hy
    omega
  only y hy := GenEventIdGo.exists_dead_time hand ((hw.go y).symm.trans hy.2)

/-- **The ids number the dead times.** -/
lemma sentId_of_rises (hfar : FarApart R busy) (hx : Rises busy x) (hy : r.Starts y)
    (hxy : x < y) (hyx : y ≤ x + 7) :
    r.sentId y = BitVec.ofNat 32 (Nat.count (Rises busy) x) := by
  rw [sentId_eq_count hw.start hw.noUpdate hy, (answered g hw hand hfar).count_eq hx hy hxy hyx]

end Wired

end TrackerFpga.EventId.Gen.Run
