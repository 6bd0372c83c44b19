import TrackerFpga.EventId.RoundTrip

/-!
# `event_id_gen`

The core holds the id that the sender transmits next.  Software sets it with `update_event_id`, and
the end of a transmission increments it; where both come in the same cycle the update wins.  An
update in an earlier cycle of a transmission is incremented by its end, so that the next id is not
the one that was set: this happens exactly where the sender is not idle in the cycle after the
update (`exactUpdates_iff`).
-/

namespace TrackerFpga.EventId.Gen

open Clocked Vata

/-- The registers of the core: `event_id`, and its sender. -/
structure Regs where
  eventId : BitVec 32
  p2s : P2s 32
  deriving DecidableEq, Repr

/-- The registers under `s00_axi_aresetn = '0'`. -/
def Regs.reset : Regs := { eventId := 0#32, p2s := .reset }

/-- The inputs of a cycle: the go, and the two outputs of the register file. -/
structure Input where
  eventIdGo : Bool
  updateEventId : Bool
  newEventId : BitVec 32
  deriving DecidableEq, Repr

/-- One clock cycle, with `EVENT_ID_CLK_RATIO = R`. -/
def step (R : ℕ) (i : Input) (s : Regs) : Regs where
  eventId :=
    if i.updateEventId then i.newEventId
    else if (s.p2s.control R i.eventIdGo).incEventId then s.eventId + 1#32
    else s.eventId
  p2s := s.p2s.step R i.eventIdGo s.eventId

/-- A run of the core. -/
structure Run (R : ℕ) where
  start : Regs
  inp : ℕ → Input

namespace Run

variable {R : ℕ} {r : Run R} {s t u v : ℕ}

/-- The registers in cycle `t`. -/
def regs (r : Run R) (t : ℕ) : Regs := run (step R) r.start r.inp t

/-- `event_id` in cycle `t`. -/
def eventId (r : Run R) (t : ℕ) : BitVec 32 := (r.regs t).eventId

/-- The sender waits for a go in cycle `t`. -/
def Idle (r : Run R) (t : ℕ) : Prop := (r.regs t).p2s.currentState = .idle

instance : DecidablePred r.Idle := fun _ => inferInstanceAs (Decidable (_ = _))

/-- `inc_event_id` in cycle `t`. -/
def incEventId (r : Run R) (t : ℕ) : Bool :=
  ((r.regs t).p2s.control R (r.inp t).eventIdGo).incEventId

/-- A transmission starts in cycle `t`. -/
def Starts (r : Run R) (t : ℕ) : Prop := r.Idle t ∧ (r.inp t).eventIdGo = true

/-- The id of the transmission that starts in cycle `t`: what the sender takes over. -/
def sentId (r : Run R) (t : ℕ) : BitVec 32 := (r.regs (t + 1)).p2s.data

/-- Software sets the id in cycle `t`. -/
def Updates (r : Run R) (t : ℕ) : Prop := (r.inp t).updateEventId = true

/-- The first transmission that starts after cycle `t` starts in cycle `s`. -/
structure NextStart (r : Run R) (t s : ℕ) : Prop where
  after : t < s
  starts : r.Starts s
  first : ∀ v, t < v → v < s → ¬ r.Starts v

/-- In cycle `t` the sender waits without a go, or sends its last bit for the last cycle. -/
def Free (r : Run R) (t : ℕ) : Prop :=
  r.Idle t ∧ (r.inp t).eventIdGo = false ∨ r.incEventId t = true

/-- The next id after an update is the one that was set, and without an update the ids of two
consecutive transmissions differ by `1`. -/
structure ExactUpdates (r : Run R) : Prop where
  updated : ∀ u s, r.Updates u → r.NextStart u s → (∀ v, u < v → v < s → ¬ r.Updates v) →
    r.sentId s = (r.inp u).newEventId
  consecutive : ∀ t s, r.Starts t → r.NextStart t s → (∀ v, t ≤ v → v < s → ¬ r.Updates v) →
    r.sentId s = r.sentId t + 1#32

lemma regs_succ (t : ℕ) : r.regs (t + 1) = step R (r.inp t) (r.regs t) := run_succ ..

/-! ## One cycle -/

lemma eventId_of_updates (h : r.Updates t) : r.eventId (t + 1) = (r.inp t).newEventId := by
  unfold Updates at h
  rw [eventId, regs_succ]
  simp [step, h]

lemma eventId_of_not_updates (h : ¬ r.Updates t) : r.eventId (t + 1) =
    if r.incEventId t then r.eventId t + 1#32 else r.eventId t := by
  unfold Updates at h
  rw [eventId, regs_succ, step, if_neg h]
  rfl

/-- The sender is idle in the next cycle exactly where it is free. -/
lemma idle_succ_iff : r.Idle (t + 1) ↔ r.Free t := by
  have hnext : r.Idle (t + 1) ↔
      ((r.regs t).p2s.control R (r.inp t).eventIdGo).nextState = .idle := by
    rw [Idle, regs_succ]
    rfl
  rw [hnext, Free, incEventId, Idle, P2s.control]
  cases (r.regs t).p2s.currentState with
  | idle => cases (r.inp t).eventIdGo <;> simp
  | latchHi =>
      dsimp only
      split_ifs <;> simp
  | latchLo =>
      dsimp only
      split_ifs <;> simp

lemma incEventId_of_idle (h : r.Idle t) : r.incEventId t = false := by
  unfold Idle at h
  rw [incEventId, P2s.control, h]
  cases (r.inp t).eventIdGo <;> rfl

/-- The sender takes over the id that is there in the cycle of the start. -/
lemma sentId_of_starts (h : r.Starts t) : r.sentId t = r.eventId t := by
  obtain ⟨hidle, hgo⟩ := h
  unfold Idle at hidle
  rw [sentId, regs_succ]
  simp [step, P2s.step, P2s.control, hidle, hgo, eventId]

lemma not_idle_of_starts (h : r.Starts t) : ¬ r.Idle (t + 1) := by
  rw [idle_succ_iff, Free, incEventId_of_idle h.1, h.2]
  simp

/-! ## Up to the next start -/

/-- Without an update and without a start, the id waits while the sender is idle. -/
lemma eventId_of_idle (hts : t ≤ s) (hidle : r.Idle t)
    (hnone : ∀ v, t ≤ v → v < s → ¬ r.Starts v ∧ ¬ r.Updates v) :
    r.Idle s ∧ r.eventId s = r.eventId t := by
  refine invariant_between (P := fun x => r.Idle x ∧ r.eventId x = r.eventId t) (b := s)
    ⟨hidle, rfl⟩ ?_ hts le_rfl
  rintro v htv hvs ⟨hv, hid⟩
  obtain ⟨hstart, hupdate⟩ := hnone v htv hvs
  have hgo : (r.inp v).eventIdGo = false := by
    rw [← Bool.not_eq_true]
    exact fun hgo => hstart ⟨hv, hgo⟩
  refine ⟨idle_succ_iff.mpr (.inl ⟨hv, hgo⟩), ?_⟩
  rw [eventId_of_not_updates hupdate, incEventId_of_idle hv, hid]
  rfl

/-- A transmission that goes on in cycle `t` increments the id once before the next start. -/
lemma eventId_of_busy (hts : t ≤ s) (hbusy : ¬ r.Idle t) (hs : r.Idle s)
    (hnone : ∀ v, t ≤ v → v < s → ¬ r.Starts v ∧ ¬ r.Updates v) :
    r.eventId s = r.eventId t + 1#32 := by
  have hplace : ¬ r.Idle s ∧ r.eventId s = r.eventId t ∨
      r.Idle s ∧ r.eventId s = r.eventId t + 1#32 := by
    refine invariant_between
      (P := fun x => ¬ r.Idle x ∧ r.eventId x = r.eventId t ∨
        r.Idle x ∧ r.eventId x = r.eventId t + 1#32) (b := s) (.inl ⟨hbusy, rfl⟩) ?_ hts le_rfl
    intro v htv hvs hv
    obtain ⟨hstart, hupdate⟩ := hnone v htv hvs
    rcases hv with ⟨hv, hid⟩ | ⟨hv, hid⟩
    · have hid' := eventId_of_not_updates hupdate
      by_cases hinc : r.incEventId v = true
      · rw [if_pos hinc, hid] at hid'
        exact .inr ⟨idle_succ_iff.mpr (.inr hinc), hid'⟩
      · rw [if_neg hinc, hid] at hid'
        refine .inl ⟨fun hnext => ?_, hid'⟩
        exact hinc ((idle_succ_iff.mp hnext).resolve_left fun hwait => hv hwait.1)
    · obtain ⟨hnext, hid'⟩ := eventId_of_idle (Nat.le_succ v) hv fun x hvx hx => by
        obtain rfl : x = v := by omega
        exact ⟨hstart, hupdate⟩
      exact .inr ⟨hnext, hid'.trans hid⟩
  exact (hplace.resolve_left fun hno => hno.1 hs).2

/-- Two consecutive ids differ by `1`. -/
lemma sentId_consecutive (ht : r.Starts t) (hs : r.NextStart t s)
    (hnone : ∀ v, t ≤ v → v < s → ¬ r.Updates v) : r.sentId s = r.sentId t + 1#32 := by
  have hquiet := hnone t le_rfl hs.after
  have hfirst := eventId_of_not_updates hquiet
  rw [incEventId_of_idle ht.1] at hfirst
  have hlast := eventId_of_busy hs.after (not_idle_of_starts ht) hs.starts.1
    fun v hv hvs => ⟨hs.first v hv hvs, hnone v (by omega) hvs⟩
  rw [sentId_of_starts ht, sentId_of_starts hs.starts, hlast, hfirst]
  rfl

section Updates

variable (hu : r.Updates u) (hs : r.NextStart u s) (hnone : ∀ v, u < v → v < s → ¬ r.Updates v)
include hu hs hnone

/-- An update that finds the sender free sets the next id. -/
lemma sentId_of_free (hfree : r.Free u) : r.sentId s = (r.inp u).newEventId := by
  have hlast := eventId_of_idle hs.after (idle_succ_iff.mpr hfree)
    fun v hv hvs => ⟨hs.first v hv hvs, hnone v hv hvs⟩
  rw [sentId_of_starts hs.starts, hlast.2, eventId_of_updates hu]

/-- An update during a transmission is incremented by its end. -/
lemma sentId_of_not_free (hfree : ¬ r.Free u) :
    r.sentId s = (r.inp u).newEventId + 1#32 := by
  have hlast := eventId_of_busy hs.after (mt idle_succ_iff.mp hfree) hs.starts.1
    fun v hv hvs => ⟨hs.first v hv hvs, hnone v hv hvs⟩
  rw [sentId_of_starts hs.starts, hlast, eventId_of_updates hu]

end Updates

/-- **Updates of the event id.**  They are exact in a run exactly when the sender is free in the
cycle of every update that a transmission follows before the next update. -/
theorem exactUpdates_iff (r : Run R) : r.ExactUpdates ↔
    ∀ u s, r.Updates u → r.NextStart u s → (∀ v, u < v → v < s → ¬ r.Updates v) → r.Free u := by
  constructor
  · intro hexact u s hu hs hnone
    by_contra hfree
    have hsame := (sentId_of_not_free hu hs hnone hfree).symm.trans
      (hexact.updated u s hu hs hnone)
    bv_omega
  · intro hall
    exact ⟨fun u s hu hs hnone => sentId_of_free hu hs hnone (hall u s hu hs hnone),
      fun t s ht hs hnone => sentId_consecutive ht hs hnone⟩

/-! ## The link behind the core -/

/-- The core with a receiver that holds `s2p` at the start and is cleared by `clr`. -/
def link (r : Run R) (s2p : EventIdS2p 32) (clr : ℕ → Bool) : EventId.Run 32 R where
  start := { p2s := r.start.p2s, s2p := s2p }
  inp t := { eventIdGo := (r.inp t).eventIdGo, eventIdIn := r.eventId t, eventIdClr := clr t }

variable {s2p : EventIdS2p 32} {clr : ℕ → Bool}

lemma link_p2s (t : ℕ) : ((r.link s2p clr).regs t).p2s = (r.regs t).p2s := by
  induction t with
  | zero => rfl
  | succ t ih =>
      rw [EventId.Run.regs_succ, regs_succ]
      simp only [EventId.step, step, ih]
      rfl

/-- The receiver ends a transmission with the id that was sent. -/
lemma link_eventIdOut (g : EventId.Run.Generics 32 R)
    (h : (r.link s2p clr).Starts t) :
    (r.link s2p clr).eventIdOut (EventId.Run.transferEnd 32 R t) = r.sentId t := by
  have hidle : r.Idle t := by
    have hidle := h.idle
    rwa [EventId.Run.Idle, link_p2s] at hidle
  rw [EventId.Run.eventIdOut_transferEnd g h, sentId_of_starts ⟨hidle, h.go⟩]
  rfl

/-- A receiver that nobody clears. -/
lemma link_not_cleared (t : ℕ) : ¬ (r.link .reset fun _ => false).Cleared t := by
  have hclr : ((r.link .reset fun _ => false).regs t).s2p.clrResync = 0#3 ∧
      ((r.link .reset fun _ => false).regs t).s2p.triggerEventIdClr = false := by
    induction t with
    | zero => exact ⟨rfl, rfl⟩
    | succ t ih =>
        rw [EventId.Run.regs_succ]
        simp only [EventId.step, EventIdS2p.step, ih.1]
        exact ⟨show (0#3).shiftConcat false = 0#3 by decide, rfl⟩
  rw [EventId.Run.Cleared, hclr.2]
  exact Bool.false_ne_true

/-- Each transmission ends. -/
lemma idle_transferEnd (g : EventId.Run.Generics 32 R) (h : r.Starts t) :
    r.Idle (EventId.Run.transferEnd 32 R t) := by
  have hstarts : (r.link .reset fun _ => false).Starts t := by
    refine ⟨?_, h.2, fun u _ _ => link_not_cleared u⟩
    rw [EventId.Run.Idle, link_p2s]
    exact h.1
  have hend := EventId.Run.idle_transferEnd g hstarts
  rwa [EventId.Run.Idle, link_p2s] at hend

/-! ## An update during a transmission -/

/-- Two transmissions are started with pulses of one cycle, in the cycles `10` and `1010`; software
sets the id to `100` in cycle `20`, while the first one goes on. -/
def earlyUpdate : Run 10 where
  start := .reset
  inp t :=
    { eventIdGo := decide (t = 10 ∨ t = 1010)
      updateEventId := decide (t = 20)
      newEventId := 100#32 }

/-- The second transmission is the next one after the update. -/
lemma earlyUpdate_nextStart : earlyUpdate.NextStart 20 1010 := by
  have hend : earlyUpdate.Idle (EventId.Run.transferEnd 32 10 10) :=
    idle_transferEnd ⟨by decide, by decide, by decide, by decide⟩ ⟨by decide, rfl⟩
  have hpulse : ∀ v, 20 < v → v < 1010 → ¬ earlyUpdate.Starts v := by
    rintro v hv hvs ⟨-, hgo⟩
    have hwhen : v = 10 ∨ v = 1010 := of_decide_eq_true hgo
    omega
  have hidle := eventId_of_idle (s := 1010) (by decide) hend fun v hv hvs => by
    have hafter : 20 < v := lt_of_lt_of_le (by decide) hv
    exact ⟨hpulse v hafter hvs, fun hupdate => hafter.ne' (of_decide_eq_true hupdate)⟩
  exact ⟨by decide, ⟨hidle.1, rfl⟩, hpulse⟩

/-- Its id is `101`, not `100`. -/
theorem earlyUpdate_not_exact : ¬ earlyUpdate.ExactUpdates := by
  intro hexact
  have hupdate : earlyUpdate.Updates 20 := rfl
  have hnone : ∀ v, 20 < v → v < 1010 → ¬ earlyUpdate.Updates v := by
    intro v hv _ hupdates
    have heq : v = 20 := of_decide_eq_true hupdates
    omega
  have hbusy : ¬ earlyUpdate.Free 20 := by
    rw [← idle_succ_iff]
    exact fun hidle => absurd hidle (by decide)
  have hsent := sentId_of_not_free hupdate earlyUpdate_nextStart hnone hbusy
  have hexactId := hexact.updated 20 1010 hupdate earlyUpdate_nextStart hnone
  exact absurd (hsent.symm.trans hexactId) (by decide)

end Run

end TrackerFpga.EventId.Gen
