import TrackerFpga.Vata.Phase

/-!
# The event id of a packet

`event_id_s2p` collects the id of the next event bit by bit and is cleared by a pulse that only
`RO_WFIFO_01` raises.  An acquisition that is stopped before that state leaves its id in the
register, and so do the bits that arrive between the clear and the end of a packet.  What is in
the register when an acquisition ends moves up with every bit that is latched later and is seen in
word 0 of the next packet unless it has been pushed out (`eventId_fresh`).
-/

namespace TrackerFpga.Vata

open SerialRegister Clocked

namespace EventIdS2p

variable {W : ℕ} {s : EventIdS2p W} {d l : Bool}

/-- An id bit is shifted in at the end of the cycle. -/
def latches (s : EventIdS2p W) : Bool := resyncEdge s.latchResync && !s.clears

lemma step_data_eq (s : EventIdS2p W) (d l c : Bool) :
    (s.step d l c).data =
      if s.clears then 0#W else if s.latches then s.data.shiftConcat d else s.data := by
  cases hclr : s.clears <;> simp_all [EventIdS2p.step, latches, clears]

/-- No clear is on its way through the resynchronisation. -/
structure Settled (s : EventIdS2p W) : Prop where
  notClearing : s.triggerEventIdClr = false
  notRisen : s.clrResync.getLsbD 1 = true → s.clrResync.getLsbD 2 = true
  notRising : s.clrResync.getLsbD 0 = true → s.clrResync.getLsbD 1 = true

lemma Settled.resyncEdge_eq (h : s.Settled) : resyncEdge s.clrResync = false := by
  have hrisen := h.notRisen
  unfold resyncEdge
  cases h1 : s.clrResync.getLsbD 1
  · rfl
  · simp [hrisen h1]

lemma Settled.step (h : s.Settled) : (s.step d l false).Settled where
  notClearing := h.resyncEdge_eq
  notRisen hbit := by
    simp only [EventIdS2p.step, BitVec.getLsbD_shiftConcat] at hbit ⊢
    simpa using h.notRising (by simpa using hbit)
  notRising hbit := by
    simp [EventIdS2p.step] at hbit

/-- Without a clear the register takes in the bits that are latched. -/
lemma Settled.step_data (h : s.Settled) :
    (s.step d l false).data = if s.latches then s.data.shiftConcat d else s.data := by
  have hclr : s.clears = false := by simp [clears, h.resyncEdge_eq, h.notClearing]
  simp [step_data_eq, hclr]

/-- A clear that is on its way comes at the end of this cycle or of the next one. -/
lemma clears_of_not_settled (h : ¬ s.Settled) :
    s.clears = true ∨ (s.step d l false).clears = true := by
  by_contra hno
  simp only [not_or, Bool.not_eq_true, clears, resyncEdge, EventIdS2p.step,
    BitVec.getLsbD_shiftConcat] at hno
  refine h ⟨?_, fun hrisen => ?_, fun hrising => ?_⟩ <;> simp_all

/-- Three cycles after the last `event_id_clr` no clear is on its way. -/
lemma settled_after_three (s : EventIdS2p W) {d' d'' l' l'' : Bool} :
    (((s.step d l false).step d' l' false).step d'' l'' false).Settled := by
  constructor <;> simp [EventIdS2p.step, resyncEdge]

/-- A register that a clear is on its way to and no bit is empty three cycles later. -/
lemma data_after_three (h : ¬ s.Settled) {d' d'' l' l'' : Bool}
    (h0 : s.latches = false) (h1 : (s.step d l false).latches = false)
    (h2 : ((s.step d l false).step d' l' false).latches = false) :
    (((s.step d l false).step d' l' false).step d'' l'' false).data = 0#W := by
  rw [step_data_eq, step_data_eq, step_data_eq, h0, h1, h2]
  rcases clears_of_not_settled (d := d) (l := l) h with hclr | hclr <;> simp [hclr]

end EventIdS2p

/-- The states in which the machine starts to bring the ASIC back to mode M3. -/
lemma setMode_of_end {i : Input} {s : Regs} (hactive : s.phase.Active)
    (hend : (step i s).phase = .returning) :
    (step i s).currentState = .roSetModeM3 ∨ (step i s).currentState = .abortSetModeM3 := by
  revert hactive hend
  simp only [Regs.phase, step_currentState]
  cases hs : s.currentState
  case roWfifo k =>
    simp only [control, hs, onForce]
    split_ifs <;> simp [State.phase]
  all_goals simp only [State.phase, Phase.Active, reduceCtorEq, exists_false, or_self,
    false_implies]
  all_goals
    simp only [control, hs, onForce, onAbort, onCount]
    split_ifs <;> simp

namespace Run

variable {r : Run} {a e f t u w k : ℕ}

/-- The registers of `event_id_s2p` in cycle `t`. -/
def eventId (r : Run) (t : ℕ) : EventIdS2p 32 := (r.regs t).eventIdS2p

lemma eventId_succ (h : r.phase t ≠ .sending 1) :
    r.eventId (t + 1) =
      (r.eventId t).step (r.inp t).eventIdData (r.inp t).eventIdLatch false := by
  have hclr : (outputs (r.inp t) (r.regs t)).eventIdClr = false :=
    Bool.eq_false_of_not_eq_true fun hc => h ((outputs_eventIdClr _ _).mp hc)
  rw [eventId, regs_succ, step_eventIdS2p, hclr]
  rfl

/-- The id bits latched from cycle `f` on and before cycle `t`. -/
def idBits (r : Run) (f t : ℕ) : List Bool :=
  sampled (fun u => (r.eventId u).latches) (fun u => (r.inp u).eventIdData) f t

lemma idBits_succ (hft : f ≤ t) :
    r.idBits f (t + 1) = if (r.eventId t).latches then r.idBits f t ++ [(r.inp t).eventIdData]
      else r.idBits f t := sampled_succ _ _ hft

/-- An acquisition ends in cycle `e`: its packet is written, or `abort_daq` or `force_fsm_idle`
stops it. -/
def Ends (r : Run) (e : ℕ) : Prop := (r.phase e).Active ∧ r.phase (e + 1) = .returning

/-- Cycle `f` is the first one after the end of the acquisition before the one accepted in cycle
`a`, or the first one of the run if there is none. -/
structure FreshFrom (r : Run) (f a : ℕ) : Prop where
  first : f = 0 ∨ ∃ e, f = e + 1 ∧ r.Ends e
  le : f ≤ a
  since : ∀ u, f ≤ u → u < a → ¬ r.Ends u

lemma exists_freshFrom (r : Run) (a : ℕ) : ∃ f, r.FreshFrom f a := by
  induction a with
  | zero => exact ⟨0, .inl rfl, le_rfl, by omega⟩
  | succ a ih =>
      by_cases hend : r.Ends a
      · exact ⟨a + 1, .inr ⟨a, rfl, hend⟩, le_rfl, by omega⟩
      · obtain ⟨f, hfirst, hle, hsince⟩ := ih
        refine ⟨f, hfirst, Nat.le_succ_of_le hle, fun u hu hua => ?_⟩
        rcases Nat.lt_succ_iff_lt_or_eq.mp hua with hlt | rfl
        · exact hsince u hu hlt
        · exact hend

/-- An acquisition that is under way and later is not has ended between. -/
lemma exists_ends (hu : (r.phase u).Active) (hut : u ≤ t) (ht : ¬ (r.phase t).Active) :
    ∃ e, u ≤ e ∧ e < t ∧ r.Ends e := by
  induction t, hut using Nat.le_induction with
  | base => exact absurd hu ht
  | succ t hut ih =>
      by_cases hactive : (r.phase t).Active
      · have hnext : (r.phase (t + 1)).Active ∨ r.phase (t + 1) = .returning :=
          step_of_active hactive
        exact ⟨t, hut, Nat.lt_succ_self t, hactive, hnext.resolve_left ht⟩
      · obtain ⟨e, hue, het, hend⟩ := ih hactive
        exact ⟨e, hue, Nat.lt_succ_of_lt het, hend⟩

/-- Nothing is sent between the end of an acquisition and the first word of the next one. -/
lemma FreshFrom.silent (hf : r.FreshFrom f a) (hs : r.SendingSince a w k) (hfu : f ≤ u)
    (huw : u < w) (j : ℕ) : r.phase u ≠ .sending j := by
  intro hu
  have hidle := idle_iff.mp hs.accepts.1
  rcases Nat.lt_trichotomy u a with hlt | rfl | hgt
  · obtain ⟨e, hue, hea, hend⟩ := exists_ends (.inr ⟨j, hu⟩) hlt.le
      (show ¬ (r.phase a).Active by simp [hidle, Phase.Active])
    exact hf.since e (by omega) hea hend
  · simp [hidle] at hu
  · simp [hs.acquiring u hgt huw] at hu

/-- While no clear comes, the register takes in the bits that are latched. -/
lemma eventId_eq_serialIn {x : BitVec 32} {c : ℕ} (hset : (r.eventId c).Settled)
    (hdata : (r.eventId c).data = serialIn x (r.idBits f c)) (hfc : f ≤ c)
    (hsilent : ∀ u, c ≤ u → u < t → r.phase u ≠ .sending 1) (hct : c ≤ t) :
    (r.eventId t).data = serialIn x (r.idBits f t) := by
  refine (invariant_between (P := fun u => (r.eventId u).Settled ∧
    (r.eventId u).data = serialIn x (r.idBits f u)) ⟨hset, hdata⟩ ?_ hct le_rfl).2
  rintro u hu hut ⟨hset', hdata'⟩
  rw [eventId_succ (hsilent u hu hut)]
  refine ⟨hset'.step, ?_⟩
  rw [hset'.step_data, hdata', idBits_succ (hfc.trans hu)]
  split_ifs
  · exact (serialIn_concat _ _ _).symm
  · rfl

/-- Word 0 of the packet sent from cycle `w` on holds the id bits latched from cycle `f` on, and
nothing else: it is `0` if there are none, and `X` if they are the 32 bits of `X`. -/
structure IdFresh (r : Run) (f w : ℕ) : Prop where
  word : (r.out w).dataTdata = serialIn 0#32 (r.idBits f w)
  noBits : r.idBits f w = [] → (r.out w).dataTdata = 0#32
  wholeId : ∀ X : BitVec 32, r.idBits f w = msbFirst X → (r.out w).dataTdata = X

lemma idFresh_iff : r.IdFresh f w ↔ (r.out w).dataTdata = serialIn 0#32 (r.idBits f w) := by
  refine ⟨fun h => h.word, fun hword => ⟨hword, fun hbits => ?_, fun X hbits => ?_⟩⟩
  · rw [hword, hbits, serialIn_nil]
  · rw [hword, hbits, serialIn_msbFirst]

lemma word_zero (hs : r.SendingSince a w k) : (r.out w).dataTdata = (r.eventId w).data := by
  obtain ⟨_, hout⟩ := out_of_sending (hs.sending 0 (Nat.zero_le k))
  rw [Nat.add_zero] at hout
  rw [hout]
  rfl

/-- If no clear is on its way when an acquisition ends, word 0 of the next packet is fresh exactly
when the bits that were in the register then have been pushed out. -/
lemma idFresh_iff_pushed_out (hs : r.SendingSince a w k) (hf : r.FreshFrom f a)
    (hset : (r.eventId f).Settled) :
    r.IdFresh f w ↔ (r.eventId f).data <<< (r.idBits f w).length = 0#32 := by
  have hdata := eventId_eq_serialIn (x := (r.eventId f).data) hset (by simp [idBits]) le_rfl
    (fun u hu huw => hf.silent hs hu huw 1) (hf.le.trans hs.lt.le)
  rw [idFresh_iff, word_zero hs, hdata]
  exact serialIn_eq_serialIn_zero_iff _ _

/-- The machine takes two cycles at least from the end of an acquisition to `IDLE`. -/
lemma Ends.returning_succ (h : r.Ends e) : r.phase (e + 2) = .returning := by
  obtain ⟨hactive, hend⟩ := h
  have hstate : (r.regs (e + 1)).currentState = .roSetModeM3 ∨
      (r.regs (e + 1)).currentState = .abortSetModeM3 :=
    setMode_of_end hactive hend
  have hnext : (r.regs (e + 2)).phase = .returning := by
    rw [regs_succ, Regs.phase, step_currentState]
    rcases hstate with hstate | hstate <;>
      simp only [control, hstate, onForce, onCount] <;> split_ifs <;> rfl
  exact hnext

/-- What an acquisition that ends in cycle `e` leaves in the register does not reach another
packet: there is nothing left, or a clear is on its way to it and meets no new bit. -/
structure LeavesNoId (r : Run) (e : ℕ) : Prop where
  empty : (r.eventId (e + 1)).Settled → eventIdOut (r.regs (e + 1)) = 0#32
  undisturbed : ¬ (r.eventId (e + 1)).Settled → r.idBits (e + 1) (e + 4) = []

/-- A clear that was on its way at the end of an acquisition, and met no new bit, has made room
for the next id. -/
lemma idFresh_of_not_settled (hs : r.SendingSince a w k) (hend : r.Ends e)
    (hf : r.FreshFrom (e + 1) a) (hset : ¬ (r.eventId (e + 1)).Settled)
    (hbits : r.idBits (e + 1) (e + 4) = []) : r.IdFresh (e + 1) w := by
  have haw := hs.lt
  have hea : e + 3 ≤ a := by
    have hidle := idle_iff.mp hs.accepts.1
    have hle := hf.le
    have h1 : a ≠ e + 1 := by
      rintro rfl
      simp [hend.2] at hidle
    have h2 : a ≠ e + 2 := by
      rintro rfl
      simp [hend.returning_succ] at hidle
    omega
  have hsilent : ∀ u, e + 1 ≤ u → u < w → r.phase u ≠ .sending 1 :=
    fun u hu huw => hf.silent hs hu huw 1
  have hno : ∀ u, e + 1 ≤ u → u < e + 4 → (r.eventId u).latches = false := by
    intro u hu hue
    by_contra hlatch
    have hmem : (r.inp u).eventIdData ∈ r.idBits (e + 1) (e + 4) :=
      mem_sampled hu hue (by simpa using hlatch)
    simp [hbits] at hmem
  have h2 := eventId_succ (hsilent (e + 1) le_rfl (by omega))
  have h3 := eventId_succ (hsilent (e + 2) (by omega) (by omega))
  have h4 := eventId_succ (hsilent (e + 3) (by omega) (by omega))
  have hlatch2 := hno (e + 2) (by omega) (by omega)
  have hlatch3 := hno (e + 3) (by omega) (by omega)
  rw [h2] at hlatch2
  rw [h3, h2] at hlatch3
  rw [h3, h2] at h4
  have hset4 : (r.eventId (e + 4)).Settled := h4 ▸ EventIdS2p.settled_after_three _
  have hdata4 : (r.eventId (e + 4)).data = 0#32 := by
    rw [h4]
    exact EventIdS2p.data_after_three hset (hno (e + 1) le_rfl (by omega)) hlatch2 hlatch3
  rw [idFresh_iff, word_zero hs]
  exact eventId_eq_serialIn hset4 (by rw [hdata4, hbits, serialIn_nil]) (by omega)
    (fun u hu huw => hsilent u (by omega) huw) (by omega)

/-- **Freshness of the event id.**  In a run from reset in which no acquisition leaves an id
behind, word 0 of every packet is fresh.  More exactly, where no clear is on its way when the
previous acquisition ends, word 0 is fresh exactly when the bits that were left in the register
have been pushed out by the bits latched since. -/
theorem eventId_fresh (hr : r.FromReset) :
    ((∀ e, r.Ends e → r.LeavesNoId e) →
        ∀ a w, r.SendingSince a w 0 → ∃ f, r.FreshFrom f a ∧ r.IdFresh f w) ∧
      ∀ a w f, r.SendingSince a w 0 → r.FreshFrom f a → (r.eventId f).Settled →
        (r.IdFresh f w ↔ eventIdOut (r.regs f) <<< (r.idBits f w).length = 0#32) := by
  refine ⟨fun hends a w hs => ?_, fun a w f hs hf hset => idFresh_iff_pushed_out hs hf hset⟩
  obtain ⟨f, hf⟩ := r.exists_freshFrom a
  refine ⟨f, hf, ?_⟩
  have hfresh : (r.eventId f).Settled → (r.eventId f).data = 0#32 → r.IdFresh f w := by
    intro hset hempty
    rw [idFresh_iff_pushed_out hs hf hset, hempty, BitVec.zero_shiftLeft]
  rcases hf.first with rfl | ⟨e, rfl, hend⟩
  · obtain ⟨edges, pl, hstart⟩ := hr
    have hreset : r.eventId 0 = .reset := by simp [eventId, hstart, Regs.reset]
    rw [hreset] at hfresh
    exact hfresh ⟨rfl, by decide, by decide⟩ rfl
  · by_cases hset : (r.eventId (e + 1)).Settled
    · exact hfresh hset ((hends e hend).empty hset)
    · exact idFresh_of_not_settled hs hend hf hset ((hends e hend).undisturbed hset)

/-- Two forced triggers with a packet each, and an id bit during each of the acquisitions. -/
def secondEvent : Run := ofReset fun t =>
  { Input.quiet with
    forceTrigger := decide (t = 0 ∨ t = 620), forceTriggerEna := true, vataO5 := true
    eventIdLatch := decide (t = 10 ∨ t = 700), eventIdData := true }

/-- What happens up to cycle `1240`: both packets leave, and both leave nothing in the register. -/
lemma secondEvent_course :
    ((∀ u < 1180, 620 < u → secondEvent.phase u = .acquiring) ∧
      secondEvent.phase 1180 = .sending 0 ∧ secondEvent.Accepts 620) ∧
    ((∀ u < 1240, secondEvent.phase (u + 1) = .returning →
        u = 578 ∨ u = 1198 ∨ secondEvent.phase u = .returning) ∧
      secondEvent.phase 578 = .sending 18 ∧ secondEvent.phase 579 = .returning ∧
      secondEvent.phase 1240 = .idle) ∧
    (∀ u < 1240, u = 579 ∨ u = 1199 → (secondEvent.eventId u).clrResync = 0#3 ∧
      (secondEvent.eventId u).triggerEventIdClr = false ∧ (secondEvent.eventId u).data = 0#32) ∧
    secondEvent.idBits 579 1180 = [true] := by
  decide +kernel

lemma secondEvent_idle {u : ℕ} (hu : 1240 ≤ u) : secondEvent.phase u = .idle := by
  induction u, hu using Nat.le_induction with
  | base => exact secondEvent_course.2.1.2.2.2
  | succ u hu ih =>
      have hstate : (secondEvent.regs u).currentState = .idle := idle_iff.mpr ih
      have hcalm : triggerAcq (secondEvent.inp u) (secondEvent.regs u) = false := by
        have hfirst : u ≠ 0 := by omega
        have hsecond : u ≠ 620 := by omega
        simp [triggerAcq, secondEvent, ofReset, Input.quiet, hfirst, hsecond]
      have hset : (secondEvent.inp u).setConfig = false := rfl
      have hget : (secondEvent.inp u).getConfig = false := rfl
      rw [phase, phase_eq_idle_iff, regs_succ, step_currentState]
      simp [control, hstate, hcalm, hset, hget]

/-- Its acquisitions end with the last words of their packets. -/
lemma secondEvent_ends {e : ℕ} (he : secondEvent.Ends e) : e = 578 ∨ e = 1198 := by
  obtain ⟨hactive, hnext⟩ := he
  rcases Nat.lt_or_ge e 1240 with hlt | hge
  · rcases secondEvent_course.2.1.1 e hlt hnext with h | h | h
    · exact .inl h
    · exact .inr h
    · simp [h, Phase.Active] at hactive
  · simp [secondEvent_idle hge, Phase.Active] at hactive

lemma secondEvent_leavesNoId {e : ℕ} (he : secondEvent.Ends e) : secondEvent.LeavesNoId e := by
  have hend : e + 1 < 1240 ∧ (e + 1 = 579 ∨ e + 1 = 1199) := by
    rcases secondEvent_ends he with rfl | rfl <;> decide
  obtain ⟨hresync, hclear, hempty⟩ := secondEvent_course.2.2.1 (e + 1) hend.1 hend.2
  have hset : (secondEvent.eventId (e + 1)).Settled :=
    ⟨hclear, by simp [hresync], by simp [hresync]⟩
  exact ⟨fun _ => hempty, fun hno => absurd hset hno⟩

/-- Word 0 of the second packet holds the one bit that was latched since the first one ended. -/
theorem secondEvent_idFresh :
    secondEvent.IdFresh 579 1180 ∧ secondEvent.idBits 579 1180 = [true] := by
  obtain ⟨⟨hacquiring, hsecond, haccepts⟩, ⟨-, hlast, hreturning, -⟩, -, hbits⟩ :=
    secondEvent_course
  obtain ⟨f, hf, hfresh⟩ := (eventId_fresh (fromReset_ofReset _)).1
    (fun _ => secondEvent_leavesNoId) 620 1180
    (.of_first haccepts (by decide) (fun u hu huw => hacquiring u huw hu) hsecond)
  have hfirst : secondEvent.Ends 578 := ⟨.inr ⟨18, hlast⟩, hreturning⟩
  have heq : f = 579 := by
    rcases hf.first with rfl | ⟨e, rfl, he⟩
    · exact absurd hfirst (hf.since 578 (Nat.zero_le _) (by decide))
    · have hle := hf.le
      rcases secondEvent_ends he with rfl | rfl
      · rfl
      · omega
  rw [heq] at hfresh
  exact ⟨hfresh, hbits⟩

/-- An event that is aborted by a timeout of one cycle, with one id bit, and a second event that
is acknowledged in time and has no id bit. -/
def idOfAborted : Run := ofReset fun t =>
  { Input.quiet with
    forceTrigger := decide (t = 0 ∨ t = 30), forceTriggerEna := true, vataO5 := true,
    triggerAck := decide (t = 31), triggerAckTimeout := 1#32, eventIdLatch := decide (t = 0),
    eventIdData := true }

/-- Word 0 of the second packet is not `0`, although no bit was latched since the first event was
aborted: whatever word 0 is a function of, it is not the bits latched since then alone. -/
theorem idOfAborted_stale : ¬ ∃ φ : List Bool → BitVec 32, φ [] = 0#32 ∧
    (∀ X : BitVec 32, φ (msbFirst X) = X) ∧
      ∀ r : Run, r.FromReset → ∀ a w f, r.SendingSince a w 0 → r.FreshFrom f a →
        (r.out w).dataTdata = φ (r.idBits f w) := by
  rintro ⟨φ, hempty, -, hclaim⟩
  obtain ⟨hacquiring, hfirst, hquiet, hbits, hstale⟩ :
      (∀ u < 590, 30 < u → idOfAborted.phase u = .acquiring) ∧
      idOfAborted.phase 590 = .sending 0 ∧
      (∀ u < 30, 4 ≤ u → idOfAborted.phase u = .returning ∨ idOfAborted.phase u = .idle) ∧
      idOfAborted.idBits 4 590 = [] ∧ (idOfAborted.out 590).dataTdata ≠ 0#32 := by
    decide +kernel
  have hword := hclaim idOfAborted (fromReset_ofReset _) 30 590 4
    (.of_first (by decide +kernel) (by decide) (fun u hu huw => hacquiring u huw hu) hfirst)
    ⟨.inr ⟨3, rfl, .inl (by decide +kernel), by decide +kernel⟩, by decide, fun u hu hua hend => by
      have hphase := hquiet u hua hu
      rcases hend.1 with h | ⟨k, h⟩ <;> simp [h] at hphase⟩
  rw [hbits, hempty] at hword
  exact hstale hword

end Run

end TrackerFpga.Vata
