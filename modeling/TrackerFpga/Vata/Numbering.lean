import TrackerFpga.Vata.Framing

/-!
# Event numbers under forced idles

`event_counter` counts packets: the state that sends the last word also raises
`inc_event_counter`.  The two come from different processes, and only the next-state process
looks at `force_fsm_idle` in that state.  A forced idle in `RO_WFIFO_18` therefore sends the
word with `data_tlast` and leaves the event counter as it was, so that the next packet carries
the same number (`numbered_iff`).
-/

namespace TrackerFpga.Vata

open Clocked

namespace Run

variable {r : Run} {a t u w : ℕ}

instance : DecidablePred r.Closes := fun _ => inferInstanceAs (Decidable (_ ∧ _))

/-- The port `event_counter` in cycle `t`. -/
def eventCounterAt (r : Run) (t : ℕ) : BitVec 32 := eventCounter (r.inp t) (r.regs t)

/-- The event number in the packet whose last word is sent in cycle `t`: its word `1`, sent
seventeen cycles before. -/
def eventNumber (r : Run) (t : ℕ) : BitVec 32 := (r.out (t - 17)).dataTdata

/-- Event numbers match the packets that were sent: the event counter is incremented by the words
with `data_tlast` and by nothing else, and two packets carry the same number only if the number
of packets from the one to the other is a multiple of `2 ^ 32`. -/
structure Numbered (r : Run) : Prop where
  counts : ∀ t, r.eventCounterAt (t + 1) =
    if r.Closes t then r.eventCounterAt t + 1#32 else r.eventCounterAt t
  distinct : ∀ t u, r.Closes t → r.Closes u →
    (r.eventNumber t = r.eventNumber u ↔
      Nat.count r.Closes t % 2 ^ 32 = Nat.count r.Closes u % 2 ^ 32)

/-! ## The words that close a packet -/

section Ready

variable (h0 : r.Idle 0) (hready : ∀ t, (r.inp t).dataTready = true)
include h0 hready

lemma closes_iff : r.Closes t ↔ r.phase t = .sending 18 := by
  constructor
  · intro h
    exact phase_of_tlast h0 h.1.1 h.2
  · intro h
    have hoffered : r.Offered t := (offered_iff h0).mpr ⟨18, h⟩
    exact ⟨⟨hoffered, hready t⟩, by rw [tlast_of_sending h]; rfl⟩

/-- The event counter counts the closing words that meet no forced idle. -/
lemma eventCounterAt_succ (hev : ∀ t, (r.inp t).eventCounterRst = false) (t : ℕ) :
    r.eventCounterAt (t + 1) =
      if r.Closes t ∧ (r.inp t).forceFsmIdle = false then r.eventCounterAt t + 1#32
      else r.eventCounterAt t := by
  have hport : ∀ u, r.eventCounterAt u = (r.regs u).ueventCounter := fun u => by
    simp [eventCounterAt, eventCounter, hev u]
  rw [hport, hport, ueventCounter_succ hev]
  simp only [closes_iff h0 hready]

omit h0 hready in
/-- If every closing word is counted, the event counter is the number of packets. -/
lemma eventCounterAt_eq_count (hr : r.FromReset)
    (hcounts : ∀ t, r.eventCounterAt (t + 1) =
      if r.Closes t then r.eventCounterAt t + 1#32 else r.eventCounterAt t) (t : ℕ) :
    r.eventCounterAt t = BitVec.ofNat 32 (Nat.count r.Closes t) := by
  induction t with
  | zero =>
      obtain ⟨edges, pl, hs⟩ := hr
      simp [eventCounterAt, eventCounter, hs, Regs.reset]
  | succ t ih =>
      rw [hcounts, ih, Nat.count_succ]
      split_ifs
      · rw [BitVec.ofNat_add]
      · rw [Nat.add_zero]

/-- No packet is closed between the acceptance of an acquisition and its own last word. -/
lemma count_closes_eq (hs : r.SendingSince a w 18) :
    Nat.count r.Closes (w + 18) = Nat.count r.Closes a := by
  refine invariant_between
    (P := fun v => Nat.count r.Closes v = Nat.count r.Closes a) rfl (fun v hv hvw ih => ?_)
    (hs.lt.le.trans (Nat.le_add_right w 18)) le_rfl
  have hopen : ¬ r.Closes v := by
    rw [closes_iff h0 hready]
    rcases Nat.eq_or_lt_of_le hv with rfl | hlt
    · simp [idle_iff.mp hs.accepts.1]
    · rcases Nat.lt_or_ge v w with hvw' | hge
      · simp [hs.acquiring v hlt hvw']
      · obtain ⟨j, rfl⟩ := Nat.exists_eq_add_of_le hge
        have hj : j ≠ 18 := by omega
        simp [hs.sending j (by omega), hj]
  rw [Nat.count_succ, if_neg hopen, Nat.add_zero, ih]

/-- A packet carries the value the event counter had when its acquisition was accepted. -/
lemma eventNumber_of_closes (ht : r.Closes t) :
    ∃ a, r.eventNumber t = r.eventCounterAt a ∧
      Nat.count r.Closes t = Nat.count r.Closes a := by
  obtain ⟨a, w, rfl, hs⟩ := exists_sendingSince h0 ((closes_iff h0 hready).mp ht)
  refine ⟨a, ?_, count_closes_eq h0 hready hs⟩
  obtain ⟨_, hout⟩ := out_of_sending (hs.sending 1 (by decide))
  have hidx : w + 18 - 17 = w + 1 := by omega
  have hword : r.eventNumber (w + 18) = (r.regs (w + 1)).header.eventNumber := by
    rw [eventNumber, hidx, hout, wfifoWord_eventNumber]
  rw [hword, header_sendingSince hs (by decide)]
  rfl

end Ready

/-- **Event numbering.**  In a run from reset whose receiver is always ready and whose event
counter is not reset, event numbers match the packets sent exactly when `force_fsm_idle` is low in
every cycle of `RO_WFIFO_18`. -/
theorem numbered_iff (hr : r.FromReset) (hready : ∀ t, (r.inp t).dataTready = true)
    (hev : ∀ t, (r.inp t).eventCounterRst = false) :
    r.Numbered ↔
      ∀ t, (r.regs t).currentState = .roWfifo 18 → (r.inp t).forceFsmIdle = false := by
  have h0 := hr.idle_zero
  have hstate : ∀ t, (r.regs t).currentState = .roWfifo 18 ↔ r.Closes t := fun t => by
    rw [closes_iff h0 hready]
    exact ⟨fun h => phase_eq_sending_iff.mpr ⟨by decide, h⟩,
      fun h => (phase_eq_sending_iff.mp h).2⟩
  simp only [hstate]
  constructor
  · intro h t ht
    by_contra hforce
    have hcounts := h.counts t
    rw [eventCounterAt_succ h0 hready hev, if_neg (fun hc => hforce hc.2), if_pos ht] at hcounts
    bv_omega
  · intro hcalm
    have hcounts : ∀ t, r.eventCounterAt (t + 1) =
        if r.Closes t then r.eventCounterAt t + 1#32 else r.eventCounterAt t := by
      intro t
      rw [eventCounterAt_succ h0 hready hev]
      by_cases ht : r.Closes t
      · rw [if_pos ⟨ht, hcalm t ht⟩, if_pos ht]
      · rw [if_neg (fun hc => ht hc.1), if_neg ht]
    have hnumber : ∀ t, r.Closes t →
        r.eventNumber t = BitVec.ofNat 32 (Nat.count r.Closes t) := by
      intro t ht
      obtain ⟨a, hnumber, hcount⟩ := eventNumber_of_closes h0 hready ht
      rw [hnumber, hcount, eventCounterAt_eq_count hr hcounts]
    refine ⟨hcounts, fun t u ht hu => ?_⟩
    rw [hnumber t ht, hnumber u hu, ← BitVec.toNat_inj, BitVec.toNat_ofNat, BitVec.toNat_ofNat]

/-- The packet of `singleEvent` is counted. -/
theorem singleEvent_numbered : singleEvent.Numbered :=
  (numbered_iff (fromReset_ofReset _) (fun _ => rfl) fun _ => rfl).mpr fun _ _ => rfl

/-- The event of `singleEvent`, with a forced idle in the cycle in which its last word is sent. -/
def lastWordForced : Run := ofReset fun t =>
  { singleEvent.inp t with forceFsmIdle := decide (t = 578) }

/-- The packet is closed in cycle `578`, and the event counter does not count it. -/
theorem lastWordForced_uncounted : ¬ ∀ r : Run, r.FromReset →
    (∀ t, (r.inp t).dataTready = true) → (∀ t, (r.inp t).eventCounterRst = false) →
    r.Numbered := by
  intro hclaim
  obtain ⟨hcloses, hcount⟩ : (lastWordForced.Sent 578 ∧
      (lastWordForced.out 578).dataTlast = true) ∧
      lastWordForced.eventCounterAt 579 ≠ lastWordForced.eventCounterAt 578 + 1#32 := by
    decide +kernel
  have hcounts := (hclaim lastWordForced (fromReset_ofReset _) (fun _ => rfl) fun _ => rfl).counts
    578
  exact hcount (hcounts.trans (if_pos hcloses))

end Run

end TrackerFpga.Vata
