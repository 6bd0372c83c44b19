import TrackerFpga.Vata.Phase

/-!
# The packets the interface sends

While `force_fsm_idle` stays low, the words on the stream are packets of nineteen words, one for
each acquisition that was not aborted, and the header of a packet describes the cycle in which
its acquisition was accepted.

The header registers are written in that cycle and nowhere else (`header_step`), so they still
hold its data when the packet is sent (`header_sendingSince`).  The position of a word in its
packet and the number of the packet are read off the number of words sent before
(`packet_position`): the invariant ties that number to the phase and to the event counter.
-/

namespace TrackerFpga.Vata

open Clocked

/-! ## The latched header -/

/-- The packet header: what the falling-edge process saves when `set_pkt_data` is high. -/
structure Header where
  running : BitVec 64
  live : BitVec 64
  eventNumber : BitVec 32
  triggers : BitVec 16

/-- The header that is being latched in a cycle. -/
def headerOf (i : Input) (s : Regs) : Header where
  running := i.runningCounter
  live := liveCounter i s
  eventNumber := eventCounter i s
  triggers := eventTriggers i s

/-- The header registers. -/
def Regs.header (s : Regs) : Header where
  running := s.pktRunningCounter
  live := s.pktLiveCounter
  eventNumber := s.pktEventCounter
  triggers := s.pktEventTriggers

section HeaderWords

variable (s : Regs)

lemma wfifoWord_eventNumber (h : 1 < 19) : wfifoWord s ⟨1, h⟩ = s.header.eventNumber := rfl

lemma wfifoWord_triggers (h : 2 < 19) : wfifoWord s ⟨2, h⟩ = s.header.triggers.setWidth 32 := rfl

lemma wfifoWord_runningLo (h : 3 < 19) :
    wfifoWord s ⟨3, h⟩ = s.header.running.extractLsb' 0 32 := rfl

lemma wfifoWord_runningHi (h : 4 < 19) :
    wfifoWord s ⟨4, h⟩ = s.header.running.extractLsb' 32 32 := rfl

lemma wfifoWord_liveLo (h : 5 < 19) : wfifoWord s ⟨5, h⟩ = s.header.live.extractLsb' 0 32 := rfl

lemma wfifoWord_liveHi (h : 6 < 19) : wfifoWord s ⟨6, h⟩ = s.header.live.extractLsb' 32 32 := rfl

end HeaderWords

/-- The header registers change only when an acquisition is accepted. -/
lemma header_step (i : Input) (s : Regs) :
    (step i s).header =
      if s.currentState = .idle ∧ triggerAcq i s = true then headerOf i s else s.header := by
  have hstrobe := control_setPktData i s
  by_cases h : s.currentState = .idle ∧ triggerAcq i s = true
  · rw [decide_eq_true h.1, h.2] at hstrobe
    simp [Regs.header, headerOf, step, hstrobe, h]
  · have hlow : (control i s).setPktData = false := by
      rw [hstrobe]
      simpa [not_and] using h
    simp [Regs.header, step, hlow, h]

namespace Run

variable {r : Run} {a t w k : ℕ}

lemma header_succ_of_not_idle (h : ¬ r.Idle t) : (r.regs (t + 1)).header = (r.regs t).header := by
  rw [regs_succ, header_step, if_neg (fun hc => h hc.1)]

/-- From the cycle after the acceptance on, up to the next `IDLE`, the header registers describe
the cycle of the acceptance. -/
lemma header_eq_of_accepts (ha : r.Accepts a) (hat : a < t)
    (hbusy : ∀ u, a < u → u < t → ¬ r.Idle u) :
    (r.regs t).header = headerOf (r.inp a) (r.regs a) := by
  refine invariant_between (P := fun u => (r.regs u).header = headerOf (r.inp a) (r.regs a))
    (a := a + 1) ?_ (fun u hu hut ih => ?_) hat le_rfl
  · rw [regs_succ, header_step, if_pos ⟨ha.1, ha.2⟩]
  · rw [header_succ_of_not_idle (hbusy u hu hut), ih]

lemma header_sendingSince (h : r.SendingSince a w k) {j : ℕ} (hj : j ≤ k) :
    (r.regs (w + j)).header = headerOf (r.inp a) (r.regs a) :=
  header_eq_of_accepts h.accepts (lt_of_lt_of_le h.lt (Nat.le_add_right w j))
    fun _ hu hut => h.not_idle hu (by omega)

/-! ## The counters -/

/-- The live counter counts the `IDLE` cycles. -/
lemma uliveCounter_eq (hr : r.FromReset) (hcnt : ∀ t, (r.inp t).counterRst = false) (t : ℕ) :
    (r.regs t).uliveCounter = BitVec.ofNat 64 (Nat.count r.Idle t) := by
  induction t with
  | zero =>
      obtain ⟨edges, pl, hs⟩ := hr
      simp [hs, Regs.reset]
  | succ t ih =>
      rw [regs_succ, step_uliveCounter, hcnt, ih, Nat.count_succ]
      by_cases hidle : r.Idle t
      · have hstate : (r.regs t).currentState = .idle := hidle
        simp [hidle, hstate, BitVec.ofNat_add]
      · have hstate : (r.regs t).currentState ≠ .idle := hidle
        simp [hidle, hstate]

/-- The event counter counts the last words that are not forced away. -/
lemma ueventCounter_succ (hev : ∀ t, (r.inp t).eventCounterRst = false) (t : ℕ) :
    (r.regs (t + 1)).ueventCounter =
      if r.phase t = .sending 18 ∧ (r.inp t).forceFsmIdle = false then
        (r.regs t).ueventCounter + 1#32
      else (r.regs t).ueventCounter := by
  have hphase : r.phase t = .sending 18 ↔ (r.regs t).currentState = .roWfifo 18 := by
    refine phase_eq_sending_iff.trans ⟨fun ⟨_, h⟩ => h, fun h => ⟨by decide, h⟩⟩
  rw [regs_succ, step_ueventCounter, control_incEventCounter]
  simp only [hev, hphase, Bool.false_eq_true, if_false, Bool.and_eq_true, decide_eq_true_eq,
    Bool.not_eq_true']

lemma ueventCounter_eq_of_silent (hev : ∀ t, (r.inp t).eventCounterRst = false) (hat : a ≤ t)
    (hsilent : ∀ u, a ≤ u → u < t → r.phase u ≠ .sending 18) :
    (r.regs t).ueventCounter = (r.regs a).ueventCounter := by
  refine invariant_between (P := fun u => (r.regs u).ueventCounter = (r.regs a).ueventCounter)
    rfl (fun u hu hut ih => ?_) hat le_rfl
  rw [ueventCounter_succ hev, if_neg (fun hc => hsilent u hu hut hc.1), ih]

/-! ## Position of a word -/

lemma offered_iff (h0 : r.Idle 0) : r.Offered t ↔ ∃ k, r.phase t = .sending k := dataTvalid_iff h0

lemma sent_iff_offered (hready : r.Offered t → (r.inp t).dataTready = true) :
    r.Sent t ↔ r.Offered t := and_iff_left_of_imp hready

/-- Where the receiver is ready for every word, the words offered are the words sent. -/
lemma count_sent_eq (hready : ∀ u < t, r.Offered u → (r.inp u).dataTready = true) :
    Nat.count r.Sent t = Nat.count r.Offered t := by
  induction t with
  | zero => simp
  | succ t ih =>
      rw [Nat.count_succ, Nat.count_succ, ih fun u hu => hready u (Nat.lt_succ_of_lt hu)]
      simp only [sent_iff_offered (hready t (Nat.lt_succ_self t))]

/-- **The framing invariant.**  Without a forced idle, the words offered before a word on offer
are whole packets and the words of its own packet before it; outside the sending phases they are
whole packets.  The event counter is the number of these whole packets. -/
lemma packet_position (hr : r.FromReset) (hforce : ∀ t, (r.inp t).forceFsmIdle = false) (t : ℕ) :
    ∃ n, ((∀ u, (r.inp u).eventCounterRst = false) →
        (r.regs t).ueventCounter = BitVec.ofNat 32 n) ∧
      ((∃ k, r.phase t = .sending k ∧ Nat.count r.Offered t = 19 * n + k) ∨
        (∀ k, r.phase t ≠ .sending k) ∧ Nat.count r.Offered t = 19 * n) := by
  induction t with
  | zero =>
      have hidle := idle_iff.mp hr.idle_zero
      obtain ⟨edges, pl, hs⟩ := hr
      refine ⟨0, fun _ => by simp [hs, Regs.reset], .inr ⟨by simp [hidle], by simp⟩⟩
  | succ t ih =>
      obtain ⟨n, hn, hpos⟩ := ih
      have hoffered := offered_iff hr.idle_zero (t := t)
      rcases hpos with ⟨k, hk, hcount⟩ | ⟨hno, hcount⟩
      · have hcount' : Nat.count r.Offered (t + 1) = 19 * n + k + 1 := by
          rw [Nat.count_succ, if_pos (hoffered.mpr ⟨k, hk⟩), hcount]
        obtain ⟨hk19, -⟩ := phase_eq_sending_iff.mp hk
        rcases Nat.lt_or_ge k 18 with hlt | hge
        · -- the packet goes on
          refine ⟨n, fun hev => ?_, .inl ⟨k + 1, step_of_sending hk hlt (hforce t), hcount'⟩⟩
          rw [ueventCounter_succ hev, if_neg, hn hev]
          simp [hk]
          omega
        · -- the last word: the packet is complete and the event counter counts it
          obtain rfl : k = 18 := by omega
          have hnext : r.phase (t + 1) = .returning := step_of_sending_last hk
          refine ⟨n + 1, fun hev => ?_, .inr ⟨by simp [hnext], by omega⟩⟩
          rw [ueventCounter_succ hev, if_pos ⟨hk, hforce t⟩, hn hev, BitVec.ofNat_add]
      · have hcount' : Nat.count r.Offered (t + 1) = 19 * n := by
          have hnot : ¬ r.Offered t := fun hs => (hoffered.mp hs).elim hno
          rw [Nat.count_succ, if_neg hnot, hcount, Nat.add_zero]
        refine ⟨n, fun hev => ?_, ?_⟩
        · rw [ueventCounter_succ hev, if_neg (fun hc => hno 18 hc.1), hn hev]
        by_cases hnext : ∃ k, r.phase (t + 1) = .sending k
        · -- only the first word follows a phase that sends nothing
          obtain ⟨k, hk⟩ := hnext
          cases k with
          | zero => exact .inl ⟨0, hk, hcount'⟩
          | succ k => exact absurd (sending_succ_of_step hk).1 (hno k)
        · exact .inr ⟨fun k hk => hnext ⟨k, hk⟩, hcount'⟩

/-- Word `k` of a packet on offer stands `k` places after a multiple of nineteen. -/
lemma count_offered_of_sending (hr : r.FromReset)
    (hforce : ∀ t, (r.inp t).forceFsmIdle = false) (h : r.phase t = .sending k) :
    ∃ n, ((∀ u, (r.inp u).eventCounterRst = false) →
        (r.regs t).ueventCounter = BitVec.ofNat 32 n) ∧ Nat.count r.Offered t = 19 * n + k := by
  obtain ⟨n, hn, ⟨j, hj, hcount⟩ | ⟨hno, -⟩⟩ := packet_position hr hforce t
  · obtain rfl : k = j := by simpa [h] using hj
    exact ⟨n, hn, hcount⟩
  · exact absurd h (hno k)

/-! ## Packets -/

/-- The enable input of the source that trigger bit `b` of the header reports.  Bit `15` reports
the calibration pulse, which starts no acquisition. -/
def sourceEnabled (i : Input) (b : ℕ) : Bool :=
  if b < 12 then i.localVataTriggerEna.getLsbD b
  else if b = 12 then i.fastOrTriggerEna
  else if b = 13 then i.ackTriggerEna
  else if b = 14 then i.forceTriggerEna
  else false

/-- The nineteen words sent from cycle `w` on are packet number `n` of the run, and its header
describes cycle `a`, in which its acquisition was accepted. -/
structure PacketAt (r : Run) (n a w : ℕ) : Prop where
  accepts : r.Accepts a
  lt : a < w
  oneAcquisition : ∀ u, a < u → u ≤ w + 18 → ¬ r.Idle u
  sent : ∀ j < 19, r.Sent (w + j)
  position : ∀ j < 19, Nat.count r.Sent (w + j) = 19 * n + j
  tlast : ∀ j < 19, (r.out (w + j)).dataTlast = decide (j = 18)
  eventNumber : (r.out (w + 1)).dataTdata = BitVec.ofNat 32 n
  triggers : (r.out (w + 2)).dataTdata = (eventTriggers (r.inp a) (r.regs a)).setWidth 32
  source : ∃ b, (r.out (w + 2)).dataTdata.getLsbD b = true ∧ sourceEnabled (r.inp a) b = true
  running : (r.out (w + 4)).dataTdata ++ (r.out (w + 3)).dataTdata = (r.inp a).runningCounter
  live : (r.out (w + 6)).dataTdata ++ (r.out (w + 5)).dataTdata = liveCounter (r.inp a) (r.regs a)
  liveIsIdleCount : liveCounter (r.inp a) (r.regs a) = BitVec.ofNat 64 (Nat.count r.Idle a)

lemma extract_append_extract (x : BitVec 64) :
    x.extractLsb' 32 32 ++ x.extractLsb' 0 32 = x := by
  apply BitVec.eq_of_getLsbD_eq
  intro j hj
  rw [BitVec.getLsbD_append, BitVec.getLsbD_extractLsb', BitVec.getLsbD_extractLsb']
  by_cases h : j < 32
  · simp [h]
  · have h1 : j - 32 < 32 := by omega
    have h2 : 32 + (j - 32) = j := by omega
    simp [h, h1, h2]

lemma getLsbD_eventTriggers (i : Input) (s : Regs) {b : ℕ} (hb : b < 16) :
    (eventTriggers i s).getLsbD b =
      if b < 12 then (vataHitsRisingEdge s).getLsbD b
      else if b = 12 then i.fastOrTrigger
      else if b = 13 then i.triggerAck
      else if b = 14 then i.forceTrigger
      else i.calPulseTrigger := by
  unfold eventTriggers
  simp only [BitVec.getLsbD_append]
  by_cases h : b < 12
  · simp [h]
  · obtain rfl | rfl | rfl | rfl : b = 12 ∨ b = 13 ∨ b = 14 ∨ b = 15 := by omega
    all_goals simp

/-- An accepted trigger is reported by a bit of an enabled source. -/
lemma exists_enabled_source {i : Input} {s : Regs} (h : triggerAcq i s = true) :
    ∃ b < 16, (eventTriggers i s).getLsbD b = true ∧ sourceEnabled i b = true := by
  simp only [triggerAcq, Bool.or_eq_true, Bool.and_eq_true, List.any_eq_true, List.mem_range] at h
  rcases h with ((⟨hf, he⟩ | ⟨hf, he⟩) | ⟨hf, he⟩) | ⟨n, hn, hf, he⟩
  · exact ⟨14, by decide, (getLsbD_eventTriggers i s (by decide)).trans (by simpa using hf),
      by simp [sourceEnabled, he]⟩
  · exact ⟨12, by decide, (getLsbD_eventTriggers i s (by decide)).trans (by simpa using hf),
      by simp [sourceEnabled, he]⟩
  · exact ⟨13, by decide, (getLsbD_eventTriggers i s (by decide)).trans (by simpa using hf),
      by simp [sourceEnabled, he]⟩
  · refine ⟨n, by omega, ?_, ?_⟩
    · rw [getLsbD_eventTriggers _ _ (by omega), if_pos hn, hf]
    · rw [sourceEnabled, if_pos hn, he]

/-- A run without forced idles sends, from the first word of an acquisition on, the packet of
that acquisition. -/
lemma packetAt_of_sending (hr : r.FromReset) (hready : ∀ t, (r.inp t).dataTready = true)
    (hforce : ∀ t, (r.inp t).forceFsmIdle = false) (hcnt : ∀ t, (r.inp t).counterRst = false)
    (hev : ∀ t, (r.inp t).eventCounterRst = false) (h : r.SendingSince a w 18) :
    ∃ n, r.PacketAt n a w := by
  have hready' : ∀ u, r.Offered u → (r.inp u).dataTready = true := fun u _ => hready u
  have hoffered : ∀ j < 19, r.Offered (w + j) := fun j hj =>
    (offered_iff hr.idle_zero).mpr ⟨j, h.sending j (by omega)⟩
  have hsent : ∀ j < 19, r.Sent (w + j) := fun j hj =>
    (sent_iff_offered (hready' (w + j))).mpr (hoffered j hj)
  obtain ⟨n, hn, hfirst⟩ := count_offered_of_sending hr hforce (h.sending 0 (by decide))
  have hposition : ∀ j ≤ 18, Nat.count r.Sent (w + j) = 19 * n + j := by
    intro j hj
    rw [count_sent_eq fun u _ => hready' u]
    induction j with
    | zero => exact hfirst
    | succ j ih =>
        rw [← Nat.add_assoc, Nat.count_succ, if_pos (hoffered j (by omega)), ih (by omega)]
        rfl
  have hout : ∀ j (hj : j < 19),
      (r.out (w + j)).dataTdata = wfifoWord (r.regs (w + j)) ⟨j, hj⟩ := by
    intro j hj
    obtain ⟨_, hout⟩ := out_of_sending (h.sending j (by omega))
    rw [hout]
  have hheader : ∀ j ≤ 18, (r.regs (w + j)).header = headerOf (r.inp a) (r.regs a) :=
    fun j hj => header_sendingSince h hj
  have htriggers : (r.out (w + 2)).dataTdata =
      (eventTriggers (r.inp a) (r.regs a)).setWidth 32 := by
    rw [hout 2 (by decide), wfifoWord_triggers, hheader 2 (by decide)]
    rfl
  refine ⟨n,
    { accepts := h.accepts
      lt := h.lt
      oneAcquisition := fun u hu hut => h.not_idle hu hut
      sent := hsent
      position := fun j hj => hposition j (by omega)
      tlast := ?tlast
      eventNumber := ?eventNumber
      triggers := htriggers
      source := ?source
      running := ?running
      live := ?live
      liveIsIdleCount := ?idleCount }⟩
  case tlast =>
    intro j hj
    obtain ⟨_, hout⟩ := out_of_sending (h.sending j (by omega))
    rw [hout]
  case eventNumber =>
    -- the event counter has not moved since the header was latched
    have hsame : (r.regs w).ueventCounter = (r.regs a).ueventCounter :=
      ueventCounter_eq_of_silent hev h.lt.le fun u hu hut hlast => by
        rcases Nat.eq_or_lt_of_le hu with rfl | hlt
        · simp [idle_iff.mp h.accepts.1] at hlast
        · simp [h.acquiring u hlt hut] at hlast
    rw [hout 1 (by decide), wfifoWord_eventNumber, hheader 1 (by decide), ← hn hev, Nat.add_zero,
      hsame]
    simp [headerOf, eventCounter, hev a]
  case source =>
    obtain ⟨b, hb, hbit, hena⟩ := exists_enabled_source h.accepts.2
    refine ⟨b, ?_, hena⟩
    rw [htriggers, BitVec.getLsbD_setWidth, hbit]
    simp
    omega
  case running =>
    rw [hout 4 (by decide), hout 3 (by decide), wfifoWord_runningHi, wfifoWord_runningLo,
      hheader 4 (by decide), hheader 3 (by decide)]
    exact extract_append_extract _
  case live =>
    rw [hout 6 (by decide), hout 5 (by decide), wfifoWord_liveHi, wfifoWord_liveLo,
      hheader 6 (by decide), hheader 5 (by decide)]
    exact extract_append_extract _
  case idleCount =>
    rw [liveCounter, hcnt a]
    exact uliveCounter_eq hr hcnt a

/-- The words of a packet are sent in the phases of its own acquisition. -/
lemma PacketAt.sendingSince (hr : r.FromReset) (hready : ∀ t, (r.inp t).dataTready = true)
    (hforce : ∀ t, (r.inp t).forceFsmIdle = false) (h : r.PacketAt n a w) :
    r.SendingSince a w 18 := by
  obtain ⟨j, hj⟩ := (offered_iff hr.idle_zero).mp (h.sent 0 (by decide)).1
  rw [Nat.add_zero] at hj
  -- the first word of the packet is the first of an acquisition, by its position
  obtain ⟨m, -, hcount⟩ := count_offered_of_sending hr hforce hj
  obtain ⟨hj19, -⟩ := phase_eq_sending_iff.mp hj
  have hposition := h.position 0 (by decide)
  rw [Nat.add_zero, Nat.add_zero, count_sent_eq fun u _ _ => hready u] at hposition
  obtain rfl : j = 0 := by omega
  obtain ⟨a', w', hw, hs⟩ := exists_sendingSince hr.idle_zero hj
  obtain rfl : w = w' := hw
  have hlt := hs.lt
  have hacquired : a' = a := by
    rcases Nat.lt_trichotomy a' a with hbefore | heq | hafter
    · exact absurd h.accepts.1 (hs.not_idle hbefore (by have := h.lt; omega))
    · exact heq
    · exact absurd hs.accepts.1 (h.oneAcquisition a' hafter (by omega))
  rw [← hacquired]
  exact hs.complete fun i _ _ => hforce (w + i)

/-- An acquisition that `abort_daq` stops sends nothing before the next `IDLE`, and the event
counter keeps its value. -/
lemma silent_of_stopped (hr : r.FromReset) (hev : ∀ t, (r.inp t).eventCounterRst = false)
    (ha : r.AcquiringSince a t) (hstop : abortDaq (r.regs t) = true) {u : ℕ} (hu : a < u)
    (hbusy : ∀ v, a < v → v ≤ u → ¬ r.Idle v) :
    ¬ r.Sent u ∧ (r.regs u).ueventCounter = (r.regs a).ueventCounter := by
  have hphase : ∀ v, a < v → v ≤ u → r.phase v = .acquiring ∨ r.phase v = .returning := by
    intro v hv hvu
    rcases Nat.lt_or_ge t v with htv | htv
    · right
      obtain ⟨d, rfl⟩ := Nat.exists_eq_add_of_lt htv
      induction d with
      | zero => exact step_of_stopped (ha.acquiring t ha.lt le_rfl) (.inr hstop)
      | succ d ih =>
          have hprev := ih (by have := ha.lt; omega) (by omega) (by omega)
          have hnext : r.phase (t + d + 1 + 1) = .returning ∨ r.phase (t + d + 1 + 1) = .idle :=
            step_of_returning hprev
          exact hnext.resolve_right fun h => hbusy _ hv hvu (idle_iff.mpr h)
    · exact .inl (ha.acquiring v hv htv)
  constructor
  · rintro ⟨hvalid, -⟩
    obtain ⟨k, hk⟩ := (offered_iff hr.idle_zero).mp hvalid
    rcases hphase u hu le_rfl with h | h <;> simp [h] at hk
  · refine ueventCounter_eq_of_silent hev hu.le fun v hv hvu hlast => ?_
    rcases Nat.eq_or_lt_of_le hv with rfl | hlt
    · simp [idle_iff.mp ha.accepts.1] at hlast
    · rcases hphase v hlt hvu.le with h | h <;> simp [h] at hlast

/-- **Packet framing and header.**  In a run from reset whose receiver is always ready, with no
forced idle and no counter reset, every word sent is one of the nineteen words of a packet, and
the header of packet `n` carries `n` and describes the `IDLE` cycle in which its acquisition was
accepted.  An acquisition that is aborted sends no word and takes no event number. -/
theorem sent_words_form_packets (hr : r.FromReset) (hready : ∀ t, (r.inp t).dataTready = true)
    (hforce : ∀ t, (r.inp t).forceFsmIdle = false) (hcnt : ∀ t, (r.inp t).counterRst = false)
    (hev : ∀ t, (r.inp t).eventCounterRst = false) :
    (∀ t, r.Sent t → ∃ n a w, r.PacketAt n a w ∧ w ≤ t ∧ t ≤ w + 18) ∧
      ∀ a t, r.AcquiringSince a t → abortDaq (r.regs t) = true →
        ∀ u, a < u → (∀ v, a < v → v ≤ u → ¬ r.Idle v) →
          ¬ r.Sent u ∧ (r.regs u).ueventCounter = (r.regs a).ueventCounter := by
  refine ⟨fun t ht => ?_, fun a t ha hstop u hu hbusy => silent_of_stopped hr hev ha hstop hu hbusy⟩
  obtain ⟨k, hk⟩ := (offered_iff hr.idle_zero).mp ht.1
  obtain ⟨hk19, -⟩ := phase_eq_sending_iff.mp hk
  obtain ⟨a, w, rfl, hs⟩ := exists_sendingSince hr.idle_zero hk
  obtain ⟨n, hn⟩ := packetAt_of_sending hr hready hforce hcnt hev
    (hs.complete fun j _ _ => hforce (w + j))
  exact ⟨n, a, w, hn, Nat.le_add_right w k, by omega⟩

/-- The first word of the event of `singleEvent` leaves in cycle `560`, in a packet. -/
theorem singleEvent_packet : ∃ n a w, singleEvent.PacketAt n a w ∧ w ≤ 560 ∧ 560 ≤ w + 18 :=
  (sent_words_form_packets (fromReset_ofReset _) (fun _ => rfl) (fun _ => rfl) (fun _ => rfl)
    fun _ => rfl).1 560
      ⟨(offered_iff (fromReset_ofReset _).idle_zero).mpr
        ⟨0, singleEvent_sendingSince.sending 0 le_rfl⟩, rfl⟩

end Run

end TrackerFpga.Vata
