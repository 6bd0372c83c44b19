import TrackerFpga.EventId.Held
import TrackerFpga.Sync.Together
import TrackerFpga.System.Breakout
import TrackerFpga.Vata.EventId
import TrackerFpga.Vata.Latency
import TrackerFpga.Vata.Packets

/-!
# The event ids of the design

While the instrument takes data, every event is one dead time: where a core accepts, `FEE_busy`
rises, and all cores accept with it (`rises_feeBusy_iff`).  An acquisition lasts for longer than the
transmission of an id (`farApart`), so the id of the event is in every receiver before the first
word of any packet leaves, and stays there until that word is sent (`word_zero_eq`).  The ids are
the numbers of the events, in all cores alike.
-/

namespace TrackerFpga.Sync.Run

open Clocked Vata

variable {N : ℕ} {r : Run N} {mask : BitVec 12} {t : ℕ}

/-- **An event is a dead time.**  With local triggers only, a core accepts where `FEE_busy` rises in
the next cycle, and nowhere else. -/
lemma rises_feeBusy_iff (hN : N ≤ 12) (hr : r.FromReset) (hw : r.Wired 0#32)
    (hlocal : r.LocalOnly mask) (n : Fin N) :
    Rises r.feeBusy (t + 1) ↔ (r.core n).Accepts t := by
  have haccepts : ∀ n, (r.core n).Accepts t ↔ r.state n t = .idle ∧
      triggerAcq (coreInput (r.inp t) (r.regs t) n) ((r.regs t).cores n) = true := by
    intro n
    rw [Vata.Run.Accepts, core_idle_iff, core_regs]
    rfl
  have hfree : r.feeBusy t = false ↔ ∀ m, r.state m t = .idle := by
    rw [← Bool.not_eq_true, feeBusy_iff hw]
    simp only [not_exists, not_and, not_not, core_idle_iff]
    exact ⟨fun h m => h m (by omega) (by simp), fun h m _ _ => h m⟩
  rw [rises_succ, hfree]
  constructor
  · rintro ⟨hbusy, hidle⟩
    obtain ⟨m, -, -, hm⟩ := (feeBusy_iff hw).mp hbusy
    refine (haccepts n).mpr ⟨hidle n, ?_⟩
    rw [triggerAcq_eq hr hlocal n m]
    by_contra hno
    exact hm (core_idle_iff.mpr (idle_succ hlocal (hidle m) (Bool.eq_false_of_not_eq_true hno)))
  · intro ha
    obtain ⟨hidle, htrig⟩ := (haccepts n).mp ha
    refine ⟨(feeBusy_iff hw).mpr ⟨n, by omega, by simp, ?_⟩, ?_⟩
    · have hphase : (r.core n).phase (t + 1) = .acquiring :=
        step_of_idle (Vata.Run.idle_iff.mp ha.1) ha.2
      rw [Vata.Run.idle_iff, hphase]
      simp
    · rcases idle_together hN hr hlocal htrig with hall | hnone
      · exact hall
      · exact absurd hidle (hnone n)

/-- The cores accept together. -/
lemma accepts_iff (hN : N ≤ 12) (hr : r.FromReset) (hw : r.Wired 0#32)
    (hlocal : r.LocalOnly mask) (m n : Fin N) :
    (r.core m).Accepts t ↔ (r.core n).Accepts t := by
  rw [← rises_feeBusy_iff hN hr hw hlocal m, rises_feeBusy_iff hN hr hw hlocal n]

/-- The dead times before an event are the events before it. -/
lemma count_rises_eq (hN : N ≤ 12) (hr : r.FromReset) (hw : r.Wired 0#32)
    (hlocal : r.LocalOnly mask) (n : Fin N) (t : ℕ) :
    Nat.count (Rises r.feeBusy) (t + 1) = Nat.count (r.core n).Accepts t := by
  have hzero : ¬ Rises r.feeBusy 0 := fun hrises =>
    absurd (hrises.1.symm.trans (feeBusy_zero hr hw)) (by decide)
  rw [Nat.count_succ', if_neg hzero, Nat.add_zero]
  simp only [rises_feeBusy_iff hN hr hw hlocal n]

/-- All cores have accepted equally many events. -/
lemma count_accepts_together (hN : N ≤ 12) (hr : r.FromReset) (hw : r.Wired 0#32)
    (hlocal : r.LocalOnly mask) (m n : Fin N) (t : ℕ) :
    Nat.count (r.core m).Accepts t = Nat.count (r.core n).Accepts t := by
  rw [← count_rises_eq hN hr hw hlocal m, count_rises_eq hN hr hw hlocal n]

end TrackerFpga.Sync.Run

namespace TrackerFpga.Vata.Run

open Clocked

variable {r : Run} {a n t w : ℕ}

/-! ## Events and packets -/

/-- Of the events accepted so far all but the one that is under way have sent their packets. -/
inductive AcceptedAndSent (r : Run) (t n : ℕ) : Prop
  | acquiring : r.phase t = .acquiring → Nat.count r.Accepts t = n + 1 →
      Nat.count r.Offered t = 19 * n → AcceptedAndSent r t n
  | sending (k : ℕ) : r.phase t = .sending k → Nat.count r.Accepts t = n + 1 →
      Nat.count r.Offered t = 19 * n + k → AcceptedAndSent r t n
  | waiting : ¬ (r.phase t).Active → Nat.count r.Accepts t = n →
      Nat.count r.Offered t = 19 * n → AcceptedAndSent r t n

/-- If nothing stops an acquisition, each event that is accepted sends its packet. -/
lemma exists_acceptedAndSent (hr : r.FromReset) (hforce : ∀ t, (r.inp t).forceFsmIdle = false)
    (habort : ∀ t, abortDaq (r.regs t) = false) (t : ℕ) : ∃ n, r.AcceptedAndSent t n := by
  have haccepts : ∀ u, r.Accepts u ↔ r.phase u = .idle ∧ triggerAcq (r.inp u) (r.regs u) = true :=
    fun u => and_congr_left' idle_iff
  have hoffered : ∀ u, r.Offered u ↔ ∃ k, r.phase u = .sending k :=
    fun u => offered_iff hr.idle_zero
  induction t with
  | zero =>
      exact ⟨0, .waiting (by simp [idle_iff.mp hr.idle_zero, Phase.Active]) (by simp) (by simp)⟩
  | succ t ih =>
      obtain ⟨n, hn⟩ := ih
      cases hn with
      | acquiring hacq hevents hwords =>
          have hno : ¬ r.Accepts t := by simp [haccepts, hacq]
          have hsilent : ¬ r.Offered t := by simp [hoffered, hacq]
          have hevents' : Nat.count r.Accepts (t + 1) = n + 1 := by
            rw [Nat.count_succ, if_neg hno, hevents]
          have hwords' : Nat.count r.Offered (t + 1) = 19 * n := by
            rw [Nat.count_succ, if_neg hsilent, hwords, Nat.add_zero]
          rcases step_of_acquiring hacq (hforce t) (habort t) with hnext | hnext
          · exact ⟨n, .acquiring hnext hevents' hwords'⟩
          · exact ⟨n, .sending 0 hnext hevents' hwords'⟩
      | sending k hk hevents hwords =>
          have hno : ¬ r.Accepts t := by simp [haccepts, hk]
          have hevents' : Nat.count r.Accepts (t + 1) = n + 1 := by
            rw [Nat.count_succ, if_neg hno, hevents]
          have hwords' : Nat.count r.Offered (t + 1) = 19 * n + (k + 1) := by
            rw [Nat.count_succ, if_pos ((hoffered t).mpr ⟨k, hk⟩), hwords]
            rfl
          obtain ⟨hk19, -⟩ := phase_eq_sending_iff.mp hk
          rcases Nat.lt_or_ge k 18 with hlt | hge
          · exact ⟨n, .sending (k + 1) (step_of_sending hk hlt (hforce t)) hevents' hwords'⟩
          · obtain rfl : k = 18 := by omega
            have hnext : r.phase (t + 1) = .returning := step_of_sending_last hk
            exact ⟨n + 1, .waiting (by simp [hnext, Phase.Active]) hevents' hwords'⟩
      | waiting hquiet hevents hwords =>
          have hsilent : ¬ r.Offered t := fun h => hquiet (.inr ((hoffered t).mp h))
          have hwords' : Nat.count r.Offered (t + 1) = 19 * n := by
            rw [Nat.count_succ, if_neg hsilent, hwords, Nat.add_zero]
          by_cases ha : r.Accepts t
          · have hnext : r.phase (t + 1) = .acquiring :=
              step_of_idle ((haccepts t).mp ha).1 ha.2
            exact ⟨n, .acquiring hnext (by rw [Nat.count_succ, if_pos ha, hevents]) hwords'⟩
          · refine ⟨n, .waiting (fun hactive => ?_) ?_ hwords'⟩
            · rcases hactive with hnext | ⟨k, hnext⟩
              · rcases acquiring_of_step hnext with ⟨hidle, htrig⟩ | ⟨hacq, -, -⟩
                · exact ha ((haccepts t).mpr ⟨hidle, htrig⟩)
                · exact hquiet (.inl hacq)
              · cases k with
                | zero => exact hquiet (.inl (sending_zero_of_step hnext).1)
                | succ k => exact hquiet (.inr ⟨k, (sending_succ_of_step hnext).1⟩)
            · rw [Nat.count_succ, if_neg ha, hevents, Nat.add_zero]

/-- **The packets are the events**: packet `n` is that of event `n`. -/
lemma count_accepts_eq (hr : r.FromReset) (hready : ∀ t, (r.inp t).dataTready = true)
    (hforce : ∀ t, (r.inp t).forceFsmIdle = false) (habort : ∀ t, abortDaq (r.regs t) = false)
    (hs : r.SendingSince a w 18) (hp : r.PacketAt n a w) : Nat.count r.Accepts a = n := by
  have hidle := idle_iff.mp hs.accepts.1
  have hwords : Nat.count r.Offered w = 19 * n := by
    have hfirst := hp.position 0 (by decide)
    rwa [Nat.add_zero, Nat.add_zero, count_sent_eq fun u _ _ => hready u] at hfirst
  -- no word is offered while the event is acquired
  have hsame : Nat.count r.Offered w = Nat.count r.Offered a := by
    refine invariant_between (P := fun v => Nat.count r.Offered v = Nat.count r.Offered a) rfl
      (fun v hav hvw ih => ?_) hs.lt.le le_rfl
    have hsilent : ¬ r.Offered v := by
      rw [offered_iff hr.idle_zero]
      rcases Nat.eq_or_lt_of_le hav with rfl | hlt
      · simp [hidle]
      · simp [hs.acquiring v hlt hvw]
    rw [Nat.count_succ, if_neg hsilent, Nat.add_zero, ih]
  obtain ⟨m, hm⟩ := exists_acceptedAndSent hr hforce habort a
  cases hm with
  | acquiring hacq | sending k hacq => simp [hidle] at hacq
  | waiting _ hevents hoffered => omega

end TrackerFpga.Vata.Run

namespace TrackerFpga.System.Run

open Clocked EventId Vata

variable {N R : ℕ} {r : Run N R} {mask : BitVec 12} {h a u w : ℕ}

/-! ## The receivers -/

/-- The sender with the receiver of core `n`. -/
def idLink (r : Run N R) (n : Fin N) : EventId.Run 32 R :=
  r.gen.link .reset fun t => ((r.sync.core n).out t).eventIdClr

/-- Core `n` holds what the receiver of the link holds. -/
lemma core_eventId (hr : r.FromReset) (n : Fin N) (t : ℕ) :
    (r.sync.core n).eventId t = ((r.idLink n).regs t).s2p := by
  induction t with
  | zero =>
      obtain ⟨⟨edges, hcores⟩, -⟩ := hr.sync
      obtain ⟨pl, hn⟩ := hcores n
      have hstart : (r.sync.core n).regs 0 = Regs.reset edges pl := hn
      rw [Vata.Run.eventId, hstart]
      rfl
  | succ t ih =>
      have hp2s : ((r.idLink n).regs t).p2s = (r.regs t).eventIdGen.p2s := by
        rw [idLink, Gen.Run.link_p2s, gen_regs]
      rw [EventId.Run.s2p_succ, ← ih, hp2s, Vata.Run.eventId, Vata.Run.regs_succ, step_eventIdS2p]
      rfl

/-- A clear comes from word `1` of a packet. -/
lemma sending_of_cleared {n : Fin N} (hcleared : (r.idLink n).Cleared u) :
    ∃ v, u = v + 3 ∧ (r.sync.core n).phase v = .sending 1 := by
  obtain ⟨v, rfl, hclr⟩ := EventId.Run.exists_clr_of_cleared rfl hcleared
  exact ⟨v, rfl, (outputs_eventIdClr _ _).mp hclr⟩

/-! ## Taking data -/

/-- The instrument takes data: the cores are triggered by local hits only, no acquisition is given
up, software leaves the event id alone, and all cores have one hold time. -/
structure TakesData (r : Run N R) (mask : BitVec 12) (h : ℕ) : Prop where
  reset : r.FromReset
  wired : r.sync.Wired 0#32
  hits : r.sync.LocalOnly mask
  noForce : ∀ t n, ((r.inp t).sync.cores n).forceFsmIdle = false
  noTimeout : ∀ t n, ((r.inp t).sync.cores n).triggerAckTimeout = 0#32
  noUpdate : ∀ t, (r.inp t).updateEventId = false
  holdTime : ∀ t n, ((r.inp t).sync.cores n).holdTime.toNat = h

/-- The event ids match the events: the cores accept together, word 0 of each packet is the number
of events before its own, and so two packets, of the same core or of different ones, have the same
id only if they are packets of the same event, as long as there are not `2 ^ 32` of them. -/
structure IdsMatch (r : Run N R) : Prop where
  together : ∀ m n a, (r.sync.core m).Accepts a ↔ (r.sync.core n).Accepts a
  word : ∀ n a w, (r.sync.core n).SendingSince a w 0 →
    ((r.sync.core n).out w).dataTdata = BitVec.ofNat 32 (Nat.count (r.sync.core n).Accepts a)
  same : ∀ m n a a' w w', (r.sync.core m).SendingSince a w 0 →
    (r.sync.core n).SendingSince a' w' 0 → Nat.count (r.sync.core m).Accepts a < 2 ^ 32 →
      Nat.count (r.sync.core n).Accepts a' < 2 ^ 32 →
        (((r.sync.core m).out w).dataTdata = ((r.sync.core n).out w').dataTdata ↔ a = a')

namespace TakesData

variable (hd : r.TakesData mask h)
include hd

lemma core_fromReset (n : Fin N) : (r.sync.core n).FromReset := by
  obtain ⟨⟨edges, hcores⟩, -⟩ := hd.reset.sync
  obtain ⟨pl, hn⟩ := hcores n
  exact ⟨edges, pl, hn⟩

lemma abortDaq_eq (n : Fin N) (t : ℕ) : Vata.abortDaq ((r.sync.core n).regs t) = false :=
  Vata.Run.abortDaq_eq_false_of_timeout_zero (hd.core_fromReset n) (fun t => hd.noTimeout t n) t

/-- An acquisition is under way for `559` cycles and the hold time. -/
lemma acquiring {n : Fin N} (ha : (r.sync.core n).Accepts a) (hau : a < u)
    (hu : u ≤ a + 559 + h) : (r.sync.core n).phase u = .acquiring :=
  Vata.Run.acquiring_of_accepts ha le_rfl
    (fun v _ _ => ⟨hd.noForce v n, hd.abortDaq_eq n v, hd.holdTime v n⟩) hau hu

lemma first_word_after {n : Fin N} (hs : (r.sync.core n).SendingSince a w 0) :
    a + 559 + h < w := by
  by_contra hearly
  have hacq := hd.acquiring hs.accepts hs.lt (Nat.not_lt.mp hearly)
  have hfirst := hs.sending 0 le_rfl
  rw [Nat.add_zero, hacq] at hfirst
  simp at hfirst

lemma handshake : GenEventIdGo.Handshake r.sync.feeBusy r.sync.feeReady :=
  Sync.Run.handshake hd.reset.sync hd.wired

lemma genWired : r.gen.Wired r.sync.feeBusy r.sync.feeReady := gen_wired hd.reset hd.noUpdate

/-- So long are the events apart. -/
lemma apart {n : Fin N} {a' : ℕ} (ha : (r.sync.core n).Accepts a)
    (ha' : (r.sync.core n).Accepts a') (hlt : a < a') : a + 559 + h < a' := by
  by_contra hnear
  have hacq := hd.acquiring ha hlt (Nat.not_lt.mp hnear)
  have hidle := Vata.Run.idle_iff.mp ha'.1
  simp [hacq] at hidle

section Slow

variable (hN : N ≤ 12) (hlong : 64 * R ≤ h + 551)
include hN

lemma accepts_of_rises {x : ℕ} (hx : Rises r.sync.feeBusy x) (n : Fin N) :
    ∃ a, x = a + 1 ∧ (r.sync.core n).Accepts a := by
  cases x with
  | zero =>
      exact absurd (hx.1.symm.trans (Sync.Run.feeBusy_zero hd.reset.sync hd.wired)) (by decide)
  | succ a => exact ⟨a, rfl, (Sync.Run.rises_feeBusy_iff hN hd.reset.sync hd.wired hd.hits n).mp hx⟩

include hlong

/-- **Far enough.**  The transmission of an id is over before the next event. -/
lemma farApart : Gen.Run.FarApart R r.sync.feeBusy := by
  intro x x' hx hx' hlt
  obtain ⟨n, -, -, -⟩ := (Sync.Run.feeBusy_iff hd.wired).mp hx.1
  obtain ⟨a, rfl, ha⟩ := hd.accepts_of_rises hN hx n
  obtain ⟨a', rfl, ha'⟩ := hd.accepts_of_rises hN hx' n
  have hlate := hd.apart ha ha' (Nat.lt_of_succ_lt_succ hlt)
  omega

variable (g : EventId.Run.Generics 32 R)
include g

/-- **The id in the packet.**  It is sent at the beginning of the event, and held. -/
lemma word_zero_eq {n : Fin N} (hs : (r.sync.core n).SendingSince a w 0) :
    ((r.sync.core n).out w).dataTdata = BitVec.ofNat 32 (Nat.count (r.sync.core n).Accepts a) := by
  have hlate := hd.first_word_after hs
  have hfar := hd.farApart hN hlong
  have hx : Rises r.sync.feeBusy (a + 1) :=
    (Sync.Run.rises_feeBusy_iff hN hd.reset.sync hd.wired hd.hits n).mpr hs.accepts
  have hanswered := Gen.Run.answered g hd.genWired hd.handshake hfar
  obtain ⟨y, hay, hya, hy⟩ := hanswered.answer _ hx
  have hend : EventId.Run.transferEnd 32 R y ≤ w := by
    unfold EventId.Run.transferEnd
    omega
  -- a clear would come from a word that is sent while the event is acquired
  have hnotCleared : ∀ u, y < u → u ≤ w → ¬ (r.idLink n).Cleared u := by
    intro u hyu huw hcleared
    obtain ⟨v, rfl, hv⟩ := sending_of_cleared hcleared
    rcases Nat.eq_or_lt_of_le (show a ≤ v by omega) with rfl | hav
    · simp [Vata.Run.idle_iff.mp hs.accepts.1] at hv
    · simp [hs.acquiring v hav (by omega)] at hv
  have hstarts : (r.idLink n).Starts y := by
    refine ⟨?_, hy.2, fun u hyu hu => hnotCleared u hyu (by omega)⟩
    rw [EventId.Run.Idle, idLink, Gen.Run.link_p2s]
    exact hy.1
  -- another transmission would belong to another event
  have hidle : ∀ v, EventId.Run.transferEnd 32 R y ≤ v → v < w → (r.idLink n).Idle v := by
    intro v hyv hvw
    rw [EventId.Run.Idle, idLink, Gen.Run.link_p2s]
    by_contra hbusy
    obtain ⟨s, hsv, hstart, hsend⟩ := Gen.Run.exists_transfer g hd.genWired.idle_zero hbusy
    obtain ⟨x', hx', hxs, hsx⟩ := hanswered.only s hstart
    unfold EventId.Run.transferEnd at hyv hsend
    rcases Nat.lt_trichotomy x' (a + 1) with hbefore | rfl | hafter
    · have hapart := hfar x' (a + 1) hx' hx hbefore
      omega
    · have hsame := hanswered.once _ s y hx hxs hsx hay hya hstart hy
      omega
    · obtain ⟨a', rfl, ha'⟩ := hd.accepts_of_rises hN hx' n
      have hacq := hs.acquiring a' (by omega) (by omega)
      simp [Vata.Run.idle_iff.mp ha'.1] at hacq
  calc ((r.sync.core n).out w).dataTdata
      = (r.idLink n).eventIdOut w := by
        rw [Vata.Run.word_zero hs, core_eventId hd.reset]
        rfl
    _ = (r.idLink n).eventIdOut (EventId.Run.transferEnd 32 R y) :=
        EventId.Run.eventIdOut_held g hstarts hend hidle fun v hv hvw =>
          hnotCleared v (by unfold EventId.Run.transferEnd at hv; omega) hvw
    _ = r.gen.sentId y := Gen.Run.link_eventIdOut g hstarts
    _ = BitVec.ofNat 32 (Nat.count (Rises r.sync.feeBusy) (a + 1)) :=
        Gen.Run.sentId_of_rises g hd.genWired hd.handshake hfar hx hy hay hya
    _ = BitVec.ofNat 32 (Nat.count (r.sync.core n).Accepts a) := by
        rw [Sync.Run.count_rises_eq hN hd.reset.sync hd.wired hd.hits n]

end Slow

end TakesData

/-- **The event ids match the events** while the instrument takes data, if the hold time leaves
room for the transmission of an id. -/
theorem ids_match (g : EventId.Run.Generics 32 R) (hN : N ≤ 12) (hd : r.TakesData mask h)
    (hlong : 64 * R ≤ h + 551) : r.IdsMatch := by
  have htogether : ∀ m n a, (r.sync.core m).Accepts a ↔ (r.sync.core n).Accepts a :=
    fun m n a => Sync.Run.accepts_iff hN hd.reset.sync hd.wired hd.hits m n
  refine ⟨htogether, fun n a w hs => hd.word_zero_eq hN hlong g hs, ?_⟩
  intro m n a a' w w' hs hs' hcount hcount'
  have hsame : Nat.count (r.sync.core n).Accepts a = Nat.count (r.sync.core m).Accepts a :=
    Sync.Run.count_accepts_together hN hd.reset.sync hd.wired hd.hits n m a
  rw [hd.word_zero_eq hN hlong g hs, hd.word_zero_eq hN hlong g hs', ← BitVec.toNat_inj,
    BitVec.toNat_ofNat, BitVec.toNat_ofNat, Nat.mod_eq_of_lt hcount, Nat.mod_eq_of_lt hcount',
    ← hsame]
  refine ⟨fun heq => Nat.count_injective ?_ hs'.accepts heq, fun heq => by rw [heq]⟩
  exact (htogether n m a).mpr hs.accepts

/-- Two cores, of which the first sees a hit in cycle `0` and the second one in cycle `620`, with
`EVENT_ID_CLK_RATIO = 2` and a counter that counts the cycles. -/
def twoHits : Run 2 2 where
  start :=
    { sync := { cores := fun _ => Regs.reset 0#12 0#520, control := .reset }
      feeReadyStayHigh := .reset
      genEventIdGo := .reset
      eventIdGen := .reset }
  inp t :=
    { sync :=
        { cores := fun n =>
            { Input.quiet with
              vataO5 := true, vataO6 := decide (t ≠ 620 * n.val), localVataTriggerEna := 3#12
              runningCounter := BitVec.ofNat 64 t }
          openPorts := fun _ => 0#2
          disableHits := 0#32
          globalHitEna := true
          axiAwaddr := 0#5
          axiWdata := 0#32
          axiWready := false }
      updateEventId := false
      newEventId := 0#32 }

lemma twoHits_takesData : twoHits.TakesData 3#12 0 where
  reset := ⟨⟨⟨0#12, fun _ => ⟨0#520, rfl⟩⟩, rfl⟩, rfl, rfl, rfl⟩
  wired := ⟨fun _ => rfl, fun _ _ _ => rfl⟩
  hits := ⟨fun _ _ => rfl, fun _ _ => rfl, fun _ _ => rfl, fun _ _ => rfl, fun _ => rfl,
    fun _ _ => rfl, fun _ _ => rfl⟩
  noForce _ _ := rfl
  noTimeout _ _ := rfl
  noUpdate _ := rfl
  holdTime _ _ := rfl

lemma core_phase (r : Run N R) (n : Fin N) (t : ℕ) :
    (r.sync.core n).phase t = ((r.regs t).sync.cores n).phase := by
  rw [Vata.Run.phase, Sync.Run.core_regs, sync_regs]

/-- A core begins an event in cycle `a`, and its first word leaves in cycle `w`. -/
structure Takes (r : Run N R) (n : Fin N) (a w : ℕ) : Prop where
  accepts : (r.sync.core n).Accepts a
  first : (r.sync.core n).phase w = .sending 0

lemma takes_of_phases {n : Fin N} (hidle : ((r.regs a).sync.cores n).phase = .idle)
    (hacq : ((r.regs (a + 1)).sync.cores n).phase = .acquiring)
    (hfirst : ((r.regs w).sync.cores n).phase = .sending 0) : r.Takes n a w := by
  rw [← core_phase] at hidle hacq hfirst
  refine ⟨?_, hfirst⟩
  rcases acquiring_of_step hacq with ⟨-, htrig⟩ | ⟨hbusy, -⟩
  · exact ⟨Vata.Run.idle_iff.mpr hidle, htrig⟩
  · exact absurd (hidle.symm.trans hbusy) (by decide)

/-- Both cores take both hits. -/
lemma twoHits_takes (n : Fin 2) : twoHits.Takes n 1 561 ∧ twoHits.Takes n 621 1181 := by
  have hphases : ∀ n,
      (((twoHits.regs 1).sync.cores n).phase = .idle ∧
        ((twoHits.regs (1 + 1)).sync.cores n).phase = .acquiring ∧
        ((twoHits.regs 561).sync.cores n).phase = .sending 0) ∧
      ((twoHits.regs 621).sync.cores n).phase = .idle ∧
        ((twoHits.regs (621 + 1)).sync.cores n).phase = .acquiring ∧
        ((twoHits.regs 1181).sync.cores n).phase = .sending 0 := by
    decide +kernel
  obtain ⟨⟨hidle, hacq, hfirst⟩, hidle', hacq', hfirst'⟩ := hphases n
  exact ⟨takes_of_phases hidle hacq hfirst, takes_of_phases hidle' hacq' hfirst'⟩

/-- Both cores accept the hit of the first one in cycle `1`, and that of the second in cycle
`621`. -/
theorem twoHits_ids : (∀ n, (twoHits.sync.core n).Accepts 1) ∧
    (∀ n, (twoHits.sync.core n).Accepts 621) ∧ twoHits.IdsMatch :=
  ⟨fun n => (twoHits_takes n).1.accepts, fun n => (twoHits_takes n).2.accepts,
    ids_match ⟨by decide, by decide, by decide, by decide⟩ (by decide) twoHits_takesData
      (by decide)⟩

/-- **Id and event number.**  If moreover the receivers are always ready and no counter is reset,
every word that a core sends is one of a packet in which the event id and the event number are the
same: the number of the packet. -/
theorem packet_ids (g : EventId.Run.Generics 32 R) (hN : N ≤ 12) (hd : r.TakesData mask h)
    (hlong : 64 * R ≤ h + 551)
    (hready : ∀ t n, ((r.inp t).sync.cores n).dataTready = true)
    (hcnt : ∀ t n, ((r.inp t).sync.cores n).counterRst = false)
    (hev : ∀ t n, ((r.inp t).sync.cores n).eventCounterRst = false) :
    ∀ n t, (r.sync.core n).Sent t → ∃ k a w, (r.sync.core n).PacketAt k a w ∧ w ≤ t ∧ t ≤ w + 18 ∧
      ((r.sync.core n).out w).dataTdata = BitVec.ofNat 32 k ∧
        ((r.sync.core n).out (w + 1)).dataTdata = BitVec.ofNat 32 k := by
  intro n t ht
  have hr := hd.core_fromReset n
  obtain ⟨j, hj⟩ := (Vata.Run.offered_iff hr.idle_zero).mp ht.1
  obtain ⟨hj19, -⟩ := phase_eq_sending_iff.mp hj
  obtain ⟨a, w, rfl, hs⟩ := Vata.Run.exists_sendingSince hr.idle_zero hj
  have hwhole := hs.complete fun i _ _ => hd.noForce (w + i) n
  obtain ⟨k, hk⟩ := Vata.Run.packetAt_of_sending hr (fun u => hready u n) (fun u => hd.noForce u n)
    (fun u => hcnt u n) (fun u => hev u n) hwhole
  have hevent := Vata.Run.count_accepts_eq hr (fun u => hready u n) (fun u => hd.noForce u n)
    (hd.abortDaq_eq n) hwhole hk
  have hid := hd.word_zero_eq hN hlong g
    (.of_first hs.accepts hs.lt hs.acquiring (hs.sending 0 (Nat.zero_le j)))
  rw [hevent] at hid
  exact ⟨k, a, w, hk, Nat.le_add_right w j, by omega, hid, hk.eventNumber⟩

/-- The first word of the first event leaves in cycle `561`, in such a packet. -/
theorem twoHits_packets : ∃ k a w, (twoHits.sync.core 0).PacketAt k a w ∧ w ≤ 561 ∧ 561 ≤ w + 18 ∧
    ((twoHits.sync.core 0).out w).dataTdata = BitVec.ofNat 32 k ∧
      ((twoHits.sync.core 0).out (w + 1)).dataTdata = BitVec.ofNat 32 k :=
  packet_ids ⟨by decide, by decide, by decide, by decide⟩ (by decide) twoHits_takesData
    (by decide) (fun _ _ => rfl) (fun _ _ => rfl) (fun _ _ => rfl) 0 561
      ⟨(Vata.Run.offered_iff (twoHits_takesData.core_fromReset 0).idle_zero).mpr
        ⟨0, (twoHits_takes 0).1.first⟩, rfl⟩

/-! ## Dead times in general -/

variable {disabled : BitVec 32}

/-- **Each dead time is given a go**, whatever the cores do: within three cycles of its beginning.
There are no goes but those of a dead time that began seven cycles earlier at most. -/
theorem dead_time_goes (hr : r.FromReset) (hw : r.sync.Wired disabled) :
    (∀ x, Rises r.sync.feeBusy x →
      ∃ y, x < y ∧ y ≤ x + 3 ∧ (r.regs y).genEventIdGo.eventIdGo = true) ∧
    ∀ y, (r.regs y).genEventIdGo.eventIdGo = true →
      ∃ x, Rises r.sync.feeBusy x ∧ x < y ∧ y ≤ x + 7 := by
  have hand := Sync.Run.handshake hr.sync hw
  have hgo : ∀ y, (r.regs y).genEventIdGo.eventIdGo =
      GenEventIdGo.go r.sync.feeBusy r.sync.feeReady y := by
    intro y
    rw [go_regs hr]
    rfl
  refine ⟨fun x hx => ?_, fun y hy => GenEventIdGo.exists_dead_time hand ((hgo y).symm.trans hy)⟩
  obtain ⟨y, hxy, hyx, hy⟩ := GenEventIdGo.first_go hand hx
  exact ⟨y, hxy, hyx, (hgo y).trans hy⟩

/-- The first event of `twoHits` is given its go. -/
theorem twoHits_go : ∃ y, 2 < y ∧ y ≤ 5 ∧ (twoHits.regs y).genEventIdGo.eventIdGo = true :=
  (dead_time_goes twoHits_takesData.reset twoHits_takesData.wired).1 2 (by decide +kernel)

/-- **One id for each dead time.**  If the dead times begin far enough apart, each is answered by
one transmission within seven cycles, there are no other transmissions, and the id that is sent is
the number of the dead times before. -/
theorem dead_times_numbered (g : EventId.Run.Generics 32 R) (hr : r.FromReset)
    (hw : r.sync.Wired disabled) (hnone : ∀ t, (r.inp t).updateEventId = false)
    (hfar : Gen.Run.FarApart R r.sync.feeBusy) :
    Answered (Rises r.sync.feeBusy) r.gen.Starts 7 ∧
      ∀ x y, Rises r.sync.feeBusy x → r.gen.Starts y → x < y → y ≤ x + 7 →
        r.gen.sentId y = BitVec.ofNat 32 (Nat.count (Rises r.sync.feeBusy) x) := by
  have hand := Sync.Run.handshake hr.sync hw
  have hwired := gen_wired hr hnone
  exact ⟨Gen.Run.answered g hwired hand hfar,
    fun x y hx hy hxy hyx => Gen.Run.sentId_of_rises g hwired hand hfar hx hy hxy hyx⟩

/-- The dead times of `twoHits` are far enough apart. -/
theorem twoHits_numbered : Answered (Rises twoHits.sync.feeBusy) twoHits.gen.Starts 7 :=
  (dead_times_numbered ⟨by decide, by decide, by decide, by decide⟩ twoHits_takesData.reset
    twoHits_takesData.wired twoHits_takesData.noUpdate
      (twoHits_takesData.farApart (by decide) (by decide))).1

end TrackerFpga.System.Run
