import TrackerFpga.Server.EventBuilder
import TrackerFpga.Server.Polling
import TrackerFpga.System.EventIds

/-!
# From the hits to the messages

The cores number their packets by the event ids, the FIFOs keep the packets in order, the polling
returns them whole, and the emitter collects them by their ids.  So each message holds the packets
of one event, of all cores: those of the cycle in which all of them accepted it
(`messages_are_events`).
-/

namespace TrackerFpga.Server.Polling

open Interaction PacketQueue

variable {r : Polling} {m : ℕ}

/-- The packets that the first `m` calls return. -/
def returned (r : Polling) (m : ℕ) : List (List Word) :=
  (List.range m).filterMap fun j => if (r.result j).1 = 0 then some (r.result j).2 else none

lemma returned_succ (r : Polling) (m : ℕ) : r.returned (m + 1) =
    r.returned m ++ if (r.result m).1 = 0 then [(r.result m).2] else [] := by
  rw [returned, List.range_succ, List.filterMap_append, ← returned]
  split_ifs with hsuccess <;> simp [hsuccess]

/-- If every packet has 19 words, the calls return the packets one after the other. -/
lemma aligned_returned (h0 : (r.before 0).read = 0)
    (hlen : ∀ k p, r.Arrived k p → p.length = nAsicPacket) (m : ℕ) :
    r.Aligned m (r.returned m).length ∧
      ∀ k words, (r.returned m)[k]? = some words → r.Arrived k words := by
  induction m with
  | zero => exact ⟨aligned_zero h0, fun k words h => by simp [returned] at h⟩
  | succ m ih =>
      obtain ⟨haligned, harrived⟩ := ih
      rw [returned_succ]
      cases haligned.step with
      | empty _ hresult hnext | short _ _ _ hresult hnext =>
          rw [if_neg hresult, List.append_nil]
          exact ⟨hnext, harrived⟩
      | whole hreturns hnext =>
          rw [if_pos hreturns.status, List.length_append]
          refine ⟨hnext, fun k words hk => ?_⟩
          rw [List.getElem?_append] at hk
          split_ifs at hk with hlt
          · exact harrived k words hk
          · -- the last one is the packet that the call returned
            obtain ⟨hzero, rfl⟩ : k - (r.returned m).length = 0 ∧ (r.result m).2 = words := by
              simpa [List.getElem?_cons] using hk
            obtain rfl : k = (r.returned m).length := by omega
            exact arrived_of_after hreturns.packet
      | long p hp hlong _ _ =>
          rw [hlen _ p hp] at hlong
          exact absurd hlong (lt_irrefl _)

end TrackerFpga.Server.Polling

namespace TrackerFpga.Vata.Run

variable {r : Run} {a k w : ℕ}

/-- The words of the packet that is sent from cycle `w` on. -/
def packetWords (r : Run) (w : ℕ) : List (BitVec 32) :=
  (List.range 19).map fun j => (r.out (w + j)).dataTdata

lemma length_packetWords (r : Run) (w : ℕ) : (r.packetWords w).length = 19 := by
  simp [packetWords]

end TrackerFpga.Vata.Run

namespace TrackerFpga.System.Run

open EventId Server Vata

variable {N R : ℕ} {r : Run N R} {mask : BitVec 12} {h a k w : ℕ}

/-- The receivers are always ready, and no counter is reset. -/
structure Streams (r : Run N R) : Prop where
  ready : ∀ t n, ((r.inp t).sync.cores n).dataTready = true
  counterRst : ∀ t n, ((r.inp t).sync.cores n).counterRst = false
  eventCounterRst : ∀ t n, ((r.inp t).sync.cores n).eventCounterRst = false

/-- The cores are read out: the packets that arrive in the FIFO of a core are those that it sends,
in order, and the packets that `read_fifo` gets of it are those that the polling returns. -/
structure ReadOut (r : Run N R) (polling : Fin N → Polling) (cs : List (FifoRead N)) : Prop where
  start : ∀ n, ((polling n).before 0).read = 0
  arrived : ∀ n k words, (polling n).Arrived k words →
    ∃ a w, (r.sync.core n).PacketAt k a w ∧ words = (r.sync.core n).packetWords w
  reads : ∀ n, ∃ m, DataEmitter.readsOf cs n = (polling n).returned m

namespace TakesData

variable (hd : r.TakesData mask h) (hs : r.Streams)
include hd hs

lemma count_accepts_eq {n : Fin N} (hp : (r.sync.core n).PacketAt k a w) :
    Nat.count (r.sync.core n).Accepts a = k :=
  Vata.Run.count_accepts_eq (hd.core_fromReset n) (fun t => hs.ready t n)
    (fun t => hd.noForce t n) (hd.abortDaq_eq n)
    (hp.sendingSince (hd.core_fromReset n) (fun t => hs.ready t n) fun t => hd.noForce t n) hp

variable (g : EventId.Run.Generics 32 R) (hN : N ≤ 12) (hlong : 64 * R ≤ h + 551)
include g hN hlong

/-- A packet carries its number as id. -/
lemma idOfWords_packetWords {n : Fin N} (hp : (r.sync.core n).PacketAt k a w) :
    DataEmitter.idOfWords ((r.sync.core n).packetWords w) = DataEmitter.idOf k := by
  have hsending := hp.sendingSince (hd.core_fromReset n) (fun t => hs.ready t n)
    fun t => hd.noForce t n
  have hid := hd.word_zero_eq hN hlong g
    (.of_first hsending.accepts hsending.lt hsending.acquiring (hsending.sending 0 (by decide)))
  rw [hd.count_accepts_eq hs hp] at hid
  have hword : ((r.sync.core n).packetWords w).getD 0 0#32 =
      ((r.sync.core n).out (w + 0)).dataTdata := rfl
  rw [DataEmitter.idOfWords, hword, Nat.add_zero, hid, DataEmitter.idOf]

omit g hlong in
/-- The event of a packet is taken by all cores, which have taken as many before. -/
lemma accepts_of_packetAt {m : Fin N} (hp : (r.sync.core m).PacketAt k a w) (n : Fin N) :
    (r.sync.core n).Accepts a ∧ Nat.count (r.sync.core n).Accepts a = k := by
  refine ⟨(Sync.Run.accepts_iff hN hd.reset.sync hd.wired hd.hits m n).mp hp.accepts, ?_⟩
  rw [← hd.count_accepts_eq hs hp]
  exact Sync.Run.count_accepts_together hN hd.reset.sync hd.wired hd.hits n m a

omit g hlong in
/-- Packets with the same number are of the same event, also in different cores. -/
lemma same_event {m n : Fin N} {a' w' : ℕ} (hp : (r.sync.core m).PacketAt k a w)
    (hp' : (r.sync.core n).PacketAt k a' w') : a = a' := by
  obtain ⟨ha, hcount⟩ := hd.accepts_of_packetAt hs hN hp n
  exact Nat.count_injective ha hp'.accepts (hcount.trans (hd.count_accepts_eq hs hp').symm)

end TakesData

/-- **Each message is an event.**  While the instrument takes data and is read out, with no core
more than five packets ahead of another and less than `2 ^ 32` packets of each, the emitter does
not fail, and message `k` holds for each core the nineteen words of its packet `k`; these are the
packets of one event, which all cores accepted in the same cycle. -/
theorem messages_are_events (g : EventId.Run.Generics 32 R) (hpos : 0 < N) (hN : N ≤ 12)
    (hd : r.TakesData mask h) (hlong : 64 * R ≤ h + 551) (hs : r.Streams)
    {polling : Fin N → Polling} {cs : List (FifoRead N)} (hread : r.ReadOut polling cs)
    (hfew : ∀ n, (DataEmitter.readsOf cs n).length ≤ 2 ^ 32) (hpace : DataEmitter.KeepPace cs) :
    ∃ e, DataEmitter.init.run cs = some e ∧
      (∃ n, e.sent.length = (DataEmitter.readsOf cs n).length) ∧
      ∀ k msg, e.sent[k]? = some msg → ∃ a, ∀ n, ∃ w, (r.sync.core n).PacketAt k a w ∧
        DataEmitter.coreWords msg n = some ((r.sync.core n).packetWords w) := by
  have hpacket : ∀ n k words, (DataEmitter.readsOf cs n)[k]? = some words →
      ∃ a w, (r.sync.core n).PacketAt k a w ∧ words = (r.sync.core n).packetWords w := by
    intro n k words hget
    obtain ⟨m, hm⟩ := hread.reads n
    rw [hm] at hget
    refine hread.arrived n k words ((Polling.aligned_returned (hread.start n) ?_ m).2 k words hget)
    intro k p hp
    obtain ⟨a, w, -, rfl⟩ := hread.arrived n k p hp
    exact Vata.Run.length_packetWords _ w
  have hnumbered : DataEmitter.NumberedReads cs := by
    refine ⟨fun n k words hget => ?_, hfew⟩
    obtain ⟨a, w, hp, rfl⟩ := hpacket n k words hget
    exact hd.idOfWords_packetWords hs g hN hlong hp
  obtain ⟨e, m, he, hbuilt⟩ := hnumbered.exists_buildsEvents hpos hN
    (hpace.noEviction hnumbered hpos hN)
  have hlength : e.sent.length = m := by
    rw [hbuilt.sent.length_eq, List.length_range]
  obtain ⟨n, hn⟩ := hbuilt.least
  refine ⟨e, he, ⟨n, hlength.trans hn.symm⟩, fun k msg hmsg => ?_⟩
  have hk : k < m := hlength ▸ (List.getElem?_eq_some_iff.mp hmsg).choose
  have hwords : ∀ n, DataEmitter.coreWords msg n = (DataEmitter.readsOf cs n)[k]? := by
    obtain ⟨hlt, rfl⟩ := List.getElem?_eq_some_iff.mp hmsg
    have hrel := hbuilt.sent.get hlt (by rwa [List.length_range])
    simpa using hrel
  have hpackets : ∀ n, ∃ a w, (r.sync.core n).PacketAt k a w ∧
      DataEmitter.coreWords msg n = some ((r.sync.core n).packetWords w) := by
    intro n
    have hget := List.getElem?_eq_getElem (hk.trans_le (hbuilt.le n))
    obtain ⟨a, w, hp, heq⟩ := hpacket n k _ hget
    exact ⟨a, w, hp, by rw [hwords, hget, heq]⟩
  obtain ⟨a, w, hp, -⟩ := hpackets ⟨0, hpos⟩
  refine ⟨a, fun n => ?_⟩
  obtain ⟨a', w', hp', hcore⟩ := hpackets n
  obtain rfl := hd.same_event hs hN hp hp'
  exact ⟨w', hp', hcore⟩

/-! ## Two events -/

lemma twoHits_streams : twoHits.Streams :=
  ⟨fun _ _ => rfl, fun _ _ => rfl, fun _ _ => rfl⟩

/-- An event is sent in a packet. -/
lemma Takes.packetAt {n : Fin 2} (ht : twoHits.Takes n a w) (hw : w = a + 560) :
    (twoHits.sync.core n).PacketAt (Nat.count (twoHits.sync.core n).Accepts a) a w := by
  have hd := twoHits_takesData
  have hsending : (twoHits.sync.core n).SendingSince a w 18 :=
    (Vata.Run.SendingSince.of_first ht.accepts (by omega)
      (fun u hau hu => hd.acquiring ht.accepts hau (by omega)) ht.first).complete fun _ _ _ => rfl
  obtain ⟨k, hk⟩ := Vata.Run.packetAt_of_sending (hd.core_fromReset n) (fun _ => rfl)
    (fun _ => rfl) (fun _ => rfl) (fun _ => rfl) hsending
  rwa [hd.count_accepts_eq twoHits_streams hk]

/-- The events are sent in the packets `0` and `1`. -/
lemma twoHits_packetAt (n : Fin 2) : (twoHits.sync.core n).PacketAt 0 1 561 ∧
    (twoHits.sync.core n).PacketAt 1 621 1181 := by
  have hd := twoHits_takesData
  obtain ⟨hfirst, hsecond⟩ := twoHits_takes n
  have honly : ∀ u < 621, (twoHits.sync.core n).Accepts u ↔ u = 1 := by
    refine fun u hu => ⟨fun hacc => ?_, ?_⟩
    · rcases Nat.lt_trichotomy u 1 with hlt | heq | hgt
      · have hapart := hd.apart hacc hfirst.accepts hlt
        omega
      · exact heq
      · have hapart := hd.apart hfirst.accepts hacc hgt
        have hapart' := hd.apart hacc hsecond.accepts hu
        omega
    · rintro rfl
      exact hfirst.accepts
  have hone : Nat.count (twoHits.sync.core n).Accepts 1 = 0 :=
    Nat.count_of_forall_not fun u hu hacc => by
      have heq := (honly u (by omega)).mp hacc
      omega
  have htwo : Nat.count (twoHits.sync.core n).Accepts 621 = 1 := by
    rw [Nat.count_eq_card_filter_range, Finset.card_eq_one]
    refine ⟨1, Finset.ext fun u => ?_⟩
    rw [Finset.mem_filter, Finset.mem_range, Finset.mem_singleton]
    refine ⟨fun h => (honly u h.1).mp h.2, ?_⟩
    rintro rfl
    exact ⟨by decide, hfirst.accepts⟩
  have hpacket := hfirst.packetAt rfl
  have hpacket' := hsecond.packetAt rfl
  rw [hone] at hpacket
  rw [htwo] at hpacket'
  exact ⟨hpacket, hpacket'⟩

/-- What the FIFO of a core gets. -/
def twoHitsStored (n : Fin 2) : Stored where
  packets := [(twoHits.sync.core n).packetWords 561, (twoHits.sync.core n).packetWords 1181]
  last := []
  length := by simp [Vata.Run.length_packetWords, nAsicPacket]
  short := by decide
  small := by simp [nAsicPacket]

/-- A call that gets a packet. -/
def readOf (n : Fin 2) (w : ℕ) : FifoRead 2 where
  core := n
  success := 0
  data := ⟨((twoHits.sync.core n).packetWords w).toArray, by simp [asicNdata, nAsicPacket,
    Vata.Run.length_packetWords]⟩
  nFifo := 0#32
  currentTime := 0#64
  packetTime := 0#64
  uninitialised _ := Vector.replicate 19 0#32

/-- The calls for two cores, of which the second is a packet ahead. -/
def twoHitsReads (m n : Fin 2) : List (FifoRead 2) :=
  [readOf n 561, readOf n 1181, readOf m 561, readOf m 1181]

lemma twoHits_readOut : twoHits.ReadOut (fun n => (twoHitsStored n).polling)
    (twoHitsReads 0 1) where
  start _ := rfl
  arrived n k words harrived := by
    obtain ⟨hpacket, hpacket'⟩ := twoHits_packetAt n
    obtain ⟨i, hi⟩ := harrived
    have hget : (twoHitsStored n).all[k]? = some words := hi
    rcases k with - | - | k
    · exact ⟨1, 561, hpacket, (Option.some.inj hget).symm⟩
    · exact ⟨621, 1181, hpacket', (Option.some.inj hget).symm⟩
    · simp [Stored.all, twoHitsStored] at hget
  reads n := by
    refine ⟨2, ?_⟩
    have hreturned : (twoHitsStored n).polling.returned 2 =
        [(twoHits.sync.core n).packetWords 561, (twoHits.sync.core n).packetWords 1181] := rfl
    rw [hreturned]
    obtain rfl | rfl : n = 0 ∨ n = 1 := by omega
    · rfl
    · rfl

/-- Both events are published, each in one message with the packets of both cores. -/
theorem twoHits_published : ∃ e, DataEmitter.init.run (twoHitsReads 0 1) = some e ∧
    (∃ n, e.sent.length = (DataEmitter.readsOf (twoHitsReads 0 1) n).length) ∧
    ∀ k msg, e.sent[k]? = some msg → ∃ a, ∀ n, ∃ w, (twoHits.sync.core n).PacketAt k a w ∧
      DataEmitter.coreWords msg n = some ((twoHits.sync.core n).packetWords w) :=
  messages_are_events ⟨by decide, by decide, by decide, by decide⟩ (by decide) (by decide)
    twoHits_takesData (by decide) twoHits_streams twoHits_readOut
    (fun n => (DataEmitter.length_readsOf_le _ n).trans (by decide))
    fun ys hys i j => by
      have hlen := (DataEmitter.length_readsOf_le ys i).trans hys.length_le
      have hfour : (twoHitsReads 0 1).length ≤ maxPacketMapSize := by decide
      omega

end TrackerFpga.System.Run
