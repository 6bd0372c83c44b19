import Std.Data.TreeMap.Lemmas
import TrackerFpga.Lib.Grouping
import TrackerFpga.Server.DataPacket

/-!
# `DataEmitter`: collecting the packets of an event

`read_fifo` puts a packet that was read into the `DataPacket` of its event id, and publishes and
forgets that one when every core has answered.  Ids are `long int`s of 32 bits, so those from
`2 ^ 31` on are negative.

`set_vata_data` does not ask whether the core has answered already: a second packet with the same
id writes over the first.  `conserves_iff` says that nothing else is ever lost.  The emitter is a
`Grouper` of packets by event id (`Matches`), and the result is the one of that library.
-/

namespace TrackerFpga.Server

open ByteCodec Grouping

/-! ## The emitter -/

/-- `MAX_PACKET_MAP_SIZE`. -/
def maxPacketMapSize : ℕ := 5

/-- `PACKET_REMOVE_TIMEOUT_MS`. -/
def packetRemoveTimeoutMs : ℕ := 1000

/-- The map of pending packets, and the messages published, oldest first. -/
structure DataEmitter (n : ℕ) where
  packets : Std.TreeMap ℤ (DataPacket n)
  sent : List (List Byte)

/-- What one call of `read_fifo` gets: the core, the result of `read_fifo_full_packet` and the
words in `data_buffer`, the answer of `get_n_fifo`, the clock in `send_then_erase_old_packets` and
in the constructor of `DataPacket`, and the buffers `new` leaves uninitialised. -/
structure FifoRead (n : ℕ) where
  core : Fin n
  success : ℤ
  data : AsicData
  nFifo : BitVec 32
  currentTime : BitVec 64
  packetTime : BitVec 64
  uninitialised : Fin n → AsicData

namespace DataEmitter

variable {n : ℕ}

/-- The emitter at its start. -/
def init : DataEmitter n := ⟨∅, []⟩

/-- `DataEmitter::send_data`. -/
def sendData (e : DataEmitter n) (p : DataPacket n) : DataEmitter n :=
  { e with sent := e.sent ++ [p.setAsicFlags.toMsg p.setAsicFlags.getPacketSize] }

/-- `packets.erase(id)`. -/
def erase (e : DataEmitter n) (id : ℤ) : DataEmitter n := { e with packets := e.packets.erase id }

/-- `(current_time - packet->packet_time) > timeout`. -/
def timedOut (currentTime : BitVec 64) (p : DataPacket n) : Bool :=
  BitVec.ofNat 64 (1000000 * packetRemoveTimeoutMs) < currentTime - p.packetTime

/-- An entry of the map. -/
abbrev MapEntry (n : ℕ) := ℤ × DataPacket n

/-- The loop of `erase_old_packets` and of `send_then_erase_old_packets`; `evict` is what it does
with an old entry.  `it++` is undefined if the element of `it` has been erased: `none`. -/
def sweepFrom (evict : DataEmitter n → MapEntry n → DataEmitter n) (currentTime : BitVec 64) :
    List (MapEntry n) → DataEmitter n → Option (DataEmitter n)
  | [], e => some e
  | it :: rest, e =>
      let e := if timedOut currentTime it.2 then evict e it else e
      if e.packets.contains it.1 then sweepFrom evict currentTime rest e else none

/-- An old entry of `erase_old_packets`. -/
def eraseEntry (e : DataEmitter n) (it : MapEntry n) : DataEmitter n := e.erase it.1

/-- `DataEmitter::erase_old_packets`. -/
def eraseOldPackets (e : DataEmitter n) (currentTime : BitVec 64) : Option (DataEmitter n) :=
  sweepFrom eraseEntry currentTime e.packets.toList e

/-- An old entry of `send_then_erase_old_packets`. -/
def sendThenEraseEntry (e : DataEmitter n) (it : MapEntry n) : DataEmitter n :=
  (e.sendData it.2).erase it.1

/-- `DataEmitter::send_then_erase_old_packets`. -/
def sendThenEraseOldPackets (e : DataEmitter n) (currentTime : BitVec 64) :
    Option (DataEmitter n) :=
  sweepFrom sendThenEraseEntry currentTime e.packets.toList e

/-- The check of `read_fifo` that not too many stale packets are held. -/
def checkStale (e : DataEmitter n) (currentTime : BitVec 64) : Option (DataEmitter n) :=
  if maxPacketMapSize < e.packets.size then e.sendThenEraseOldPackets currentTime else some e

/-- The part of `read_fifo` that makes sure that there is a packet of this id. -/
def findPacket (e : DataEmitter n) (c : FifoRead n) : Option (DataEmitter n) :=
  if e.packets.contains (DataPacket.eventIdOf c.data) then
    some e
  else do
    let e ← e.checkStale c.currentTime
    some { e with packets := e.packets.insert (DataPacket.eventIdOf c.data)
                    (DataPacket.new c.packetTime c.uninitialised) }

/-- `DataEmitter::read_fifo`; `none` where it is undefined. -/
def readFifo (e : DataEmitter n) (c : FifoRead n) : Option (DataEmitter n) :=
  if c.success = 0 then do
    let currentEventId := DataPacket.eventIdOf c.data
    let e ← e.findPacket c
    let packet ← e.packets[currentEventId]?
    -- the packet is changed through its pointer, also if the data is not accepted
    let packet := (packet.setVataData c.core c.data c.nFifo).2
    let e := { e with packets := e.packets.insert currentEventId packet }
    if packet.isDone then
      some ((e.sendData packet).erase currentEventId)
    else
      some e
  else
    some e

/-- A sequence of calls of `read_fifo`. -/
def run (e : DataEmitter n) (cs : List (FifoRead n)) : Option (DataEmitter n) :=
  cs.foldlM readFifo e

/-! ## What was returned, published and held -/

/-- The words of a core in a published message. -/
def coreWords (msg : List Byte) (i : Fin n) : Option (List Word) := do
  let r ← decodeMsg msg
  let core ← r.1.cores[i.val]?
  let d ← core
  pure d.1

/-- The event id of the words of a core. -/
def idOfWords (words : List Word) : ℤ := (words.getD 0 0#32).toInt

/-- The packets of core `i` with this id that `read_fifo_full_packet` returned, in order. -/
def returnedOf (cs : List (FifoRead n)) (i : Fin n) (id : ℤ) : List (List Word) :=
  cs.filterMap fun c =>
    if c.success = 0 ∧ c.core = i ∧ DataPacket.eventIdOf c.data = id then some c.data.toList
    else none

/-- The packets with this id that the published messages contain as the data of core `i`. -/
def emittedOf (e : DataEmitter n) (i : Fin n) (id : ℤ) : List (List Word) :=
  e.sent.filterMap fun msg => (coreWords msg i).filter fun words => idOfWords words = id

/-- The packet that the map holds as the data of core `i` under this id. -/
def heldOf (e : DataEmitter n) (i : Fin n) (id : ℤ) : Option (List Word) := do
  let p ← e.packets[id]?
  if p.needData i then none else some (p.asicData i).toList

/-- Every packet that was returned is in one published message or still held, in the order of
return. -/
def Conserves (cs : List (FifoRead n)) (e : DataEmitter n) : Prop :=
  ∀ i id, returnedOf cs i id = e.emittedOf i id ++ (e.heldOf i id).toList

/-- The call comes to `send_then_erase_old_packets`. -/
def Sweeps (e : DataEmitter n) (c : FifoRead n) : Prop :=
  c.success = 0 ∧ e.packets.contains (DataPacket.eventIdOf c.data) = false ∧
    maxPacketMapSize < e.packets.size

/-- No packet is timed out when `send_then_erase_old_packets` is called. -/
def NoEviction (e : DataEmitter n) : List (FifoRead n) → Prop
  | [] => True
  | c :: cs =>
      (e.Sweeps c → ∀ (id : ℤ) p, e.packets[id]? = some p → timedOut c.currentTime p = false) ∧
        ∀ e', e.readFifo c = some e' → e'.NoEviction cs

/-- The cores that returned a packet with this id, in order. -/
def coresOf (cs : List (FifoRead n)) (id : ℤ) : List (Fin n) :=
  cs.filterMap fun c =>
    if c.success = 0 ∧ DataPacket.eventIdOf c.data = id then some c.core else none

/-- Of the first `n` packets that are returned with an id no two are from one core, nor of the
next `n`, and so on. -/
def NoRepeat (cs : List (FifoRead n)) : Prop :=
  ∀ id r, (((coresOf cs id).drop (n * r)).take n).Nodup

/-! ## The emitter is a grouper -/

/-- What a call puts in, if it returns a packet. -/
def item (c : FifoRead n) : Item (Fin n) ℤ (List Word) :=
  ⟨c.core, DataPacket.eventIdOf c.data, c.data.toList⟩

/-- What a sequence of calls puts in. -/
def items (cs : List (FifoRead n)) : List (Item (Fin n) ℤ (List Word)) :=
  (cs.filter fun c => c.success = 0).map item

/-- The packet holds these words of each core. -/
def Shows (p : DataPacket n) (words : Fin n → Option (List Word)) : Prop :=
  ∃ content, p.Filled content ∧ ∀ i, words i = (content i).map fun d => d.1.toList

/-- The emitter holds and has published what the grouper does. -/
structure Matches (e : DataEmitter n) (s : Grouper (Fin n) ℤ (List Word)) : Prop where
  held : ∀ (id : ℤ) p, e.packets[id]? = some p → p.eventId = id ∧ Shows p (s.held id)
  absent : ∀ id : ℤ, e.packets[id]? = none → s.held id = fun _ => none
  ids : ∀ id i words, s.held id i = some words → idOfWords words = id
  out : ∀ i id, e.emittedOf i id = s.outOf i id

variable {e : DataEmitter n} {s : Grouper (Fin n) ℤ (List Word)} {c : FifoRead n}
  {p : DataPacket n} {words : Fin n → Option (List Word)}

lemma matches_init : (init : DataEmitter n).Matches .empty := by
  refine ⟨fun id p hp => ?_, fun _ _ => rfl, fun _ _ _ h => by simp [Grouper.empty] at h,
    fun _ _ => rfl⟩
  simp [init] at hp

/-! ### Messages -/

/-- The message of a packet contains what the packet shows. -/
lemma Shows.coreWords (h : Shows p words) (hn : n ≤ 12) (size : BitVec 16) (i : Fin n) :
    coreWords (p.setAsicFlags.toMsg size) i = words i := by
  obtain ⟨content, hfilled, hwords⟩ := h
  have hcore : ((List.finRange n).map fun i =>
      (content i).map fun d => (d.1.toList, d.2))[i.val]? =
        some ((content i).map fun d => (d.1.toList, d.2)) := by simp
  rw [DataEmitter.coreWords, (hfilled.setAsicFlags.reads_toMsg (by omega) size).all, hwords]
  simp only [Option.bind_eq_bind, Option.bind_some, DataPacket.message, hcore]
  cases content i <;> rfl

lemma emittedOf_sendData (h : Shows p words) (hn : n ≤ 12) (i : Fin n) (id : ℤ) :
    (e.sendData p).emittedOf i id =
      e.emittedOf i id ++ ((words i).filter fun w => idOfWords w = id).toList := by
  rw [emittedOf, sendData, List.filterMap_append, ← emittedOf, List.filterMap_cons,
    h.coreWords hn, List.filterMap_nil]
  cases (words i).filter fun w => idOfWords w = id <;> rfl

/-! ### One call -/

section Sweep

variable {evict : DataEmitter n → MapEntry n → DataEmitter n} {l : List (MapEntry n)}
  {it : MapEntry n} {t : BitVec 64} {id : ℤ}

lemma contains_of_get (h : e.packets[id]? = some p) : e.packets.contains id = true := by
  rw [Std.TreeMap.contains_eq_isSome_getElem?, h]
  rfl

lemma get_of_mem_toList (h : it ∈ e.packets.toList) : e.packets[it.1]? = some it.2 :=
  Std.TreeMap.mem_toList_iff_getElem?_eq_some.mp h

lemma mem_toList_of_get (h : e.packets[id]? = some p) : (id, p) ∈ e.packets.toList :=
  Std.TreeMap.mem_toList_iff_getElem?_eq_some.mpr h

/-- Where nothing is timed out, the loop does nothing. -/
lemma sweepFrom_of_young (hl : ∀ it ∈ l, e.packets[it.1]? = some it.2)
    (hyoung : ∀ it ∈ l, timedOut t it.2 = false) : sweepFrom evict t l e = some e := by
  induction l with
  | nil => rfl
  | cons it l ih =>
      have hkeep := hyoung it (by simp)
      simp only [sweepFrom, hkeep, Bool.false_eq_true, if_false,
        contains_of_get (hl it (by simp)), if_true]
      exact ih (fun it' h => hl it' (by simp [h])) fun it' h => hyoung it' (by simp [h])

end Sweep

lemma sendThenEraseOldPackets_of_young (currentTime : BitVec 64)
    (h : ∀ (id : ℤ) p, e.packets[id]? = some p → timedOut currentTime p = false) :
    e.sendThenEraseOldPackets currentTime = some e :=
  sweepFrom_of_young (fun _ => get_of_mem_toList)
    fun it hit => h it.1 it.2 (get_of_mem_toList hit)

/-- `findPacket` leaves the other packets alone, and there is one that shows what is held. -/
lemma Matches.findPacket (h : e.Matches s) (hsuccess : c.success = 0)
    (hyoung : e.Sweeps c → ∀ (id : ℤ) p, e.packets[id]? = some p →
      timedOut c.currentTime p = false) :
    ∃ e₁ p, e.findPacket c = some e₁ ∧ e₁.packets[DataPacket.eventIdOf c.data]? = some p ∧
      (∀ id, id ≠ DataPacket.eventIdOf c.data → e₁.packets[id]? = e.packets[id]?) ∧
      e₁.sent = e.sent ∧ (p.eventId < 0 ∨ p.eventId = DataPacket.eventIdOf c.data) ∧
      Shows p (s.held (DataPacket.eventIdOf c.data)) := by
  unfold DataEmitter.findPacket
  rcases hfind : e.packets[DataPacket.eventIdOf c.data]? with - | p
  · have hnew : e.packets.contains (DataPacket.eventIdOf c.data) = false := by
      rw [Std.TreeMap.contains_eq_isSome_getElem?, hfind]
      rfl
    have hstale : e.checkStale c.currentTime = some e := by
      unfold checkStale
      split_ifs with hsize
      · exact sendThenEraseOldPackets_of_young _ (hyoung ⟨hsuccess, hnew, hsize⟩)
      · rfl
    rw [hnew, if_neg Bool.false_ne_true, hstale]
    refine ⟨_, DataPacket.new c.packetTime c.uninitialised, rfl, ?_, fun id hid => ?_, rfl,
      .inl (show (-1 : ℤ) < 0 by decide), _, DataPacket.filled_new _ _, fun i => ?_⟩
    · rw [Std.TreeMap.getElem?_insert_self]
    · rw [Std.TreeMap.getElem?_insert, if_neg]
      exact fun heq => hid (Std.LawfulEqCmp.eq_of_compare heq).symm
    · rw [h.absent _ hfind]
      rfl
  · have hmem : e.packets.contains (DataPacket.eventIdOf c.data) = true := by
      rw [Std.TreeMap.contains_eq_isSome_getElem?, hfind]
      rfl
    obtain ⟨hid, hshows⟩ := h.held _ p hfind
    rw [if_pos hmem]
    exact ⟨e, p, rfl, hfind, fun _ _ => rfl, rfl, .inr hid, hshows⟩

/-- `set_vata_data` puts the words in, over those that were there. -/
lemma Shows.store (h : Shows p (s.held (DataPacket.eventIdOf c.data))) (time : ℤ) :
    Shows ({ p with eventId := time }.store c.core c.data c.nFifo) (s.group (item c)) := by
  obtain ⟨content, hfilled, hwords⟩ := h
  have hnamed : ({ p with eventId := time } : DataPacket n).Filled content :=
    ⟨hfilled.need, hfilled.ndata, hfilled.data⟩
  refine ⟨_, hnamed.store c.core c.data c.nFifo, fun i => ?_⟩
  by_cases hi : i = c.core
  · subst hi
    simp [Grouper.group, item]
  · simp [Grouper.group, item, Function.update_of_ne hi, hwords]

lemma Shows.isDone_iff (h : Shows p words) : p.isDone = true ↔ ∀ i, (words i).isSome := by
  obtain ⟨content, hfilled, hwords⟩ := h
  rw [hfilled.isDone_iff]
  simp [hwords]

/-- The packet of one id is replaced by one that shows `words`. -/
lemma Matches.hold {e' : DataEmitter n} {id : ℤ} (h : e.Matches s)
    (hp : e'.packets[id]? = some p) (hid : p.eventId = id) (hshows : Shows p words)
    (hother : ∀ k, k ≠ id → e'.packets[k]? = e.packets[k]?) (hsent : e'.sent = e.sent)
    (hids : ∀ i w, words i = some w → idOfWords w = id) :
    e'.Matches { s with held := Function.update s.held id words } := by
  refine ⟨fun k q hq => ?_, fun k habsent => ?_, fun k i w hw => ?_, fun i k => ?_⟩
  · rcases eq_or_ne k id with rfl | hk
    · rw [hp] at hq
      simp only [← Option.some.inj hq, Function.update_self]
      exact ⟨hid, hshows⟩
    · rw [hother k hk] at hq
      simp only [Function.update_of_ne hk]
      exact h.held k q hq
  · rcases eq_or_ne k id with rfl | hk
    · rw [hp] at habsent
      exact absurd habsent (Option.some_ne_none p)
    · rw [hother k hk] at habsent
      simp only [Function.update_of_ne hk]
      exact h.absent k habsent
  · rcases eq_or_ne k id with rfl | hk
    · simp only [Function.update_self] at hw
      exact hids i w hw
    · simp only [Function.update_of_ne hk] at hw
      exact h.ids k i w hw
  · rw [emittedOf, hsent, ← emittedOf, h.out]
    rfl

/-- The packet of one id, which shows `words`, is published and removed. -/
lemma Matches.publish {e' : DataEmitter n} {id : ℤ} (h : e.Matches s) (hn : n ≤ 12)
    (hp : e'.packets[id]? = none) (hshows : Shows p words)
    (hother : ∀ k, k ≠ id → e'.packets[k]? = e.packets[k]?)
    (hsent : e'.sent = (e.sendData p).sent)
    (hids : ∀ i w, words i = some w → idOfWords w = id) :
    e'.Matches
      { held := Function.update s.held id fun _ => none, out := s.out ++ [(id, words)] } := by
  refine ⟨fun k q hq => ?_, fun k habsent => ?_, fun k i w hw => ?_, fun i k => ?_⟩
  · rcases eq_or_ne k id with rfl | hk
    · rw [hp] at hq
      exact absurd hq.symm (Option.some_ne_none q)
    · rw [hother k hk] at hq
      simp only [Function.update_of_ne hk]
      exact h.held k q hq
  · rcases eq_or_ne k id with rfl | hk
    · simp only [Function.update_self]
    · rw [hother k hk] at habsent
      simp only [Function.update_of_ne hk]
      exact h.absent k habsent
  · rcases eq_or_ne k id with rfl | hk
    · simp at hw
    · simp only [Function.update_of_ne hk] at hw
      exact h.ids k i w hw
  · rw [emittedOf, hsent, ← emittedOf, emittedOf_sendData hshows hn, h.out, Grouper.outOf,
      Grouper.outOf, List.filterMap_append]
    congr 1
    -- every word that is published has the id of its packet
    rcases hw : words i with - | w
    · simp [hw]
    · rcases eq_or_ne id k with rfl | hk
      · simp [hw, hids i w hw]
      · simp [hids i w hw, hk]

/-- A call that returns a packet puts it into the grouper. -/
lemma Matches.readFifo (h : e.Matches s) (hn : n ≤ 12) (hsuccess : c.success = 0)
    (hyoung : e.Sweeps c → ∀ (id : ℤ) p, e.packets[id]? = some p →
      timedOut c.currentTime p = false) :
    ∃ e', e.readFifo c = some e' ∧ e'.Matches (s.put (item c)) := by
  obtain ⟨e₁, p, hfind, hp, hother, hsent, hid, hshows⟩ := h.findPacket hsuccess hyoung
  have hset : p.setVataData c.core c.data c.nFifo = (true,
      { p with eventId := DataPacket.eventIdOf c.data }.store c.core c.data c.nFifo) :=
    DataPacket.setVataData_of_id hid
  have hstored := hshows.store (DataPacket.eventIdOf c.data)
  have hne : ∀ k, k ≠ DataPacket.eventIdOf c.data →
      ¬ compare (DataPacket.eventIdOf c.data) k = .eq :=
    fun k hk heq => hk (Std.LawfulEqCmp.eq_of_compare heq).symm
  have hids : ∀ i w, s.group (item c) i = some w → idOfWords w = DataPacket.eventIdOf c.data := by
    intro i w hw
    rcases eq_or_ne i c.core with rfl | hi
    · simp only [Grouper.group, item, Function.update_self] at hw
      rw [← Option.some.inj hw]
      rfl
    · simp only [Grouper.group, item, Function.update_of_ne hi] at hw
      exact h.ids _ i w hw
  unfold DataEmitter.readFifo Grouper.put
  rw [if_pos hsuccess, hfind]
  simp only [Option.bind_eq_bind, Option.bind_some, hp, hset]
  by_cases hfull : ∀ i, (s.group (item c) i).isSome
  · rw [if_pos (hstored.isDone_iff.mpr hfull), if_pos hfull]
    refine ⟨_, rfl, h.publish hn ?_ hstored (fun k hk => ?_) ?_ hids⟩
    · exact Std.TreeMap.getElem?_erase_self
    · simp only [DataEmitter.erase, sendData, Std.TreeMap.getElem?_erase, if_neg (hne k hk),
        Std.TreeMap.getElem?_insert, hother k hk]
    · rw [DataEmitter.erase, sendData, sendData, hsent]
  · rw [if_neg (fun hdone => hfull (hstored.isDone_iff.mp hdone)), if_neg hfull]
    refine ⟨_, rfl, h.hold Std.TreeMap.getElem?_insert_self rfl hstored (fun k hk => ?_) hsent hids⟩
    simp only [Std.TreeMap.getElem?_insert, if_neg (hne k hk), hother k hk]

/-! ### Every run -/

lemma Matches.heldOf_eq (h : e.Matches s) (i : Fin n) (id : ℤ) : e.heldOf i id = s.held id i := by
  unfold heldOf
  rcases hp : e.packets[id]? with - | p
  · rw [h.absent id hp]
    rfl
  · obtain ⟨-, content, hfilled, hwords⟩ := h.held id p hp
    rw [Option.bind_eq_bind, Option.bind_some, hwords, hfilled.need]
    rcases hi : content i with - | d
    · rfl
    · rw [(hfilled.data i d.1 d.2 hi).1]
      rfl

lemma readFifo_of_failure (h : c.success ≠ 0) : e.readFifo c = some e := if_neg h

lemma Matches.run {cs : List (FifoRead n)} (h : e.Matches s) (hn : n ≤ 12)
    (hyoung : e.NoEviction cs) :
    ∃ e', e.run cs = some e' ∧ e'.Matches (s.run (items cs)) := by
  induction cs generalizing e s with
  | nil => exact ⟨e, rfl, h⟩
  | cons c cs ih =>
      obtain ⟨hfirst, hrest⟩ := hyoung
      by_cases hsuccess : c.success = 0
      · have hitems : items (c :: cs) = item c :: items cs := by
          simp [items, hsuccess]
        obtain ⟨e₁, he₁, hm⟩ := h.readFifo hn hsuccess hfirst
        obtain ⟨e', he', hm'⟩ := ih hm (hrest e₁ he₁)
        rw [hitems]
        refine ⟨e', ?_, hm'⟩
        rw [DataEmitter.run, List.foldlM_cons, he₁]
        exact he'
      · have hitems : items (c :: cs) = items cs := by
          simp [items, hsuccess]
        have he₁ := readFifo_of_failure (e := e) hsuccess
        obtain ⟨e', he', hm'⟩ := ih h (hrest e he₁)
        rw [hitems]
        refine ⟨e', ?_, hm'⟩
        rw [DataEmitter.run, List.foldlM_cons, he₁]
        exact he'

lemma returnedOf_eq (cs : List (FifoRead n)) (i : Fin n) (id : ℤ) :
    returnedOf cs i id = Grouper.itemsOf (items cs) i id := by
  rw [returnedOf, Grouper.itemsOf, items, List.filterMap_map, List.filterMap_filter]
  congr 1
  funext c
  by_cases hsuccess : c.success = 0
  · simp only [hsuccess, decide_true, if_true, true_and]
    congr
  · simp [hsuccess]

lemma coresOf_eq (cs : List (FifoRead n)) (id : ℤ) :
    coresOf cs id = Grouper.sourcesOf (items cs) id := by
  rw [coresOf, Grouper.sourcesOf, items, List.filterMap_map, List.filterMap_filter]
  congr 1
  funext c
  by_cases hsuccess : c.success = 0
  · simp only [hsuccess, decide_true, if_true, true_and]
    congr
  · simp [hsuccess]

lemma noRepeat_iff (cs : List (FifoRead n)) :
    NoRepeat cs ↔ (Grouper.empty : Grouper (Fin n) ℤ (List Word)).Undisturbed (items cs) := by
  simp only [Grouper.undisturbed_iff_inRounds, NoRepeat, coresOf_eq, InRounds, roundOf,
    Fintype.card_fin]

/-- **Conservation.**  For every sequence of calls of `read_fifo` for up to twelve cores, with any
packets and no timeout: the emitter comes to a defined state, and every packet that was returned
is in one published message or still held, in the order of return, exactly if no core repeats an
id before every core has answered it. -/
theorem conserves_iff (hn : n ≤ 12) (cs : List (FifoRead n)) (hyoung : init.NoEviction cs) :
    ∃ e, init.run cs = some e ∧ (Conserves cs e ↔ NoRepeat cs) := by
  obtain ⟨e, he, hm⟩ := matches_init.run hn hyoung
  refine ⟨e, he, ?_⟩
  rw [noRepeat_iff, ← Grouper.kept_run_iff]
  refine forall_congr' fun i => forall_congr' fun id => ?_
  rw [returnedOf_eq, hm.out, hm.heldOf_eq, eq_comm]
  rfl

/-- A packet of id 5 that core `i` returns. -/
def packetFive (i : Fin 2) (word : Word) : FifoRead 2 where
  core := i
  success := 0
  data := (Vector.replicate 19 word).set 0 5#32
  nFifo := 0#32
  currentTime := 0#64
  packetTime := 0#64
  uninitialised _ := Vector.replicate 19 0#32

/-- The emitter after these calls. -/
def ran (cs : List (FifoRead 2)) : DataEmitter 2 := (init.run cs).getD init

lemma noEviction_pair (a b : FifoRead 2) (h : (init.readFifo a).all fun e => e.packets.size ≤ 5) :
    init.NoEviction [a, b] := by
  refine ⟨fun hsweep => absurd hsweep.2.2 (by decide), fun e he => ⟨fun hsweep => ?_, ?_⟩⟩
  · rw [he, Option.all_some] at h
    exact absurd hsweep.2.2 (not_lt.mpr (of_decide_eq_true h))
  · exact fun _ _ => trivial

/-- Both cores return their packet, and the event is published. -/
theorem pair_conserves : ∃ e, init.run [packetFive 0 1#32, packetFive 1 2#32] = some e ∧
    (Conserves [packetFive 0 1#32, packetFive 1 2#32] e ↔
      NoRepeat [packetFive 0 1#32, packetFive 1 2#32]) :=
  conserves_iff (by decide) _ (noEviction_pair _ _ (by decide))

/-- Core 0 returns two packets of one id before core 1 answers: the first one is lost. -/
theorem repeated_not_conserves : ¬ ∀ (n : ℕ) (cs : List (FifoRead n)), n ≤ 12 →
    init.NoEviction cs → ∃ e, init.run cs = some e ∧ Conserves cs e := by
  intro hclaim
  obtain ⟨e, he, hcons⟩ := hclaim 2 [packetFive 0 1#32, packetFive 0 2#32] (by decide)
    (noEviction_pair _ _ (by decide))
  have hran : e = ran [packetFive 0 1#32, packetFive 0 2#32] := by
    rw [ran, he]
    rfl
  have hlen := congrArg List.length (hcons 0 5)
  rw [hran] at hlen
  exact absurd hlen (by decide)

end DataEmitter

end TrackerFpga.Server
