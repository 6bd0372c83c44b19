import Mathlib.Algebra.Order.BigOperators.Group.List
import Mathlib.Data.List.FinRange
import TrackerFpga.Lib.ByteCodec
import TrackerFpga.Server.FifoReader

/-!
# `DataPacket`: the message of one event

A `DataPacket` collects the 19 words of every core for one event id, and `to_msg` lays them out as
a message.  The size of the message is computed by `get_packet_size` alone, and its bytes by
`to_msg` with a running pointer; both go by `ndata`.

`Filled` says what a packet holds after a list of calls of `set_vata_data`.  `decodeMsg` reads a
message by its layout, and `to_msg_round_trip` says that it gets back what was stored.
-/

namespace TrackerFpga.Server

open ByteCodec

/-! ## The packet -/

/-- `ASIC_NDATA`. -/
def asicNdata : ℕ := nAsicPacket

/-- The words of one core: `u32 data[ASIC_NDATA]`. -/
abbrev AsicData := Vector Word asicNdata

/-- A `DataPacket` of `n = N_VATA` cores. -/
structure DataPacket (n : ℕ) where
  flags : BitVec 16
  ndata : Fin n → BitVec 16
  nfifo : Fin n → BitVec 16
  asicData : Fin n → AsicData
  needData : Fin n → Bool
  nread : ℕ
  /-- A `long int` of the 32-bit processor, `-1` when not set. -/
  eventId : ℤ
  packetTime : BitVec 64

namespace DataPacket

variable {n : ℕ}

/-- The constructor: the time is taken from the clock, and the buffers are not initialised. -/
def new (time : BitVec 64) (uninitialised : Fin n → AsicData) : DataPacket n where
  flags := 0#16
  ndata _ := 0#16
  nfifo _ := 0#16
  asicData := uninitialised
  needData _ := true
  nread := 0
  eventId := -1
  packetTime := time

/-- `(long int)data[0]`. -/
def eventIdOf (data : AsicData) : ℤ := (data.toList.getD 0 0#32).toInt

/-- `(u16)(ASIC_NDATA*sizeof(u32) + sizeof(u16))`. -/
def asicDataSize : BitVec 16 := BitVec.ofNat 16 (asicNdata * 4 + 2)

/-- What `set_vata_data` does once the event id is accepted. -/
def store (p : DataPacket n) (i : Fin n) (data : AsicData) (nFifo : BitVec 32) : DataPacket n :=
  { p with
    asicData := Function.update p.asicData i data
    ndata := Function.update p.ndata i asicDataSize
    nfifo := Function.update p.nfifo i (nFifo.setWidth 16)
    nread := p.nread + 1
    needData := Function.update p.needData i false }

/-- `DataPacket::set_vata_data`: whether the data was taken, and the packet.  `nFifo` is the
answer of `get_n_fifo`. -/
def setVataData (p : DataPacket n) (i : Fin n) (data : AsicData) (nFifo : BitVec 32) :
    Bool × DataPacket n :=
  if p.eventId < 0 then
    (true, { p with eventId := eventIdOf data }.store i data nFifo)
  else if p.eventId ≠ eventIdOf data then
    (false, p)
  else
    (true, p.store i data nFifo)

/-- `DataPacket::is_done`. -/
def isDone (p : DataPacket n) : Bool := (List.finRange n).all fun i => !p.needData i

/-- `DataPacket::get_header_size`: header size, flags and packet time. -/
def getHeaderSize : BitVec 8 := BitVec.ofNat 8 (1 + 2 + 8)

/-- `DataPacket::get_packet_size`. -/
def getPacketSize (p : DataPacket n) : BitVec 16 :=
  (List.finRange n).foldl (fun packetSize i => packetSize + p.ndata i)
    (BitVec.ofNat 16 (2 + getHeaderSize.toNat + 1 + n * 2))

/-- The bytes of `asic_data[i]`. -/
def asicBytes (data : AsicData) : List Byte := data.toList.flatMap fun w => encodeLE 4 w.toNat

/-- What `to_msg` writes for core `i`. -/
def coreBytes (p : DataPacket n) (i : Fin n) : List Byte :=
  if 0#16 < p.ndata i then
    (asicBytes (p.asicData i)).take ((p.ndata i).toNat - 2) ++ encodeLE 2 (p.nfifo i).toNat
  else
    []

/-- `DataPacket::to_msg`: the bytes written from `buf` on. -/
def toMsg (p : DataPacket n) (packetSize : BitVec 16) : List Byte :=
  encodeLE 2 packetSize.toNat ++
  (encodeLE 1 getHeaderSize.toNat ++
  (encodeLE 2 p.flags.toNat ++
  (encodeLE 8 p.packetTime.toNat ++
  (encodeLE 1 (BitVec.ofNat 8 n).toNat ++
  ((List.finRange n).flatMap (fun i => encodeLE 2 (p.ndata i).toNat) ++
  (List.finRange n).flatMap p.coreBytes)))))

/-- `DataPacket::set_asic_flags`. -/
def setAsicFlags (p : DataPacket n) : DataPacket n :=
  { p with
    flags := (List.finRange n).foldl
      (fun flags i => if p.needData i then flags ||| 1#16 <<< i.val else flags) p.flags }

end DataPacket

/-! ## The decoder -/

/-- A message by its layout. -/
structure Message where
  size : BitVec 16
  headerSize : BitVec 8
  flags : BitVec 16
  time : BitVec 64
  nAsic : BitVec 8
  ndata : List (BitVec 16)
  /-- Of each core the words and the FIFO count, if there are any. -/
  cores : List (Option (List Word × BitVec 16))

/-- The part of a core with this `ndata`: its data bytes and the FIFO count. -/
def decodeCore (ndata : BitVec 16) : Decoder (Option (List Word × BitVec 16)) :=
  if 0#16 < ndata then do
    let data ← isolate (ndata.toNat - 2) (many (word 32 4) ((ndata.toNat - 2) / 4))
    let nfifo ← word 16 2
    pure (some (data, nfifo))
  else
    pure none

/-- The decoder of a message. -/
def decodeMsg : Decoder Message := do
  let size ← word 16 2
  let headerSize ← word 8 1
  let flags ← word 16 2
  let time ← word 64 8
  let nAsic ← word 8 1
  let ndata ← many (word 16 2) nAsic.toNat
  let cores ← each decodeCore ndata
  pure ⟨size, headerSize, flags, time, nAsic, ndata, cores⟩

/-! ## What a packet holds -/

namespace DataPacket

variable {n : ℕ} {p : DataPacket n} {content : Fin n → Option (AsicData × BitVec 16)}

/-- The packet holds this content: of each core the words and the FIFO count that were stored. -/
structure Filled (p : DataPacket n) (content : Fin n → Option (AsicData × BitVec 16)) : Prop where
  need : ∀ i, p.needData i = (content i).isNone
  ndata : ∀ i, p.ndata i = if (content i).isSome then asicDataSize else 0#16
  data : ∀ i d c, content i = some (d, c) → p.asicData i = d ∧ p.nfifo i = c

lemma filled_new (time : BitVec 64) (uninitialised : Fin n → AsicData) :
    (new time uninitialised).Filled fun _ => none :=
  ⟨fun _ => rfl, fun _ => rfl, by simp⟩

/-- `store` puts the data of one core into the content, over what was there. -/
lemma Filled.store (h : p.Filled content) (i : Fin n) (data : AsicData) (nFifo : BitVec 32) :
    (p.store i data nFifo).Filled
      (Function.update content i (some (data, nFifo.setWidth 16))) := by
  constructor
  · intro j
    by_cases hj : j = i
    · subst hj
      simp [DataPacket.store]
    · simpa [DataPacket.store, Function.update_of_ne hj] using h.need j
  · intro j
    by_cases hj : j = i
    · subst hj
      simp [DataPacket.store]
    · simpa [DataPacket.store, Function.update_of_ne hj] using h.ndata j
  · intro j d c hcontent
    by_cases hj : j = i
    · subst hj
      rw [Function.update_self] at hcontent
      obtain ⟨rfl, rfl⟩ := Prod.mk.inj (Option.some.inj hcontent)
      simp [DataPacket.store]
    · rw [Function.update_of_ne hj] at hcontent
      simpa [DataPacket.store, Function.update_of_ne hj] using h.data j d c hcontent

lemma Filled.setAsicFlags (h : p.Filled content) : p.setAsicFlags.Filled content :=
  ⟨h.need, h.ndata, h.data⟩

/-- A packet is done when it holds the data of every core. -/
lemma Filled.isDone_iff (h : p.Filled content) : p.isDone = true ↔ ∀ i, (content i).isSome := by
  simp [isDone, h.need]

/-! ### Its flags -/

/-- Flag `j` is set if it was, or if the packet has no data of core `j`. -/
lemma getLsbD_setAsicFlags (hn : n ≤ 16) (j : Fin n) :
    p.setAsicFlags.flags.getLsbD j = (p.flags.getLsbD j || p.needData j) := by
  have hfold : ∀ (l : List (Fin n)) (flags : BitVec 16),
      (l.foldl (fun flags i => if p.needData i then flags ||| 1#16 <<< i.val else flags)
        flags).getLsbD j = (flags.getLsbD j || (decide (j ∈ l) && p.needData j)) := by
    intro l
    induction l with
    | nil => simp
    | cons i l ih =>
        intro flags
        have hj : (j : ℕ) < 16 := j.isLt.trans_le hn
        rw [List.foldl_cons, ih]
        by_cases hij : i = j
        · subst hij
          cases hneed : p.needData i <;> simp [hj]
        · have hbit : (1#16 <<< i.val).getLsbD j = false := by
            have hne : (i : ℕ) ≠ j := fun heq => hij (Fin.ext heq)
            simp [BitVec.getLsbD_shiftLeft, BitVec.getLsbD_one]
            omega
          cases hneed : p.needData i <;> simp [hbit, Ne.symm hij]
  rw [DataPacket.setAsicFlags]
  simp [hfold]

/-! ### Its bytes -/

@[simp] lemma length_asicBytes (data : AsicData) : (asicBytes data).length = 76 := by
  have hlen : data.toList.length = 19 := data.size_toArray
  simp [asicBytes, hlen]

lemma Filled.coreBytes_none (h : p.Filled content) {i : Fin n} (hi : content i = none) :
    p.coreBytes i = [] := by
  rw [coreBytes, h.ndata, hi]
  rfl

lemma Filled.coreBytes_some (h : p.Filled content) {i : Fin n} {data : AsicData} {c : BitVec 16}
    (hi : content i = some (data, c)) : p.coreBytes i = asicBytes data ++ encodeLE 2 c.toNat := by
  obtain ⟨hdata, hcount⟩ := h.data i data c hi
  have hsize : asicDataSize.toNat - 2 = 76 := rfl
  have htake := List.take_length (l := asicBytes data)
  rw [length_asicBytes] at htake
  rw [coreBytes, h.ndata, hi, hdata, hcount, Option.isSome_some, if_pos rfl, hsize, htake]
  rfl

/-- The bytes written for a core are as many as its `ndata` says. -/
lemma Filled.length_coreBytes (h : p.Filled content) (i : Fin n) :
    (p.coreBytes i).length = (p.ndata i).toNat := by
  rcases hi : content i with - | d
  · rw [h.coreBytes_none hi, h.ndata, hi]
    rfl
  · rw [h.coreBytes_some (hi : content i = some (d.1, d.2)), h.ndata, hi]
    simp [asicDataSize, asicNdata, nAsicPacket]

lemma Filled.ndata_le (h : p.Filled content) (i : Fin n) : (p.ndata i).toNat ≤ 78 := by
  rw [h.ndata]
  split_ifs
  · exact le_of_eq rfl
  · exact Nat.zero_le _

/-- The size is the sum, as long as it fits its 16 bits. -/
lemma toNat_getPacketSize
    (hfits : 14 + 2 * n + ((List.finRange n).map fun i => (p.ndata i).toNat).sum < 2 ^ 16) :
    p.getPacketSize.toNat =
      14 + 2 * n + ((List.finRange n).map fun i => (p.ndata i).toNat).sum := by
  have hfold : ∀ (l : List (Fin n)) (size : BitVec 16),
      (l.foldl (fun packetSize i => packetSize + p.ndata i) size).toNat =
        (size.toNat + (l.map fun i => (p.ndata i).toNat).sum) % 2 ^ 16 := by
    intro l
    induction l with
    | nil =>
        intro size
        simp [Nat.mod_eq_of_lt size.isLt]
    | cons i l ih =>
        intro size
        rw [List.foldl_cons, ih, BitVec.toNat_add, Nat.mod_add_mod, List.map_cons, List.sum_cons,
          Nat.add_assoc]
  have hheader : getHeaderSize.toNat = 11 := rfl
  rw [getPacketSize, hfold, BitVec.toNat_ofNat, hheader, Nat.mod_add_mod]
  omega

lemma length_toMsg (size : BitVec 16) : (p.toMsg size).length =
    14 + 2 * n + ((List.finRange n).map fun i => (p.coreBytes i).length).sum := by
  simp only [toMsg, List.length_append, length_encodeLE, List.length_flatMap, List.map_const',
    List.sum_replicate_nat, List.length_finRange]
  omega

/-- `get_packet_size` and `to_msg` agree. -/
lemma Filled.length_toMsg_eq (h : p.Filled content) (hn : n ≤ 12) (size : BitVec 16) :
    (p.toMsg size).length = p.getPacketSize.toNat := by
  have hsum : ((List.finRange n).map fun i => (p.ndata i).toNat).sum ≤ n * 78 := by
    have hle := List.sum_le_card_nsmul ((List.finRange n).map fun i => (p.ndata i).toNat) 78
      fun k hk => by
        obtain ⟨i, -, rfl⟩ := List.mem_map.mp hk
        exact h.ndata_le i
    simpa using hle
  rw [toNat_getPacketSize (by omega), length_toMsg]
  simp only [h.length_coreBytes]

/-! ### Reading it back -/

lemma reads_asicBytes (data : AsicData) :
    Reads (many (word 32 4) 19) (asicBytes data) data.toList := by
  have hlen : data.toList.length = 19 := data.size_toArray
  have hreads : Reads (many (word 32 4) data.toList.length) (asicBytes data)
      (data.toList.map id) := reads_many fun w _ => reads_word w (by decide)
  rwa [hlen, List.map_id] at hreads

lemma Filled.reads_coreBytes (h : p.Filled content) (i : Fin n) :
    Reads (decodeCore (p.ndata i)) (p.coreBytes i)
      ((content i).map fun d => (d.1.toList, d.2)) := by
  rcases hi : content i with - | d
  · rw [h.coreBytes_none hi, h.ndata, hi]
    exact reads_pure none
  · have hcore : decodeCore asicDataSize = (do
        let data ← isolate 76 (many (word 32 4) 19)
        let nfifo ← word 16 2
        pure (some (data, nfifo))) := rfl
    have hdata := reads_isolate (reads_asicBytes d.1)
    rw [length_asicBytes] at hdata
    rw [h.coreBytes_some (hi : content i = some (d.1, d.2)), h.ndata, hi, Option.isSome_some,
      if_pos rfl, hcore]
    exact reads_bind hdata (reads_bind_pure (reads_word d.2 (by decide)))

/-- The message that a packet is. -/
def message (p : DataPacket n) (content : Fin n → Option (AsicData × BitVec 16))
    (size : BitVec 16) : Message where
  size := size
  headerSize := getHeaderSize
  flags := p.flags
  time := p.packetTime
  nAsic := BitVec.ofNat 8 n
  ndata := (List.finRange n).map p.ndata
  cores := (List.finRange n).map fun i => (content i).map fun d => (d.1.toList, d.2)

lemma Filled.reads_toMsg (h : p.Filled content) (hn : n < 256) (size : BitVec 16) :
    Reads decodeMsg (p.toMsg size) (p.message content size) := by
  have hcount : (BitVec.ofNat 8 n).toNat = n := by
    rw [BitVec.toNat_ofNat, Nat.mod_eq_of_lt hn]
  have hndata : Reads (many (word 16 2) (BitVec.ofNat 8 n).toNat)
      ((List.finRange n).flatMap fun i => encodeLE 2 (p.ndata i).toNat)
      ((List.finRange n).map p.ndata) := by
    have hreads : Reads (many (word 16 2) (List.finRange n).length)
        ((List.finRange n).flatMap fun i => encodeLE 2 (p.ndata i).toNat)
        ((List.finRange n).map p.ndata) := reads_many fun i _ => reads_word _ (by decide)
    rw [List.length_finRange] at hreads
    rwa [hcount]
  exact reads_bind (reads_word size (by decide)) (reads_bind (reads_word _ (by decide))
    (reads_bind (reads_word p.flags (by decide)) (reads_bind (reads_word p.packetTime (by decide))
      (reads_bind (reads_word _ (by decide)) (reads_bind hndata
        (reads_bind_pure (reads_each fun i _ => h.reads_coreBytes i)))))))

/-! ### Storing the data of several cores -/

/-- A call of `set_vata_data`. -/
structure Entry (n : ℕ) where
  core : Fin n
  data : AsicData
  count : BitVec 32

/-- The packet after these calls, if every one returns `true`. -/
def setAll (p : DataPacket n) : List (Entry n) → Option (DataPacket n)
  | [] => some p
  | e :: es =>
      let r := p.setVataData e.core e.data e.count
      if r.1 then r.2.setAll es else none

/-- The content after one more call. -/
def put (content : Fin n → Option (AsicData × BitVec 16)) (e : Entry n) :
    Fin n → Option (AsicData × BitVec 16) :=
  Function.update content e.core (some (e.data, e.count.setWidth 16))

/-- A packet takes data of its own event id, and of any if it has none yet. -/
lemma setVataData_of_id {i : Fin n} {data : AsicData} {nFifo : BitVec 32}
    (h : p.eventId < 0 ∨ p.eventId = eventIdOf data) :
    p.setVataData i data nFifo =
      (true, { p with eventId := eventIdOf data }.store i data nFifo) := by
  unfold setVataData
  split_ifs with hneg hid
  · rfl
  · exact absurd (h.resolve_left hneg) hid
  · rw [← not_not.mp hid]

lemma Filled.setAll {id : ℤ} {es : List (Entry n)} (h : p.Filled content)
    (hp : p.eventId < 0 ∨ p.eventId = id) (hes : ∀ e ∈ es, eventIdOf e.data = id) :
    ∃ q, p.setAll es = some q ∧ q.Filled (es.foldl put content) ∧ q.flags = p.flags ∧
      q.packetTime = p.packetTime := by
  induction es generalizing p content with
  | nil => exact ⟨p, rfl, h, rfl, rfl⟩
  | cons e es ih =>
      have hid := hes e (by simp)
      have hset : p.setVataData e.core e.data e.count =
          (true, { p with eventId := eventIdOf e.data }.store e.core e.data e.count) :=
        setVataData_of_id (by rwa [hid])
      have hnamed : ({ p with eventId := eventIdOf e.data } : DataPacket n).Filled content :=
        ⟨h.need, h.ndata, h.data⟩
      obtain ⟨q, hq, hfilled, hflags, htime⟩ := ih (hnamed.store e.core e.data e.count)
        (.inr hid) fun e' he' => hes e' (by simp [he'])
      refine ⟨q, ?_, hfilled, hflags, htime⟩
      rw [DataPacket.setAll, hset]
      exact hq

lemma foldl_put_of_forall_ne {es : List (Entry n)} {i : Fin n} (h : ∀ e ∈ es, e.core ≠ i) :
    es.foldl put content i = content i := by
  induction es generalizing content with
  | nil => rfl
  | cons e es ih =>
      rw [List.foldl_cons, ih fun e' he' => h e' (by simp [he']), put,
        Function.update_of_ne (h e (by simp)).symm]

/-- What was stored for a core that was stored once. -/
lemma foldl_put_of_mem {es : List (Entry n)} (hcores : (es.map Entry.core).Nodup) {e : Entry n}
    (he : e ∈ es) :
    es.foldl put content e.core = some (e.data, e.count.setWidth 16) := by
  induction es generalizing content with
  | nil => simp at he
  | cons e' es ih =>
      rw [List.map_cons, List.nodup_cons] at hcores
      rw [List.foldl_cons]
      rcases List.mem_cons.mp he with rfl | hmem
      · rw [foldl_put_of_forall_ne, put, Function.update_self]
        exact fun e' he' heq => hcores.1 (List.mem_map.mpr ⟨e', he', heq⟩)
      · exact ih hcores.2 hmem

end DataPacket

/-! ## The round trip -/

/-- The message `m` is that of the packet `p`, created at `time`, in which the data of these cores
and of no others was stored. -/
structure Message.Recovers {n : ℕ} (m : Message) (p : DataPacket n) (time : BitVec 64)
    (es : List (DataPacket.Entry n)) : Prop where
  size : m.size = p.getPacketSize
  time : m.time = time
  nAsic : m.nAsic.toNat = n
  stored : ∀ e ∈ es, m.cores[e.core.val]? = some (some (e.data.toList, e.count.setWidth 16))
  missing : ∀ i : Fin n, (∀ e ∈ es, e.core ≠ i) → m.cores[i.val]? = some none
  flag : ∀ i : Fin n, m.flags.getLsbD i = true ↔ ∀ e ∈ es, e.core ≠ i
  ndata : ∀ i : Fin n, m.flags.getLsbD i = true ↔ m.ndata[i.val]? = some 0#16

/-- **The message round trip.**  For up to twelve cores, whatever is stored in a new packet with
one event id and each core at most once: every call takes the data, `to_msg` writes as many bytes
as `get_packet_size` says, and the decoder gets back the size, the time, the number of cores, and
the words and the FIFO count of every core that was stored. -/
theorem to_msg_round_trip {n : ℕ} (hn : n ≤ 12) (time : BitVec 64)
    (uninitialised : Fin n → AsicData) (es : List (DataPacket.Entry n)) (id : ℤ)
    (hid : ∀ e ∈ es, DataPacket.eventIdOf e.data = id) (hcores : (es.map (·.core)).Nodup) :
    ∃ p, (DataPacket.new time uninitialised).setAll es = some p ∧
      (p.setAsicFlags.toMsg p.setAsicFlags.getPacketSize).length =
        p.setAsicFlags.getPacketSize.toNat ∧
      ∃ m, decodeMsg (p.setAsicFlags.toMsg p.setAsicFlags.getPacketSize) = some (m, []) ∧
        m.Recovers p.setAsicFlags time es := by
  obtain ⟨p, hp, hfilled, hflags, htime⟩ :=
    (DataPacket.filled_new time uninitialised).setAll (.inl (show (-1 : ℤ) < 0 by decide)) hid
  have hfull := hfilled.setAsicFlags
  refine ⟨p, hp, hfull.length_toMsg_eq hn _, _, (hfull.reads_toMsg (by omega) _).all, ?_⟩
  have hflag : ∀ i : Fin n, p.setAsicFlags.flags.getLsbD i = true ↔ ∀ e ∈ es, e.core ≠ i := by
    intro i
    have hnone : p.flags.getLsbD i = false := by
      rw [hflags]
      exact BitVec.getLsbD_zero
    rw [DataPacket.getLsbD_setAsicFlags (by omega), hnone, Bool.false_or, hfilled.need]
    constructor
    · rintro hneed e he rfl
      rw [DataPacket.foldl_put_of_mem hcores he] at hneed
      exact Bool.false_ne_true hneed
    · intro hne
      rw [DataPacket.foldl_put_of_forall_ne hne]
      rfl
  have hcore : ∀ i : Fin n, ((List.finRange n).map fun i =>
      (es.foldl DataPacket.put (fun _ => none) i).map fun d => (d.1.toList, d.2))[i.val]? =
        some ((es.foldl DataPacket.put (fun _ => none) i).map fun d => (d.1.toList, d.2)) := by
    intro i
    simp
  refine ⟨rfl, htime, ?_, fun e he => ?_, fun i hne => ?_, hflag, fun i => ?_⟩
  · rw [DataPacket.message, BitVec.toNat_ofNat]
    exact Nat.mod_eq_of_lt (by omega)
  · rw [DataPacket.message, hcore, DataPacket.foldl_put_of_mem hcores he]
    rfl
  · rw [DataPacket.message, hcore, DataPacket.foldl_put_of_forall_ne hne]
    rfl
  · have hget : ((List.finRange n).map p.setAsicFlags.ndata)[i.val]? =
        some (p.setAsicFlags.ndata i) := by simp
    have hneed : p.setAsicFlags.flags.getLsbD i = p.needData i := by
      rw [DataPacket.getLsbD_setAsicFlags (by omega), hflags]
      simp [DataPacket.new]
    rw [DataPacket.message, hget, hneed, hfilled.need, hfull.ndata]
    rcases es.foldl DataPacket.put (fun _ => none) i with - | d
    · simp
    · simp [DataPacket.asicDataSize, asicNdata, nAsicPacket]

/-- The data of core 1 of two, with 300 words left in its FIFO. -/
def oneOfTwo : List (DataPacket.Entry 2) := [⟨Fin.last 1, Vector.replicate 19 7#32, 300#32⟩]

/-- The message in which core 0 is missing. -/
theorem oneOfTwo_round_trip :
    ∃ p, (DataPacket.new 5#64 fun _ => Vector.replicate 19 0#32).setAll oneOfTwo = some p ∧
      (p.setAsicFlags.toMsg p.setAsicFlags.getPacketSize).length =
        p.setAsicFlags.getPacketSize.toNat ∧
      ∃ m, decodeMsg (p.setAsicFlags.toMsg p.setAsicFlags.getPacketSize) = some (m, []) ∧
        m.Recovers p.setAsicFlags 5#64 oneOfTwo := by
  refine to_msg_round_trip (by decide) 5#64 _ oneOfTwo 7 (fun e he => ?_) (by decide)
  rw [List.mem_singleton.mp he]
  rfl

end TrackerFpga.Server
