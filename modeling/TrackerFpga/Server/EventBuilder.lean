import Mathlib.Data.Finset.Card
import Mathlib.Order.Interval.Finset.Nat
import TrackerFpga.Lib.InStep
import TrackerFpga.Server.DataEmitter

/-!
# The messages are the events

If every core numbers its packets `0`, `1`, `2`, … by their ids, then message `k` holds packet `k`
of every core, and the messages are published in this order, however the reads of the cores are
mixed (`builds_events`).  As many messages are published as the slowest core has returned packets;
what the other cores have returned beyond that is held.
-/

namespace TrackerFpga.Server.DataEmitter

open Grouping

variable {n : ℕ} {e e' : DataEmitter n} {s : Grouper (Fin n) ℤ (List Word)} {c : FifoRead n}
  {cs : List (FifoRead n)}

/-- The packets that were read of a core, in order. -/
def readsOf (cs : List (FifoRead n)) (i : Fin n) : List (List Word) :=
  (cs.filter fun c => c.success = 0 ∧ c.core = i).map fun c => c.data.toList

/-- The id of the packet with number `k`. -/
def idOf (k : ℕ) : ℤ := (BitVec.ofNat 32 k).toInt

/-- After these calls the first `m` events have been published and nothing else, message by message
and core by core, and what was read beyond them is held. -/
structure BuildsEvents (cs : List (FifoRead n)) (e : DataEmitter n) (m : ℕ) : Prop where
  le : ∀ i, m ≤ (readsOf cs i).length
  least : ∃ i, (readsOf cs i).length = m
  sent : List.Forall₂ (fun msg k => ∀ i, coreWords msg i = (readsOf cs i)[k]?) e.sent
    (List.range m)
  held : ∀ k < 2 ^ 32, ∀ i, e.heldOf i (idOf k) = if m ≤ k then (readsOf cs i)[k]? else none

/-! ## Messages and groups -/

/-- The messages published are the groups put out, and the map has no packet without data. -/
structure Tracks (e : DataEmitter n) (s : Grouper (Fin n) ℤ (List Word)) : Prop where
  publishes : List.Forall₂ (fun msg (g : ℤ × (Fin n → Option (List Word))) =>
    ∀ i, coreWords msg i = g.2 i) e.sent s.out
  present : ∀ (id : ℤ) p, e.packets[id]? = some p → ∃ i, s.held id i ≠ none

lemma tracks_init : (init : DataEmitter n).Tracks .empty :=
  ⟨.nil, fun id p hp => by simp [init] at hp⟩

lemma Matches.tracks_readFifo (h : e.Matches s) (htracks : e.Tracks s) (hn : n ≤ 12)
    (hsuccess : c.success = 0)
    (hyoung : e.Sweeps c → ∀ (id : ℤ) p, e.packets[id]? = some p →
      timedOut c.currentTime p = false)
    (he : e.readFifo c = some e') : e'.Tracks (s.put (item c)) := by
  obtain ⟨e₁, p, hfind, hp, hother, hsent, hid, hshows⟩ := h.findPacket hsuccess hyoung
  have hset : p.setVataData c.core c.data c.nFifo = (true,
      { p with eventId := DataPacket.eventIdOf c.data }.store c.core c.data c.nFifo) :=
    DataPacket.setVataData_of_id hid
  have hstored := hshows.store (DataPacket.eventIdOf c.data)
  obtain ⟨hpub, hpresent⟩ := htracks
  unfold DataEmitter.readFifo at he
  rw [if_pos hsuccess, hfind] at he
  simp only [Option.bind_eq_bind, Option.bind_some, hp, hset] at he
  -- the packets of the other ids are those of before
  have hrest : ∀ (held : ℤ → Fin n → Option (List Word)) (id : ℤ) (q : DataPacket n),
      id ≠ DataPacket.eventIdOf c.data → (∀ k, k ≠ (item c).key → held k = s.held k) →
        e₁.packets[id]? = some q → ∃ i, held id i ≠ none := by
    intro held id q hne hheld hq
    rw [hother id hne] at hq
    rw [hheld id hne]
    exact hpresent id q hq
  unfold Grouper.put
  by_cases hfull : ∀ i, (s.group (item c) i).isSome
  · rw [if_pos (hstored.isDone_iff.mpr hfull)] at he
    obtain rfl := Option.some.inj he
    rw [if_pos hfull]
    refine ⟨?_, fun id q hq => ?_⟩
    · simp only [DataEmitter.erase, sendData, hsent]
      exact List.rel_append hpub (.cons (fun i => hstored.coreWords hn _ i) .nil)
    · simp only [DataEmitter.erase, sendData, Std.TreeMap.getElem?_erase,
        Std.TreeMap.getElem?_insert, Std.compare_eq_iff_eq] at hq
      split_ifs at hq with heq
      exact hrest _ id q (Ne.symm heq) (fun k hk => Function.update_of_ne hk _ _) hq
  · rw [if_neg (fun hdone => hfull (hstored.isDone_iff.mp hdone))] at he
    obtain rfl := Option.some.inj he
    rw [if_neg hfull]
    refine ⟨by simpa only [hsent] using hpub, fun id q hq => ?_⟩
    simp only [Std.TreeMap.getElem?_insert, Std.compare_eq_iff_eq] at hq
    split_ifs at hq with heq
    · subst heq
      refine ⟨c.core, ?_⟩
      have hkey : (item c).key = DataPacket.eventIdOf c.data := rfl
      simp only [← hkey, Function.update_self, Grouper.group]
      simp [item]
    · exact hrest _ id q (Ne.symm heq) (fun k hk => Function.update_of_ne hk _ _) hq

lemma Matches.tracks_run (h : e.Matches s) (htracks : e.Tracks s) (hn : n ≤ 12)
    (hyoung : e.NoEviction cs) (he : e.run cs = some e') : e'.Tracks (s.run (items cs)) := by
  induction cs generalizing e s with
  | nil =>
      obtain rfl := Option.some.inj he
      exact htracks
  | cons c cs ih =>
      obtain ⟨hfirst, hrest⟩ := hyoung
      rw [DataEmitter.run, List.foldlM_cons] at he
      by_cases hsuccess : c.success = 0
      · have hitems : items (c :: cs) = item c :: items cs := by
          simp [items, hsuccess]
        obtain ⟨e₁, he₁, hm⟩ := h.readFifo hn hsuccess hfirst
        rw [he₁] at he
        rw [hitems]
        exact ih hm (h.tracks_readFifo htracks hn hsuccess hfirst he₁) (hrest e₁ he₁) he
      · have hitems : items (c :: cs) = items cs := by
          simp [items, hsuccess]
        have he₁ := readFifo_of_failure (e := e) hsuccess
        rw [he₁] at he
        rw [hitems]
        exact ih h htracks (hrest e he₁) he

/-! ## Numbered packets -/

lemma valuesOf_items (cs : List (FifoRead n)) (i : Fin n) :
    valuesOf (items cs) i = readsOf cs i := by
  rw [valuesOf, items, List.filter_map, List.map_map, List.filter_filter, readsOf]
  congr 1
  refine List.filter_congr fun c _ => ?_
  by_cases hsuccess : c.success = 0 <;> by_cases hcore : c.core = i <;> simp [item, hsuccess, hcore]

/-- An item has the id of its words. -/
lemma key_of_mem_items {x : Item (Fin n) ℤ (List Word)} (hx : x ∈ items cs) :
    x.key = idOfWords x.value := by
  obtain ⟨c, -, rfl⟩ := List.mem_map.mp hx
  rfl

lemma idOf_injective {j k : ℕ} (hj : j < 2 ^ 32) (hk : k < 2 ^ 32) (h : idOf j = idOf k) :
    j = k := by
  have hnat := congrArg BitVec.toNat (BitVec.eq_of_toInt_eq h)
  rwa [BitVec.toNat_ofNat, BitVec.toNat_ofNat, Nat.mod_eq_of_lt hj, Nat.mod_eq_of_lt hk] at hnat

/-- Each core numbers its packets by their ids. -/
structure NumberedReads (cs : List (FifoRead n)) : Prop where
  id : ∀ i k words, (readsOf cs i)[k]? = some words → idOfWords words = idOf k
  few : ∀ i, (readsOf cs i).length ≤ 2 ^ 32

lemma readsOf_isPrefix {ys : List (FifoRead n)} (h : ys <+: cs) (i : Fin n) :
    readsOf ys i <+: readsOf cs i := (h.filter _).map _

lemma NumberedReads.of_prefix {ys : List (FifoRead n)} (h : NumberedReads cs) (hys : ys <+: cs) :
    NumberedReads ys where
  id i k words hget :=
    h.id i k words (PacketQueue.getElem?_of_isPrefix (readsOf_isPrefix hys i) hget)
  few i := (readsOf_isPrefix hys i).length_le.trans (h.few i)

lemma NumberedReads.numberedBy_items (h : NumberedReads cs) : NumberedBy idOf (items cs) := by
  intro ys x hprefix
  have hmem : x ∈ items cs := hprefix.subset (by simp)
  have hget := getElem?_of_prefix hprefix
  rw [valuesOf_items] at hget
  rw [key_of_mem_items hmem, h.id _ _ _ hget]

/-- What the grouper has done with the packets. -/
lemma NumberedReads.exists_inStep (h : NumberedReads cs) (hpos : 0 < n) :
    ∃ m, Grouper.InStep idOf (2 ^ 32) (items cs) m (Grouper.empty.run (items cs)) := by
  have : Nonempty (Fin n) := ⟨⟨0, hpos⟩⟩
  exact Grouper.exists_inStep_run (fun j k => idOf_injective) h.numberedBy_items
    fun i => by rw [valuesOf_items]; exact h.few i

/-- What the emitter holds and has published after the calls, if nothing is evicted. -/
lemma NumberedReads.exists_buildsEvents (h : NumberedReads cs) (hpos : 0 < n) (hn : n ≤ 12)
    (hyoung : init.NoEviction cs) : ∃ e m, init.run cs = some e ∧ BuildsEvents cs e m := by
  obtain ⟨e, he, hm⟩ := matches_init.run hn hyoung
  have hpub := (matches_init.tracks_run tracks_init hn hyoung he).publishes
  obtain ⟨m, hstep⟩ := h.exists_inStep hpos
  refine ⟨e, m, he, fun i => ?_, ?_, ?_, fun k hk i => ?_⟩
  · rw [← valuesOf_items]
    exact hstep.le i
  · obtain ⟨i, hi⟩ := hstep.least
    exact ⟨i, by rw [← valuesOf_items, hi]⟩
  · rw [hstep.out, List.forall₂_map_right_iff] at hpub
    simpa only [valuesOf_items] using hpub
  · rw [hm.heldOf_eq, hstep.held k hk, valuesOf_items]

/-! ## Cores that keep pace -/

/-- No core is ever more than five packets ahead of another. -/
def KeepPace (cs : List (FifoRead n)) : Prop :=
  ∀ ys, ys <+: cs → ∀ i j, (readsOf ys i).length ≤ (readsOf ys j).length + maxPacketMapSize

lemma noEviction_concat (hcs : e.NoEviction cs)
    (hlast : ∀ e', e.run cs = some e' → e'.Sweeps c →
      ∀ (id : ℤ) p, e'.packets[id]? = some p → timedOut c.currentTime p = false) :
    e.NoEviction (cs ++ [c]) := by
  induction cs generalizing e with
  | nil => exact ⟨hlast e rfl, fun _ _ => trivial⟩
  | cons c' cs ih =>
      obtain ⟨hfirst, hrest⟩ := hcs
      refine ⟨hfirst, fun e₁ he₁ => ih (hrest e₁ he₁) fun e' he' => hlast e' ?_⟩
      rw [DataEmitter.run, List.foldlM_cons, he₁]
      exact he'

/-- The ids of the map lie between the slowest core and the fastest. -/
lemma size_le_of_tracks {m d : ℕ} (hm : e.Matches s) (htracks : e.Tracks s)
    (hstep : Grouper.InStep idOf (2 ^ 32) (items cs) m s)
    (hahead : ∀ i, (readsOf cs i).length ≤ m + d) : e.packets.size ≤ d := by
  have hkeys : e.packets.keys.toFinset ⊆ (Finset.Ico m (m + d)).image idOf := by
    intro id hid
    have hmem : id ∈ e.packets := Std.TreeMap.mem_keys.mp (List.mem_toFinset.mp hid)
    obtain ⟨i, hi⟩ := htracks.present id _ (Std.TreeMap.getElem?_eq_some_getElem hmem)
    obtain ⟨words, hwords⟩ := Option.ne_none_iff_exists'.mp hi
    -- an id is the id of some number
    obtain ⟨k, hk, rfl⟩ : ∃ k < 2 ^ 32, idOf k = id := by
      refine ⟨(words.getD 0 0#32).toNat, BitVec.isLt _, ?_⟩
      rw [idOf, BitVec.ofNat_toNat, BitVec.setWidth_eq, ← hm.ids _ _ _ hwords]
      rfl
    rw [hstep.held k hk, valuesOf_items] at hwords
    split_ifs at hwords with hmk
    have hlt := (List.getElem?_eq_some_iff.mp hwords).choose
    exact Finset.mem_image_of_mem _ (Finset.mem_Ico.mpr ⟨hmk, hlt.trans_le (hahead i)⟩)
  calc e.packets.size = e.packets.keys.toFinset.card := by
        rw [List.toFinset_card_of_nodup Std.TreeMap.nodup_keys, Std.TreeMap.length_keys]
    _ ≤ ((Finset.Ico m (m + d)).image idOf).card := Finset.card_le_card hkeys
    _ ≤ (Finset.Ico m (m + d)).card := Finset.card_image_le
    _ = d := by rw [Nat.card_Ico, Nat.add_sub_cancel_left]

/-- Then the loop over old packets is never come to. -/
lemma KeepPace.noEviction (hpace : KeepPace cs) (h : NumberedReads cs) (hpos : 0 < n)
    (hn : n ≤ 12) : init.NoEviction cs := by
  have hall : ∀ ys, ys <+: cs → init.NoEviction ys := by
    intro ys
    induction ys using List.reverseRecOn with
    | nil => exact fun _ => trivial
    | append_singleton ys c ih =>
        intro hprefix
        have hys : ys <+: cs := (List.prefix_append ys [c]).trans hprefix
        refine noEviction_concat (ih hys) fun e' he' hsweeps => absurd hsweeps.2.2 (not_lt.mpr ?_)
        obtain ⟨e₁, he₁, hm⟩ := matches_init.run hn (ih hys)
        obtain rfl : e₁ = e' := Option.some.inj (he₁.symm.trans he')
        obtain ⟨m, hstep⟩ := (h.of_prefix hys).exists_inStep hpos
        obtain ⟨j, hj⟩ := hstep.least
        rw [valuesOf_items] at hj
        refine size_le_of_tracks hm (matches_init.tracks_run tracks_init hn (ih hys) he') hstep
          fun i => ?_
        have hahead := hpace ys hys i j
        omega
  exact hall cs List.prefix_rfl

/-- **The events are built.**  For every sequence of calls for up to twelve cores, whatever their
order and their times, in which each core numbers its packets by their ids and none is ever more
than five packets ahead of another. -/
theorem builds_events (hpos : 0 < n) (hn : n ≤ 12) (cs : List (FifoRead n))
    (h : NumberedReads cs) (hpace : KeepPace cs) :
    ∃ e m, init.run cs = some e ∧ BuildsEvents cs e m :=
  h.exists_buildsEvents hpos hn (hpace.noEviction h hpos hn)

/-- Packet `k` of core `i`. -/
def numberedPacket (i : Fin 2) (k : ℕ) : FifoRead 2 :=
  { packetFive i 1#32 with data := (Vector.replicate 19 1#32).setIfInBounds 0 (BitVec.ofNat 32 k) }

/-- Core `0` returns two packets before core `1` returns its first one. -/
def unevenReads : List (FifoRead 2) :=
  [numberedPacket ⟨0, Nat.two_pos⟩ 0, numberedPacket ⟨0, Nat.two_pos⟩ 1,
    numberedPacket ⟨1, Nat.one_lt_two⟩ 0]

lemma length_readsOf_le (cs : List (FifoRead n)) (i : Fin n) :
    (readsOf cs i).length ≤ cs.length := by
  rw [readsOf, List.length_map]
  exact List.length_filter_le _ _

lemma unevenReads_numbered : NumberedReads unevenReads where
  id i k words hget := by
    have hall : ∀ i : Fin 2, ∀ k < 3,
        ((readsOf unevenReads i)[k]?).all fun words => idOfWords words = idOf k := by decide
    have hk := (List.getElem?_eq_some_iff.mp hget).choose.trans_le (length_readsOf_le _ _)
    have hid := hall i k hk
    rw [hget] at hid
    exact of_decide_eq_true hid
  few i := (length_readsOf_le _ _).trans (by decide)

/-- The first event is published, and the second packet of core `0` is held. -/
theorem unevenReads_built : ∃ e m, init.run unevenReads = some e ∧ BuildsEvents unevenReads e m :=
  builds_events (by decide) (by decide) _ unevenReads_numbered fun ys hys i j => by
    have hlen := (length_readsOf_le ys i).trans hys.length_le
    have hthree : unevenReads.length ≤ maxPacketMapSize := by decide
    omega

end TrackerFpga.Server.DataEmitter
