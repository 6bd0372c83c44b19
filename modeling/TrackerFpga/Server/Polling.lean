import TrackerFpga.Server.FifoReader

/-!
# Polling the FIFO without end

A `Polling` is a run of `read_fifo_full_packet` called again and again, with arrivals before every
load and between two calls.  `Resynchronises` is what the data emitter needs of it: a call that
returns `0` returns one whole packet, and every whole packet is returned in time, whatever other
packets are in front of it.

`Aligned` is the invariant while every packet so far had 19 words.  The first packet of another
length ends it: a longer one is returned in part, and a shorter one is never read.
-/

namespace TrackerFpga.Server

open Interaction Mapped PacketQueue

/-- Calls of `read_fifo_full_packet`: the FIFO in which call `i` begins, its result, and the FIFO
it leaves. -/
structure Polling where
  before : ℕ → Fifo
  result : ℕ → ℤ × List Word
  after : ℕ → Fifo
  call : ∀ i, Exec Fifo.env readFifoFullPacket (before i) (result i) (after i)
  between : ∀ i, (after i).Grows (before (i + 1))

namespace Polling

variable {r : Polling} {i j k : ℕ} {p q : List Word}

/-- Call `i` returns packet `k`, of 19 words. -/
structure Returns (r : Polling) (i k : ℕ) : Prop where
  status : (r.result i).1 = 0
  packet : (r.after i).packets[k]? = some (r.result i).2
  length : (r.result i).2.length = nAsicPacket
  position : (r.before i).read = wordsBefore (r.after i).packets k

/-- Every call that returns `0` returns one whole packet of 19 words, and every such packet is
returned by one of as many calls as there are words stored up to its end. -/
structure Resynchronises (r : Polling) : Prop where
  whole : ∀ i, (r.result i).1 = 0 → ∃ k, r.Returns i k
  prompt : ∀ i k p, (r.before i).packets[k]? = some p → p.length = nAsicPacket →
    (r.before i).read ≤ wordsBefore (r.before i).packets k →
    ∃ j, i ≤ j ∧ j < i + (wordsBefore (r.before i).packets (k + 1) - (r.before i).read) ∧
      r.Returns j k

/-- Packet `k` arrives in the run. -/
def Arrived (r : Polling) (k : ℕ) (p : List Word) : Prop := ∃ i, (r.before i).packets[k]? = some p

/-- The first packet that does not have 19 words, if there is one, is shorter, and no packet of
19 words comes after it. -/
def StrayLast (r : Polling) : Prop :=
  ∀ k p, r.Arrived k p → p.length ≠ nAsicPacket →
    (∀ j < k, ∀ q, r.Arrived j q → q.length = nAsicPacket) →
    p.length < nAsicPacket ∧ ∀ j q, k < j → r.Arrived j q → q.length ≠ nAsicPacket

/-! ## Arrivals -/

lemma after_isPrefix (i : ℕ) : (r.before i).packets <+: (r.after i).packets :=
  Fifo.packets_of_exec (r.call i)

lemma before_isPrefix (h : i ≤ j) : (r.before i).packets <+: (r.before j).packets := by
  induction j, h using Nat.le_induction with
  | base => exact List.prefix_rfl
  | succ j _ ih => exact ih.trans ((after_isPrefix j).trans (r.between j).packets)

lemma Arrived.mem_of_le (h : (r.before i).packets[k]? = some p) (hij : i ≤ j) :
    (r.before j).packets[k]? = some p := getElem?_of_isPrefix (before_isPrefix hij) h

lemma Arrived.unique (hp : r.Arrived k p) (hq : r.Arrived k q) : p = q := by
  obtain ⟨i, hi⟩ := hp
  obtain ⟨j, hj⟩ := hq
  have hi' := Arrived.mem_of_le hi (Nat.le_max_left i j)
  have hj' := Arrived.mem_of_le hj (Nat.le_max_right i j)
  exact Option.some.inj (hi'.symm.trans hj')

lemma arrived_of_after (h : (r.after i).packets[k]? = some p) : r.Arrived k p :=
  ⟨i + 1, getElem?_of_isPrefix (r.between i).packets h⟩

/-! ## One call -/

/-- The FIFO is at the boundary in front of packet `k`, and every packet before it had 19 words. -/
structure Aligned (r : Polling) (i k : ℕ) : Prop where
  boundary : (r.before i).Boundary k
  lengths : ∀ j < k, ∃ p, r.Arrived j p ∧ p.length = nAsicPacket

lemma aligned_zero (h : (r.before 0).read = 0) : r.Aligned 0 0 :=
  ⟨⟨Nat.zero_le _, h⟩, fun j hj => absurd hj (Nat.not_lt_zero j)⟩

lemma Aligned.wordsBefore_eq (h : r.Aligned i k) :
    wordsBefore (r.before i).packets k = nAsicPacket * k := by
  refine wordsBefore_eq_mul h.boundary.le fun j hj => ?_
  obtain ⟨p, hp, hlen⟩ := h.lengths j hj
  have hlt := hj.trans_le h.boundary.le
  have hget : (r.before i).packets[j]? = some (r.before i).packets[j] :=
    List.getElem?_eq_getElem hlt
  exact ⟨_, hget, by rw [Arrived.unique ⟨i, hget⟩ hp, hlen]⟩

lemma Aligned.read (h : r.Aligned i k) : (r.before i).read = nAsicPacket * k := by
  rw [h.boundary.read, h.wordsBefore_eq]

lemma Aligned.next (h : r.Aligned i k) (hb : (r.after i).Boundary k) : r.Aligned (i + 1) k :=
  ⟨hb.grows (r.between i), h.lengths⟩

/-- What a call does from an aligned FIFO. -/
inductive Step (r : Polling) (i k : ℕ) : Prop
  | empty (hk : (r.before i).packets.length = k) (hresult : (r.result i).1 ≠ 0)
      (hnext : r.Aligned (i + 1) k)
  | short (p : List Word) (hp : r.Arrived k p) (hlen : p.length < nAsicPacket)
      (hresult : (r.result i).1 ≠ 0) (hnext : r.Aligned (i + 1) k)
  | whole (hreturns : r.Returns i k) (hnext : r.Aligned (i + 1) (k + 1))
  | long (p : List Word) (hp : r.Arrived k p) (hlen : nAsicPacket < p.length)
      (hresult : (r.result i).1 = 0) (hnone : ∀ j, ¬ r.Returns i j)

lemma Aligned.step (h : r.Aligned i k) : r.Step i k := by
  have hcall := Fifo.exec_readFifoFullPacket h.boundary (r.call i)
  have hbefore : wordsBefore (r.after i).packets k = (r.before i).read := by
    rw [wordsBefore_of_isPrefix (after_isPrefix i) h.boundary.le, h.boundary.read]
  generalize hres : r.result i = res at hcall
  cases hcall with
  | empty hk hb => exact .empty hk (by rw [hres]; decide) (h.next hb)
  | short p hp hlen hb =>
      have hpos := List.length_pos_of_ne_nil
        ((r.after i).nonempty p (List.mem_of_getElem? hp))
      exact .short p (arrived_of_after hp) hlen
        (by rw [hres]; exact Int.natCast_ne_zero.mpr hpos.ne') (h.next hb)
  | full p hp hlen hread =>
      rcases Nat.eq_or_lt_of_le hlen with heq | hlong
      · have htake : p.take nAsicPacket = p := by rw [heq, List.take_length]
        rw [htake] at hres
        refine .whole ⟨by rw [hres], by rw [hres, hp], by rw [hres, heq], hbefore.symm⟩
          ⟨Fifo.Boundary.grows ⟨(List.getElem?_eq_some_iff.mp hp).choose, ?_⟩ (r.between i),
            fun j hj => ?_⟩
        · rw [hread, wordsBefore_succ hp, heq]
        · rcases Nat.lt_succ_iff_lt_or_eq.mp hj with hlt | rfl
          · exact h.lengths j hlt
          · exact ⟨p, arrived_of_after hp, heq.symm⟩
      · refine .long p (arrived_of_after hp) hlong (by rw [hres]) fun j hj => ?_
        -- the call began in front of packet `k`, so it could only return that one
        have hj' : j = k := eq_of_wordsBefore_eq (r.after i).nonempty
          (List.getElem?_eq_some_iff.mp hj.packet).choose (List.getElem?_eq_some_iff.mp hp).choose
          (by rw [← hj.position, hbefore])
        have hpacket := hj.packet
        rw [hj', hp] at hpacket
        have hlen' := hj.length
        rw [← Option.some.inj hpacket] at hlen'
        omega

/-! ## Runs of calls -/

/-- From an aligned FIFO a packet of 19 words at the head is returned by the next call. -/
lemma Aligned.advance (h : r.Aligned i k) (hp : (r.before i).packets[k]? = some p)
    (hlen : p.length = nAsicPacket) : r.Returns i k ∧ r.Aligned (i + 1) (k + 1) := by
  have hk := (List.getElem?_eq_some_iff.mp hp).choose
  cases h.step with
  | empty hempty => omega
  | short q hq hshort =>
      rw [Arrived.unique hq ⟨i, hp⟩] at hshort
      omega
  | whole hreturns hnext => exact ⟨hreturns, hnext⟩
  | long q hq hlong =>
      rw [Arrived.unique hq ⟨i, hp⟩] at hlong
      omega

/-- Packets of 19 words that are stored are returned one by one. -/
lemma Aligned.reaches (h : r.Aligned i k) (d : ℕ)
    (hwhole : ∀ j < k + d, ∃ p, (r.before i).packets[j]? = some p ∧ p.length = nAsicPacket) :
    r.Aligned (i + d) (k + d) := by
  induction d with
  | zero => exact h
  | succ d ih =>
      obtain ⟨p, hp, hlen⟩ := hwhole (k + d) (by omega)
      exact ((ih fun j hj => hwhole j (by omega)).advance
        (Arrived.mem_of_le hp (Nat.le_add_right i d)) hlen).2

/-- Packets in front of one that is stored are stored too. -/
lemma exists_packet_of_lt (hp : (r.before i).packets[k]? = some p) (hj : j < k)
    (hlen : ∀ q, r.Arrived j q → q.length = nAsicPacket) :
    ∃ q, (r.before i).packets[j]? = some q ∧ q.length = nAsicPacket := by
  have hk := (List.getElem?_eq_some_iff.mp hp).choose
  have hget := List.getElem?_eq_getElem (l := (r.before i).packets) (hj.trans hk)
  exact ⟨_, hget, hlen _ ⟨i, hget⟩⟩

/-- Under the condition an aligned reader meets no packet that is longer. -/
lemma StrayLast.not_long (h : r.StrayLast) (ha : r.Aligned i k) (hp : r.Arrived k p) :
    p.length ≤ nAsicPacket := by
  by_contra hlong
  have hshort := (h k p hp (by omega) fun j hj q hq => ?_).1
  · omega
  · obtain ⟨q', hq', hlen⟩ := ha.lengths j hj
    rw [Arrived.unique hq hq', hlen]

/-- Under the condition every packet in front of one of 19 words has 19 words. -/
lemma StrayLast.lengths (h : r.StrayLast) (hp : r.Arrived k p) (hlen : p.length = nAsicPacket)
    (j : ℕ) (hj : j < k) (q : List Word) (hq : r.Arrived j q) : q.length = nAsicPacket := by
  induction j using Nat.strong_induction_on generalizing q with
  | _ j ih =>
      by_contra hne
      exact (h j q hq hne fun l hl q' hq' => ih l hl (hl.trans hj) q' hq').2 k p hj hp hlen

section Start

variable (h0 : (r.before 0).read = 0)
include h0

/-- If the reader resynchronises, no call gets past a packet that does not have 19 words. -/
lemma Resynchronises.aligned (h : r.Resynchronises) (hp : r.Arrived k p)
    (hlen : p.length ≠ nAsicPacket) (i : ℕ) : ∃ k' ≤ k, r.Aligned i k' := by
  induction i with
  | zero => exact ⟨0, Nat.zero_le k, aligned_zero h0⟩
  | succ i ih =>
      obtain ⟨k', hk', ha⟩ := ih
      cases ha.step with
      | empty _ _ hnext => exact ⟨k', hk', hnext⟩
      | short _ _ _ _ hnext => exact ⟨k', hk', hnext⟩
      | whole hreturns hnext =>
          refine ⟨k' + 1, lt_of_le_of_ne hk' fun heq => hlen ?_, hnext⟩
          rw [Arrived.unique hp (arrived_of_after (heq ▸ hreturns.packet)), hreturns.length]
      | long _ _ _ hresult hnone =>
          obtain ⟨j, hj⟩ := h.whole i hresult
          exact absurd hj (hnone j)

lemma Resynchronises.strayLast (h : r.Resynchronises) : r.StrayLast := by
  intro k p hp hlen hfront
  have halign := h.aligned h0 hp hlen
  obtain ⟨i, hi⟩ := hp
  -- the reader comes to the boundary in front of the packet
  obtain ⟨k', hk', ha⟩ := halign i
  obtain ⟨d, rfl⟩ := Nat.exists_eq_add_of_le hk'
  have hat := ha.reaches d fun j hj => exists_packet_of_lt hi hj (hfront j hj)
  have hk := (List.getElem?_eq_some_iff.mp (Arrived.mem_of_le hi (Nat.le_add_right i d))).choose
  constructor
  · cases hat.step with
    | empty hempty => omega
    | short q hq hshort =>
        rwa [Arrived.unique hq ⟨i, hi⟩] at hshort
    | whole hreturns =>
        exact absurd hreturns.length
          (by rwa [Arrived.unique (arrived_of_after hreturns.packet) ⟨i, hi⟩])
    | long _ _ _ hresult hnone =>
        obtain ⟨j, hj⟩ := h.whole _ hresult
        exact absurd hj (hnone j)
  · rintro j q hj ⟨l, hl⟩ hq
    obtain ⟨m, hm, hma⟩ := halign l
    have hread : (r.before l).read ≤ wordsBefore (r.before l).packets j := by
      rw [hma.boundary.read]
      exact wordsBefore_mono (by omega)
    obtain ⟨u, -, -, hu⟩ := h.prompt l j q hl hq hread
    -- the call that returns packet `j` begins in front of it
    obtain ⟨n, hn, hna⟩ := halign u
    have hju := (List.getElem?_eq_some_iff.mp hu.packet).choose
    have hpos : wordsBefore (r.after u).packets n = wordsBefore (r.after u).packets j := by
      rw [← hu.position, hna.boundary.read,
        wordsBefore_of_isPrefix (after_isPrefix u) hna.boundary.le]
    have hnj := eq_of_wordsBefore_eq (r.after u).nonempty (by omega) hju hpos
    omega

/-- Under the condition every call begins at a boundary. -/
lemma StrayLast.aligned (h : r.StrayLast) (i : ℕ) : ∃ k, r.Aligned i k := by
  induction i with
  | zero => exact ⟨0, aligned_zero h0⟩
  | succ i ih =>
      obtain ⟨k, ha⟩ := ih
      cases ha.step with
      | empty _ _ hnext => exact ⟨k, hnext⟩
      | short _ _ _ _ hnext => exact ⟨k, hnext⟩
      | whole _ hnext => exact ⟨k + 1, hnext⟩
      | long p hp hlong => exact absurd hlong (h.not_long ha hp).not_gt

lemma StrayLast.resynchronises (h : r.StrayLast) : r.Resynchronises := by
  constructor
  · intro i hresult
    obtain ⟨k, ha⟩ := h.aligned h0 i
    cases ha.step with
    | empty _ hne => exact absurd hresult hne
    | short _ _ _ hne => exact absurd hresult hne
    | whole hreturns => exact ⟨k, hreturns⟩
    | long p hp hlong => exact absurd hlong (h.not_long ha hp).not_gt
  · intro i k p hp hlen hread
    obtain ⟨m, ha⟩ := h.aligned h0 i
    have hfront : ∀ j < k + 1, ∃ q, (r.before i).packets[j]? = some q ∧
        q.length = nAsicPacket := by
      intro j hj
      rcases Nat.lt_succ_iff_lt_or_eq.mp hj with hlt | rfl
      · exact exists_packet_of_lt hp hlt (h.lengths ⟨i, hp⟩ hlen j hlt)
      · exact ⟨p, hp, hlen⟩
    have hk : k + 1 ≤ (r.before i).packets.length :=
      (List.getElem?_eq_some_iff.mp hp).choose
    have hend := wordsBefore_eq_mul hk hfront
    have hstart := wordsBefore_succ hp
    rw [ha.read] at hread
    rw [hlen, hend] at hstart
    -- the packet is not in front of the reader's position
    have hmk : m ≤ k := by
      rw [nAsicPacket] at hstart hread
      omega
    obtain ⟨d, rfl⟩ := Nat.exists_eq_add_of_le hmk
    have hat := ha.reaches d fun j hj => hfront j (by omega)
    refine ⟨i + d, by omega, ?_,
      (hat.advance (Arrived.mem_of_le hp (Nat.le_add_right i d)) hlen).1⟩
    rw [hend, ha.read, nAsicPacket]
    omega

end Start

/-- **Resynchronisation of the FIFO reader.**  For every sequence of packets with words, and every
interleaving of their arrivals with the loads of `read_fifo_full_packet`, the reader resynchronises
exactly if no packet of 19 words comes after one of another length, and the first of another
length is a shorter one. -/
theorem resynchronises_iff (h0 : (r.before 0).read = 0) : r.Resynchronises ↔ r.StrayLast :=
  ⟨fun h => h.strayLast h0, fun h => h.resynchronises h0⟩

/-! ## Packets that are stored -/

lemma exec_read_intro {f f' : Fifo} {v : Word} (h : f.Load j v f') :
    Exec Fifo.env (Driver.read j) f v f' := Fifo.exec_read.mpr ⟨f, .refl f, h⟩

end Polling

/-- Packets of 19 words that are stored, and a shorter one behind them unless it is empty. -/
structure Stored where
  packets : List (List Word)
  last : List Word
  length : ∀ p ∈ packets, p.length = nAsicPacket
  short : last.length < nAsicPacket
  small : nAsicPacket * packets.length + last.length < 2 ^ 32

namespace Stored

variable {s : Stored} {k n m : ℕ} {p : List Word}

/-- All packets in their order. -/
def all (s : Stored) : List (List Word) := s.packets ++ if s.last = [] then [] else [s.last]

lemma all_of_packet (h : s.packets[k]? = some p) : s.all[k]? = some p := by
  rw [all, List.getElem?_append_left (List.getElem?_eq_some_iff.mp h).choose, h]

lemma wordsBefore_all (hk : k ≤ s.packets.length) :
    wordsBefore s.all k = nAsicPacket * k := by
  refine wordsBefore_eq_mul (hk.trans (by simp [all])) fun j hj => ?_
  have hget := List.getElem?_eq_getElem (hj.trans_le hk)
  exact ⟨_, all_of_packet hget, s.length _ (List.mem_of_getElem? hget)⟩

lemma words_all (s : Stored) :
    words s.all = nAsicPacket * s.packets.length + s.last.length := by
  have hwhole : words s.packets = nAsicPacket * s.packets.length := by
    refine wordsBefore_eq_mul le_rfl fun j hj => ?_
    have hget := List.getElem?_eq_getElem hj
    exact ⟨_, hget, s.length _ (List.mem_of_getElem? hget)⟩
  rw [all, words_append, hwhole]
  split_ifs with hlast
  · simp [hlast, words]
  · simp [words_eq_sum]

/-- The FIFO after `n` words of the packets of 19 words have been read. -/
def fifo (s : Stored) (n : ℕ) : Fifo where
  packets := s.all
  read := min n (nAsicPacket * s.packets.length)
  nonempty p hp := by
    rcases List.mem_append.mp hp with hwhole | hlast
    · exact List.ne_nil_of_length_pos (by rw [s.length p hwhole]; decide)
    · split_ifs at hlast with hempty
      · exact absurd hlast List.not_mem_nil
      · rw [List.mem_singleton.mp hlast]
        exact hempty
  read_le := by
    rw [words_all]
    exact (Nat.min_le_right _ _).trans (Nat.le_add_right _ _)

lemma fifo_of_le (hk : s.packets.length ≤ k) :
    s.fifo (nAsicPacket * k) = s.fifo (nAsicPacket * s.packets.length) := by
  have hmul := Nat.mul_le_mul_left nAsicPacket hk
  simp [fifo, hmul]

lemma read_fifo (hn : n ≤ nAsicPacket * s.packets.length) : (s.fifo n).read = n :=
  Nat.min_eq_left hn

lemma boundary (hk : k ≤ s.packets.length) : (s.fifo (nAsicPacket * k)).Boundary k :=
  ⟨hk.trans (by simp [fifo, all]), by
    rw [read_fifo (Nat.mul_le_mul_left _ hk)]
    exact (wordsBefore_all hk).symm⟩

/-- A load of the number of words. -/
lemma exec_rdfo (hk : k ≤ s.packets.length) :
    ∃ v : Word, v.toNat = words (s.all.drop k) ∧
      Exec Fifo.env (Driver.read (xllfRdfoOffset / 4)) (s.fifo (nAsicPacket * k)) v
        (s.fifo (nAsicPacket * k)) := by
  have hle : words (s.all.drop k) ≤ words s.all := by
    conv_rhs => rw [← List.take_append_drop k s.all, words_append]
    exact Nat.le_add_left _ _
  have hsmall := s.small
  rw [words_all] at hle
  have hvalue : (BitVec.ofNat 32 (words (s.all.drop k))).toNat = words (s.all.drop k) :=
    Nat.mod_eq_of_lt (by omega)
  refine ⟨_, hvalue, Polling.exec_read_intro (Fifo.load_rdfo.mpr ⟨?_, rfl⟩)⟩
  rw [hvalue, (boundary hk).queue, words_eq_sum]
  rfl

/-- The loop reads a packet. -/
lemma exec_collect (hp : s.packets[k]? = some p) (hn : n ≤ nAsicPacket) :
    Exec Fifo.env (Driver.collect (fun _ => Driver.read (xllfRdfdOffset / 4)) n)
      (s.fifo (nAsicPacket * k)) (p.take n) (s.fifo (nAsicPacket * k + n)) := by
  obtain ⟨hk, -⟩ := List.getElem?_eq_some_iff.mp hp
  have hlen := s.length p (List.mem_of_getElem? hp)
  have hmul := Nat.mul_le_mul_left nAsicPacket (Nat.succ_le_of_lt hk)
  rw [Nat.mul_succ] at hmul
  induction n with
  | zero => exact .done _ _
  | succ n ih =>
      have hlt : n < p.length := by omega
      refine exec_bind.mpr ⟨_, _, ih (by omega),
        exec_bind.mpr ⟨p[n], s.fifo (nAsicPacket * k + (n + 1)), ?_, ?_⟩⟩
      · have hqueue : (s.fifo (nAsicPacket * k + n)).queue = p.drop n :: s.all.drop (k + 1) := by
          rw [Fifo.queue, read_fifo (by omega), ← wordsBefore_all hk.le]
          exact unread_wordsBefore_add (all_of_packet hp) hlt
        refine Polling.exec_read_intro (.inr (.inr ⟨rfl, ?_⟩))
        rw [hqueue, List.headD_cons, List.drop_eq_getElem_cons hlt]
        refine ⟨rfl, rfl, ?_⟩
        rw [read_fifo (by omega), read_fifo (by omega)]
        omega
      · rw [List.take_succ_eq_append_getElem hlt]
        exact .done _ _

/-- A call returns the packet at the head. -/
lemma exec_packet (hp : s.packets[k]? = some p) : Exec Fifo.env readFifoFullPacket
    (s.fifo (nAsicPacket * k)) (0, p) (s.fifo (nAsicPacket * (k + 1))) := by
  obtain ⟨hk, -⟩ := List.getElem?_eq_some_iff.mp hp
  have hlen := s.length p (List.mem_of_getElem? hp)
  have hqueue : s.all.drop k = p :: s.all.drop (k + 1) := by
    obtain ⟨hlt, hget⟩ := List.getElem?_eq_some_iff.mp (all_of_packet hp)
    rw [List.drop_eq_getElem_cons hlt, hget]
  obtain ⟨v, hv, hrdfo⟩ := exec_rdfo hk.le
  have hne : v ≠ 0#32 := by
    rintro rfl
    rw [hqueue, words_cons, hlen, nAsicPacket, BitVec.toNat_zero] at hv
    omega
  have hloop := exec_collect hp (le_refl nAsicPacket)
  rw [← hlen, List.take_length, hlen, ← Nat.mul_succ] at hloop
  refine exec_bind.mpr ⟨v, _, hrdfo, ?_⟩
  rw [if_neg hne]
  refine exec_bind.mpr ⟨76#32, _, Polling.exec_read_intro (Fifo.load_rlf.mpr ⟨?_, rfl⟩), ?_⟩
  · rw [(boundary hk.le).queue]
    show _ = 4 * ((s.all.drop k).headD []).length
    rw [hqueue, List.headD_cons, hlen]
    rfl
  · exact exec_bind.mpr ⟨_, _, hloop, .done _ _⟩

/-- What a call returns when no packet of 19 words is left. -/
def ending (s : Stored) : ℤ × List Word := if s.last = [] then (-1, []) else (s.last.length, [])

lemma exec_ending (s : Stored) : Exec Fifo.env readFifoFullPacket
    (s.fifo (nAsicPacket * s.packets.length)) s.ending
    (s.fifo (nAsicPacket * s.packets.length)) := by
  obtain ⟨v, hv, hrdfo⟩ := s.exec_rdfo le_rfl
  have hdrop : s.all.drop s.packets.length = if s.last = [] then [] else [s.last] :=
    List.drop_left
  rw [hdrop] at hv
  refine exec_bind.mpr ⟨v, _, hrdfo, ?_⟩
  unfold ending
  by_cases hlast : s.last = []
  · rw [if_pos hlast] at hv
    rw [if_pos (show v = 0#32 from BitVec.eq_of_toNat_eq hv), if_pos hlast]
    exact .done _ _
  · have hpos := List.length_pos_of_ne_nil hlast
    have hshort := s.short
    rw [nAsicPacket] at hshort
    have hne : v ≠ 0#32 := by
      rintro rfl
      rw [if_neg hlast, words_cons, BitVec.toNat_zero] at hv
      omega
    have hrlf : (BitVec.ofNat 32 (4 * s.last.length)).toNat = 4 * s.last.length :=
      Nat.mod_eq_of_lt (by omega)
    have hrlr : (BitVec.ofNat 32 (4 * s.last.length) / 4#32).toNat = s.last.length := by
      rw [BitVec.toNat_udiv, hrlf]
      exact Nat.mul_div_cancel_left _ (by decide)
    rw [if_neg hne, if_neg hlast]
    refine exec_bind.mpr ⟨BitVec.ofNat 32 (4 * s.last.length), _,
      Polling.exec_read_intro (Fifo.load_rlf.mpr ⟨?_, rfl⟩), ?_⟩
    · rw [(boundary le_rfl).queue]
      show _ = 4 * ((s.all.drop s.packets.length).headD []).length
      rw [hdrop, if_neg hlast, hrlf]
      rfl
    · have hlow : BitVec.ofNat 32 (4 * s.last.length) / 4#32 < BitVec.ofNat 32 nAsicPacket := by
        rw [BitVec.lt_def, hrlr]
        exact s.short
      rw [if_pos hlow, BitVec.toInt_eq_toNat_of_lt (by omega), hrlr]
      exact .done _ _

/-- The calls on the FIFO with all of them, with nothing else arriving. -/
def polling (s : Stored) : Polling where
  before i := s.fifo (nAsicPacket * i)
  result i := s.packets[i]?.elim s.ending fun p => (0, p)
  after i := s.fifo (nAsicPacket * (i + 1))
  call i := by
    rcases hp : s.packets[i]? with - | p
    · have hle := List.getElem?_eq_none_iff.mp hp
      rw [fifo_of_le hle, fifo_of_le (Nat.le_succ_of_le hle)]
      exact s.exec_ending
    · exact exec_packet hp
  between _ := .refl _

/-- The condition of `resynchronises_iff` is met. -/
lemma strayLast (s : Stored) : s.polling.StrayLast := by
  have harrived : ∀ {k p}, s.polling.Arrived k p → s.all[k]? = some p := fun ⟨_, h⟩ => h
  have hbehind : ∀ {k p}, s.polling.Arrived k p → p.length ≠ nAsicPacket →
      k = s.packets.length ∧ p = s.last := by
    intro k p hp hlen
    have hget := harrived hp
    rcases Nat.lt_or_ge k s.packets.length with hlt | hge
    · have hpacket := List.getElem?_eq_getElem hlt
      rw [all_of_packet hpacket] at hget
      exact absurd (s.length p (Option.some.inj hget ▸ List.getElem_mem hlt)) hlen
    · rw [all, List.getElem?_append_right hge] at hget
      split_ifs at hget with hempty
      · exact absurd hget (by simp)
      · obtain ⟨hzero, rfl⟩ : k - s.packets.length = 0 ∧ s.last = p := by
          simpa [List.getElem?_cons] using hget
        exact ⟨by omega, rfl⟩
  intro k p hp hlen _
  obtain ⟨rfl, rfl⟩ := hbehind hp hlen
  refine ⟨s.short, fun j q hj hq => ?_⟩
  have hlt := (List.getElem?_eq_some_iff.mp (harrived hq)).choose
  have hlength : s.all.length ≤ s.packets.length + 1 := by
    rw [all, List.length_append]
    split_ifs <;> simp
  omega

end Stored

namespace Polling

/-- Two packets of 19 words, and one of three behind them. -/
def shortLast : Stored where
  packets := [List.replicate nAsicPacket 1#32, List.replicate nAsicPacket 2#32]
  last := [3#32, 3#32, 3#32]
  length := by simp
  short := by decide
  small := by decide

/-- The two are returned, and the short one does no harm. -/
theorem shortLast_resynchronises : shortLast.polling.Resynchronises :=
  (resynchronises_iff rfl).mpr shortLast.strayLast

/-- A packet of one word in front of a packet of 19. -/
def shortFirst : Fifo where
  packets := [[0#32], List.replicate nAsicPacket 0#32]
  read := 0
  nonempty := by simp [nAsicPacket]
  read_le := Nat.zero_le _

lemma exec_shortFirst : Exec Fifo.env readFifoFullPacket shortFirst (1, []) shortFirst := by
  refine exec_bind.mpr ⟨20#32, _, exec_read_intro (Fifo.load_rdfo.mpr ⟨rfl, rfl⟩), ?_⟩
  exact exec_bind.mpr ⟨4#32, _, exec_read_intro (Fifo.load_rlf.mpr ⟨rfl, rfl⟩), .done _ _⟩

/-- The calls on `shortFirst`, with nothing else arriving. -/
def blocked : Polling where
  before _ := shortFirst
  result _ := (1, [])
  after _ := shortFirst
  call _ := exec_shortFirst
  between _ := .refl _

/-- The packet of one word is never read, and so the one behind it is never returned. -/
theorem blocked_not_resynchronises :
    ¬ ∀ r : Polling, (r.before 0).read = 0 → r.Resynchronises := by
  intro hclaim
  obtain ⟨j, -, -, hj⟩ := (hclaim blocked rfl).prompt 0 1 (List.replicate nAsicPacket 0#32) rfl
    List.length_replicate (Nat.zero_le _)
  exact one_ne_zero hj.status

end Polling

end TrackerFpga.Server
