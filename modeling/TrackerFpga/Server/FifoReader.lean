import TrackerFpga.Lib.PacketQueue
import TrackerFpga.Mapped.Bus

/-!
# Reading packets from the AXI-stream FIFO

`VataCtrl::read_fifo_full_packet` is a program over loads from the mapped FIFO.  `Fifo.env` says
what a load returns: the number of words stored, the length in bytes of what is left of the packet
at the head, or the next word.  Packets may arrive before every load and between two calls.

A call compares the length with 19 and only ever reads 19 words, and nothing else takes words out
of the FIFO.  A packet that is shorter is therefore never removed, and of one that is longer the
first 19 words are returned as a packet.  `resynchronises_iff` is what remains: no packet of
another length may come before a packet of 19 words, and none that is longer may come at all
before a shorter one has stopped the reader.
-/

namespace TrackerFpga.Server

open Interaction Mapped PacketQueue

/-- A word of the FIFO. -/
abbrev Word := BitVec 32

/-! ## The program -/

/-- `N_ASIC_PACKET`. -/
def nAsicPacket : ℕ := 19

/-- `XLLF_RDFO_OFFSET`. -/
def xllfRdfoOffset : ℕ := 0x1C

/-- `XLLF_RDFD_OFFSET`. -/
def xllfRdfdOffset : ℕ := 0x20

/-- `XLLF_RLF_OFFSET`. -/
def xllfRlfOffset : ℕ := 0x24

/-- `VataCtrl::read_fifo_full_packet`: what it returns and the words it puts into `data`. -/
def readFifoFullPacket : Driver (ℤ × List Word) := do
  let rdfo ← Driver.read (xllfRdfoOffset / 4)
  if rdfo = 0#32 then
    pure (-1, [])
  else
    let rlf ← Driver.read (xllfRlfOffset / 4)
    let rlr := rlf / 4#32
    if rlr < BitVec.ofNat 32 nAsicPacket then
      pure (rlr.toInt, [])
    else
      let data ← Driver.collect (fun _ => Driver.read (xllfRdfdOffset / 4)) nAsicPacket
      pure (0, data)

/-! ## The FIFO -/

/-- The receive side of the FIFO: the packets that have arrived, oldest first, and the number of
words read. -/
structure Fifo where
  packets : List (List Word)
  read : ℕ
  nonempty : ∀ p ∈ packets, p ≠ []
  read_le : read ≤ words packets

namespace Fifo

variable {f g f' : Fifo} {p : List Word} {k n : ℕ}

/-- What is stored. -/
def queue (f : Fifo) : List (List Word) := unread f.packets f.read

/-- Packets arrive. -/
structure Grows (f g : Fifo) : Prop where
  packets : f.packets <+: g.packets
  read : g.read = f.read

/-- A load from `pfifo[i]` that returns `v`: `RDFO` is the number of words stored, `RLF` the length
in bytes of the packet at the head, and `RDFD` its next word, which it takes out.  With nothing
stored `RDFD` returns anything. -/
def Load (i : ℕ) (f : Fifo) (v : Word) (f' : Fifo) : Prop :=
  (i = xllfRdfoOffset / 4 ∧ v.toNat = (f.queue.map List.length).sum ∧ f' = f) ∨
  (i = xllfRlfOffset / 4 ∧ v.toNat = 4 * (f.queue.headD []).length ∧ f' = f) ∨
  (i = xllfRdfdOffset / 4 ∧
    match f.queue.headD [] with
    | [] => f' = f
    | w :: _ => v = w ∧ f'.packets = f.packets ∧ f'.read = f.read + 1)

/-- The FIFO as the accesses of a program see it. -/
def env : Env Access Access.Answer Fifo
  | .read i, f, v, f' => ∃ g : Fifo, f.Grows g ∧ g.Load i v f'
  | _, _, _, _ => False

lemma exec_read {i : ℕ} {v : Word} :
    Exec env (Driver.read i) f v f' ↔ ∃ g : Fifo, f.Grows g ∧ g.Load i v f' := exec_perform

@[simp] lemma load_rdfo {v : Word} : f.Load (xllfRdfoOffset / 4) v f' ↔
    v.toNat = (f.queue.map List.length).sum ∧ f' = f := by
  simp [Load, xllfRdfoOffset, xllfRlfOffset, xllfRdfdOffset]

@[simp] lemma load_rlf {v : Word} : f.Load (xllfRlfOffset / 4) v f' ↔
    v.toNat = 4 * (f.queue.headD []).length ∧ f' = f := by
  simp [Load, xllfRdfoOffset, xllfRlfOffset, xllfRdfdOffset]

lemma Grows.refl (f : Fifo) : f.Grows f := ⟨List.prefix_rfl, rfl⟩

lemma Grows.trans {h : Fifo} (hfg : f.Grows g) (hgh : g.Grows h) : f.Grows h :=
  ⟨hfg.packets.trans hgh.packets, hgh.read.trans hfg.read⟩

lemma Load.packets {i : ℕ} {v : Word} (h : f.Load i v f') : f'.packets = f.packets := by
  rcases h with ⟨-, -, rfl⟩ | ⟨-, -, rfl⟩ | ⟨-, h⟩
  · rfl
  · rfl
  · split at h
    · rw [h]
    · exact h.2.1

/-- No program takes a packet out of the history. -/
lemma packets_of_exec {α : Type} {prog : Driver α} {a : α} (h : Exec env prog f a f') :
    f.packets <+: f'.packets := by
  induction h with
  | done => exact List.prefix_rfl
  | @call o next s s' s'' ans a hcall hnext ih =>
      cases o with
      | read i =>
          obtain ⟨g, hfg, hload⟩ := hcall
          exact (hload.packets ▸ hfg.packets).trans ih
      | write i v => exact hcall.elim
      | usleep us => exact hcall.elim

/-! ### At the boundary of two packets -/

/-- The words in front of packet `k` have been read, and no others. -/
structure Boundary (f : Fifo) (k : ℕ) : Prop where
  le : k ≤ f.packets.length
  read : f.read = wordsBefore f.packets k

lemma Boundary.grows (h : f.Boundary k) (hfg : f.Grows g) : g.Boundary k :=
  ⟨h.le.trans hfg.packets.length_le,
    by rw [hfg.read, h.read, wordsBefore_of_isPrefix hfg.packets h.le]⟩

/-- At a boundary the packet at the head is whole. -/
lemma Boundary.queue (h : f.Boundary k) : f.queue = f.packets.drop k := by
  rcases Nat.eq_or_lt_of_le h.le with hk | hk
  · rw [Fifo.queue, h.read, hk, List.drop_length]
    exact unread_words
  · have hpos := List.length_pos_of_ne_nil (f.nonempty _ (List.getElem_mem hk))
    have hunread := unread_wordsBefore_add (List.getElem?_eq_getElem hk) hpos
    rw [Nat.add_zero, List.drop_zero] at hunread
    rw [Fifo.queue, h.read, hunread, List.drop_eq_getElem_cons hk]

/-- Inside packet `k` a load from `RDFD` returns its next word. -/
lemma exec_read_rdfd {v : Word} (hp : f.packets[k]? = some p)
    (hread : f.read = wordsBefore f.packets k + n) (hn : n < p.length)
    (h : Exec env (Driver.read (xllfRdfdOffset / 4)) f v f') :
    f'.read = f.read + 1 ∧ p[n]? = some v := by
  obtain ⟨g, hfg, hload⟩ := exec_read.mp h
  have hk : k < f.packets.length := (List.getElem?_eq_some_iff.mp hp).choose
  have hqueue : g.queue = p.drop n :: g.packets.drop (k + 1) := by
    rw [Fifo.queue, hfg.read, hread, ← wordsBefore_of_isPrefix hfg.packets hk.le]
    exact unread_wordsBefore_add (getElem?_of_isPrefix hfg.packets hp) hn
  have hhead : g.queue.headD [] = p[n] :: p.drop (n + 1) := by
    rw [hqueue, List.headD_cons, List.drop_eq_getElem_cons hn]
  simp only [Load, hhead, xllfRdfoOffset, xllfRlfOffset, xllfRdfdOffset] at hload
  obtain ⟨rfl, -, hread'⟩ : v = p[n] ∧ f'.packets = g.packets ∧ f'.read = g.read + 1 := by
    simpa using hload
  exact ⟨by rw [hread', hfg.read], List.getElem?_eq_getElem hn⟩

/-- The loop reads one word of the packet after the other. -/
lemma exec_collect_rdfd {data : List Word} (hp : f.packets[k]? = some p) (hb : f.Boundary k)
    (hn : n ≤ p.length)
    (h : Exec env (Driver.collect (fun _ => Driver.read (xllfRdfdOffset / 4)) n) f data f') :
    f'.read = wordsBefore f'.packets k + n ∧ data = p.take n := by
  induction n generalizing data f' with
  | zero =>
      obtain ⟨rfl, rfl⟩ := exec_done.mp h
      exact ⟨by rw [hb.read, Nat.add_zero], by simp⟩
  | succ n ih =>
      obtain ⟨front, m, hloop, hlast⟩ := exec_bind.mp h
      obtain ⟨v, m', hread, hdone⟩ := exec_bind.mp hlast
      obtain ⟨rfl, rfl⟩ := exec_done.mp hdone
      obtain ⟨hpos, rfl⟩ := ih (by omega) hloop
      have hfm := packets_of_exec hloop
      obtain ⟨hnext, hv⟩ := exec_read_rdfd (getElem?_of_isPrefix hfm hp) hpos (by omega) hread
      have hk : k ≤ m.packets.length := hb.le.trans hfm.length_le
      refine ⟨?_, ?_⟩
      · rw [hnext, hpos, wordsBefore_of_isPrefix (packets_of_exec hread) hk, Nat.add_assoc]
      · rw [List.take_add_one, hv]
        rfl

/-! ### A call of `read_fifo_full_packet` -/

/-- What a call does that begins at the boundary in front of packet `k`: nothing has arrived, or
the packet is too short, or its first 19 words are read. -/
inductive Outcome (f : Fifo) (k : ℕ) (f' : Fifo) : ℤ × List Word → Prop
  | empty (hk : f.packets.length = k) (hb : f'.Boundary k) : Outcome f k f' (-1, [])
  | short (p : List Word) (hp : f'.packets[k]? = some p) (hlen : p.length < nAsicPacket)
      (hb : f'.Boundary k) : Outcome f k f' (p.length, [])
  | full (p : List Word) (hp : f'.packets[k]? = some p) (hlen : nAsicPacket ≤ p.length)
      (hread : f'.read = wordsBefore f'.packets k + nAsicPacket) :
      Outcome f k f' (0, p.take nAsicPacket)

/-- Every call has one of these outcomes. -/
lemma exec_readFifoFullPacket {res : ℤ × List Word} (hb : f.Boundary k)
    (h : Exec env readFifoFullPacket f res f') : Outcome f k f' res := by
  obtain ⟨rdfo, m, hrdfo, hrest⟩ := exec_bind.mp h
  obtain ⟨g, hfg, hload⟩ := exec_read.mp hrdfo
  obtain ⟨hwords, rfl⟩ := load_rdfo.mp hload
  have hbm : m.Boundary k := hb.grows hfg
  rw [hbm.queue] at hwords
  by_cases hempty : rdfo = 0#32
  · rw [if_pos hempty] at hrest
    obtain ⟨rfl, rfl⟩ := exec_done.mp hrest
    refine .empty (le_antisymm ?_ hb.le) hbm
    -- no word is stored, so no packet is
    by_contra hk
    have hlt : k < f'.packets.length := (not_le.mp hk).trans_le hfg.packets.length_le
    have hpos := List.length_pos_of_ne_nil (f'.nonempty _ (List.getElem_mem hlt))
    rw [hempty, List.drop_eq_getElem_cons hlt, List.map_cons, List.sum_cons,
      BitVec.toNat_zero] at hwords
    omega
  · rw [if_neg hempty] at hrest
    obtain ⟨rlf, m', hrlf, hrest⟩ := exec_bind.mp hrest
    obtain ⟨g, hmg, hload⟩ := exec_read.mp hrlf
    obtain ⟨hbytes, rfl⟩ := load_rlf.mp hload
    have hbm' : m'.Boundary k := hbm.grows hmg
    have hk : k < m.packets.length := by
      refine lt_of_le_of_ne hbm.le fun hk => hempty ?_
      rw [hk, List.drop_length] at hwords
      exact BitVec.eq_of_toNat_eq hwords
    obtain ⟨p, hp⟩ : ∃ p, m'.packets[k]? = some p :=
      ⟨_, List.getElem?_eq_getElem (hk.trans_le hmg.packets.length_le)⟩
    have hlength : (rlf / 4#32).toNat = p.length := by
      have hhead : m'.queue.headD [] = p := by
        rw [hbm'.queue, List.headD_eq_head?_getD, List.head?_drop, hp, Option.getD_some]
      rw [hhead] at hbytes
      rw [BitVec.toNat_udiv, hbytes]
      exact Nat.mul_div_cancel_left _ (by decide)
    by_cases hshort : rlf / 4#32 < BitVec.ofNat 32 nAsicPacket
    · have hlen : p.length < nAsicPacket := hlength ▸ hshort
      rw [if_pos hshort] at hrest
      obtain ⟨rfl, rfl⟩ := exec_done.mp hrest
      have hint : (rlf / 4#32).toInt = p.length := by
        rw [nAsicPacket] at hlen
        rw [BitVec.toInt_eq_toNat_of_lt (by omega), hlength]
      rw [hint]
      exact .short p hp hlen hbm'
    · have hlen : nAsicPacket ≤ p.length := hlength ▸ not_lt.mp hshort
      rw [if_neg hshort] at hrest
      obtain ⟨data, m'', hloop, hdone⟩ := exec_bind.mp hrest
      obtain ⟨rfl, rfl⟩ := exec_done.mp hdone
      obtain ⟨hread, rfl⟩ := exec_collect_rdfd hp hbm' hlen hloop
      exact .full p (getElem?_of_isPrefix (packets_of_exec hloop) hp) hlen hread

end Fifo

end TrackerFpga.Server
