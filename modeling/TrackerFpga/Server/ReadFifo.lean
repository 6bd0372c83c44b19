import TrackerFpga.Lib.Loops
import TrackerFpga.Server.FifoReader

/-!
# Reading the FIFO empty

`vatactrl --read-fifo` and the server's `clear-fifo` call `VataCtrl::read_fifo` as long as
`get_n_fifo` finds words in the FIFO.  Unlike `read_fifo_full_packet` this method reads as many
words as the length register says.  So from any position in the FIFO, also from inside of a packet,
and whatever arrives meanwhile, the loop gets what is left of the packet at the head and then one
packet after the other, and when it ends the FIFO is empty (`drain_exact`): a reader that begins
there is at the boundary of two packets.

The program reads the lengths as an `int`.  `Fifo.within c` is a FIFO that never stores more than
`c` words; those of the block design have room for 1024 (`C_RX_FIFO_DEPTH`).
-/

namespace TrackerFpga.Server

open Interaction Mapped PacketQueue

/-! ## The program -/

/-- `VataCtrl::get_n_fifo`. -/
def getNFifo : Driver ℤ := do
  let rdfo ← Driver.read (xllfRdfoOffset / 4)
  pure rdfo.toInt

/-- What `VataCtrl::read_fifo` returns, and its arguments after the call. -/
structure FifoResult where
  status : ℤ
  data : List Word
  nread : ℕ
  nremain : Word

/-- `VataCtrl::read_fifo`, with the vector and `nread` as they are before the call. -/
def readFifo (data : List Word) (nread : ℕ) : Driver FifoResult := do
  let rdfo ← Driver.read (xllfRdfoOffset / 4)
  if rdfo = 0#32 then
    pure { status := 0, data := data, nread := nread, nremain := 0#32 }
  else
    let rlf ← Driver.read (xllfRlfOffset / 4)
    let rlr := (rlf.toInt.tdiv 4).toNat
    let front ← Driver.collect (fun _ => Driver.read (xllfRdfdOffset / 4)) rlr
    let nremain ← Driver.read (xllfRdfoOffset / 4)
    -- a vector that is longer keeps its other words
    pure { status := 1, data := front ++ data.drop rlr, nread := rlr, nremain := nremain }

/-- The variables of the loop, and the lines it has printed.  `clear-fifo` prints none. -/
structure Drain where
  data : List Word
  nread : ℕ
  lines : List (List Word)

/-- `while (vata.get_n_fifo() > 0)`. -/
def moreStored : Driver Bool := do
  let nFifo ← getNFifo
  pure (decide (0 < nFifo))

/-- One round of the loop: a packet is read and printed. -/
def drainRound (v : Drain) : Driver Drain := do
  let r ← readFifo v.data v.nread
  pure { data := r.data, nread := r.nread, lines := v.lines ++ [r.data.take r.nread] }

/-! ## The FIFO -/

namespace Fifo

variable {f g f' : Fifo} {q data : List Word} {rest : List (List Word)} {c n nread : ℕ}

/-- The number of words stored. -/
def stored (f : Fifo) : ℕ := (f.queue.map List.length).sum

/-- A FIFO that never stores more than `c` words. -/
def within (c : ℕ) : Env Access Access.Answer Fifo :=
  fun o f v f' => env o f v f' ∧ f'.stored ≤ c

lemma exec_within_read {i : ℕ} {v : Word} : Exec (within c) (Driver.read i) f v f' ↔
    (∃ g : Fifo, f.Grows g ∧ g.Load i v f') ∧ f'.stored ≤ c := exec_perform

lemma exec_of_within {α : Type} {p : Driver α} {a : α} (h : Exec (within c) p f a f') :
    Exec env p f a f' := h.map id fun _ _ _ _ hstep => hstep.1

lemma stored_eq (f : Fifo) : f.stored = words f.packets - f.read := sum_length_unread f.read_le

lemma stored_pos (hq : f.queue = q :: rest) : 0 < q.length ∧ q.length ≤ f.stored := by
  rw [stored, hq, List.map_cons, List.sum_cons]
  exact ⟨List.length_pos_of_ne_nil (ne_nil_of_unread hq), Nat.le_add_right _ _⟩

/-- What arrives is stored behind what was stored. -/
lemma queue_of_isPrefix (hp : f.packets <+: g.packets) (hr : g.read = f.read) :
    g.queue = f.queue ++ g.packets.drop f.packets.length := by
  rw [queue, queue, hr, unread_of_isPrefix hp g.nonempty f.read_le]

lemma Grows.queue (h : f.Grows g) : g.queue = f.queue ++ g.packets.drop f.packets.length :=
  queue_of_isPrefix h.packets h.read

/-! ### One round -/

/-- The loop reads the words of the packet at the head, one after the other. -/
lemma exec_collect_head (hq : f.queue = q :: rest) (hn : n ≤ q.length)
    (h : Exec env (Driver.collect (fun _ => Driver.read (xllfRdfdOffset / 4)) n) f data f') :
    f'.read = f.read + n ∧ data = q.take n := by
  induction n generalizing data f' with
  | zero =>
      obtain ⟨rfl, rfl⟩ := exec_done.mp h
      exact ⟨rfl, rfl⟩
  | succ n ih =>
      obtain ⟨front, m, hloop, hlast⟩ := exec_bind.mp h
      obtain ⟨v, m', hread, hdone⟩ := exec_bind.mp hlast
      obtain ⟨rfl, rfl⟩ := exec_done.mp hdone
      obtain ⟨hpos, rfl⟩ := ih (by omega) hloop
      obtain ⟨g, hmg, hload⟩ := exec_read.mp hread
      have hfg := (packets_of_exec hloop).trans hmg.packets
      have hwhole : unread g.packets f.read = q :: (rest ++ g.packets.drop f.packets.length) := by
        rw [unread_of_isPrefix hfg g.nonempty f.read_le, ← Fifo.queue, hq, List.cons_append]
      have hhead : g.queue.headD [] = q[n] :: q.drop (n + 1) := by
        rw [Fifo.queue, hmg.read, hpos, unread_add hwhole (by omega), List.headD_cons,
          List.drop_eq_getElem_cons]
      simp only [Load, hhead, xllfRdfoOffset, xllfRlfOffset, xllfRdfdOffset] at hload
      obtain ⟨rfl, -, hnext⟩ : v = q[n] ∧ f'.packets = g.packets ∧ f'.read = g.read + 1 := by
        simpa using hload
      refine ⟨by rw [hnext, hmg.read, hpos, Nat.add_assoc], ?_⟩
      rw [List.take_succ_eq_append_getElem]

/-- The length register counts the bytes of a packet. -/
lemma toNat_tdiv_rlf {rlf : Word} (hbytes : rlf.toNat = 4 * n) (hn : n < 2 ^ 29) :
    (rlf.toInt.tdiv 4).toNat = n := by
  rw [BitVec.toInt_eq_toNat_of_lt (by omega), hbytes, Nat.cast_mul, Nat.cast_ofNat,
    Int.mul_tdiv_cancel_left _ (by decide), Int.toNat_natCast]

/-- **`read_fifo` reads the packet at the head**, however many words are left of it. -/
lemma exec_readFifo {r : FifoResult} (hc : c < 2 ^ 29) (hq : f.queue = q :: rest)
    (h : Exec (within c) (readFifo data nread) f r f') :
    r.data.take r.nread = q ∧ f'.read = f.read + q.length := by
  obtain ⟨rdfo, m, hrdfo, hrest⟩ := exec_bind.mp h
  obtain ⟨⟨g, hfg, hload⟩, -⟩ := exec_within_read.mp hrdfo
  obtain ⟨hwords, rfl⟩ := load_rdfo.mp hload
  have hqm := hfg.queue
  rw [hq, List.cons_append] at hqm
  have hne : rdfo ≠ 0#32 := by
    rintro rfl
    obtain ⟨hpos, hle⟩ := stored_pos hqm
    rw [stored, ← hwords] at hle
    exact absurd (hpos.trans_le hle) (by decide)
  rw [if_neg hne] at hrest
  obtain ⟨rlf, m', hrlf, hrest⟩ := exec_bind.mp hrest
  obtain ⟨⟨g, hmg, hload⟩, hcap⟩ := exec_within_read.mp hrlf
  obtain ⟨hbytes, rfl⟩ := load_rlf.mp hload
  have hqm' := hmg.queue
  rw [hqm, List.cons_append] at hqm'
  rw [hqm', List.headD_cons] at hbytes
  have hle := (stored_pos hqm').2.trans hcap
  rw [toNat_tdiv_rlf hbytes (by omega)] at hrest
  obtain ⟨front, m'', hloop, hrest⟩ := exec_bind.mp hrest
  obtain ⟨nremain, m₃, hrdfo', hdone⟩ := exec_bind.mp hrest
  obtain ⟨rfl, rfl⟩ := exec_done.mp hdone
  obtain ⟨hread, rfl⟩ := exec_collect_head hqm' le_rfl (exec_of_within hloop)
  obtain ⟨⟨g, hgrows, hload⟩, -⟩ := exec_within_read.mp hrdfo'
  obtain ⟨-, rfl⟩ := load_rdfo.mp hload
  refine ⟨?_, by rw [hgrows.read, hread, hmg.read, hfg.read]⟩
  rw [List.take_length, List.take_left]

/-- `get_n_fifo` finds words in a FIFO that is not empty. -/
lemma exec_moreStored {b : Bool} (hc : c < 2 ^ 29) (h : Exec (within c) moreStored f b f') :
    f.Grows f' ∧ (b = true ↔ f'.queue ≠ []) := by
  obtain ⟨nFifo, m, hget, hdone⟩ := exec_bind.mp h
  obtain ⟨rfl, rfl⟩ := exec_done.mp hdone
  obtain ⟨rdfo, m', hread, hdone⟩ := exec_bind.mp hget
  obtain ⟨rfl, rfl⟩ := exec_done.mp hdone
  obtain ⟨⟨g, hfg, hload⟩, hcap⟩ := exec_within_read.mp hread
  obtain ⟨hwords, rfl⟩ := load_rdfo.mp hload
  have hstored : rdfo.toNat = f'.stored := hwords
  refine ⟨hfg, ?_⟩
  rw [decide_eq_true_iff, BitVec.toInt_eq_toNat_of_lt (by omega), hstored]
  cases hq : f'.queue with
  | nil => simp [stored, hq]
  | cons q rest =>
      have hpos := stored_pos hq
      exact iff_of_true (by omega) (List.cons_ne_nil q rest)

/-! ### A run without arrivals -/

/-- The FIFO after `n` more words have been read. -/
def advance (f : Fifo) (n : ℕ) (hn : f.read + n ≤ words f.packets) : Fifo :=
  { f with read := f.read + n, read_le := hn }

lemma exec_rdfo_intro {v : Word} (hv : v.toNat = f.stored) (hcap : f.stored ≤ c) :
    Exec (within c) (Driver.read (xllfRdfoOffset / 4)) f v f :=
  exec_within_read.mpr ⟨⟨f, .refl f, load_rdfo.mpr ⟨hv, rfl⟩⟩, hcap⟩

lemma read_add_le (hq : f.queue = q :: rest) (hn : n ≤ q.length) :
    f.read + n ≤ words f.packets := by
  have hle := (stored_pos hq).2
  rw [stored_eq] at hle
  have hread := f.read_le
  omega

lemma exec_collect_intro (hcap : f.stored ≤ c) (hq : f.queue = q :: rest) (hn : n ≤ q.length) :
    Exec (within c) (Driver.collect (fun _ => Driver.read (xllfRdfdOffset / 4)) n) f (q.take n)
      (f.advance n (read_add_le hq hn)) := by
  induction n with
  | zero => exact .done _ _
  | succ n ih =>
      refine exec_bind.mpr ⟨_, _, ih (by omega), exec_bind.mpr
        ⟨q[n], f.advance (n + 1) (read_add_le hq hn), exec_within_read.mpr ⟨⟨_, .refl _, ?_⟩, ?_⟩,
          ?_⟩⟩
      · have hhead : (f.advance n (read_add_le hq (by omega))).queue.headD [] =
            q[n] :: q.drop (n + 1) := by
          rw [queue, advance, unread_add hq (by omega), List.headD_cons, List.drop_eq_getElem_cons]
        refine .inr (.inr ⟨rfl, ?_⟩)
        rw [hhead]
        exact ⟨rfl, rfl, rfl⟩
      · rw [stored_eq] at hcap ⊢
        simp only [advance]
        omega
      · rw [List.take_succ_eq_append_getElem]
        exact .done _ _

lemma toNat_stored (hc : c < 2 ^ 29) (hcap : f.stored ≤ c) :
    (BitVec.ofNat 32 f.stored).toNat = f.stored := by
  rw [BitVec.toNat_ofNat, Nat.mod_eq_of_lt (by omega)]

lemma stored_advance (hq : f.queue = q :: rest) :
    (f.advance q.length (read_add_le hq le_rfl)).stored + q.length = f.stored := by
  have hle := read_add_le hq le_rfl
  rw [stored_eq, stored_eq]
  simp only [advance]
  omega

/-- A FIFO with a packet goes on with the loop. -/
lemma exec_enter_intro (hc : c < 2 ^ 29) (hcap : f.stored ≤ c) (hq : f.queue = q :: rest) :
    Exec (within c) moreStored f true f := by
  obtain ⟨hpos, hle⟩ := stored_pos hq
  have hrdfo := toNat_stored hc hcap
  refine exec_bind.mpr ⟨_, f, exec_bind.mpr ⟨_, f, exec_rdfo_intro hrdfo hcap, .done _ _⟩, ?_⟩
  rw [BitVec.toInt_eq_toNat_of_lt (by omega), hrdfo, decide_eq_true (by omega)]
  exact .done _ _

/-- A round that meets no arrivals. -/
lemma exec_round_intro (hc : c < 2 ^ 29) (hcap : f.stored ≤ c) (hq : f.queue = q :: rest)
    (v : Drain) :
    ∃ w, Exec (within c) (drainRound v) f w (f.advance q.length (read_add_le hq le_rfl)) := by
  obtain ⟨hpos, hle⟩ := stored_pos hq
  have hrdfo := toNat_stored hc hcap
  have hrlf : (BitVec.ofNat 32 (4 * q.length)).toNat = 4 * q.length := by
    rw [BitVec.toNat_ofNat, Nat.mod_eq_of_lt (by omega)]
  have hne : BitVec.ofNat 32 f.stored ≠ 0#32 := by
    intro hzero
    rw [hzero, BitVec.toNat_ofNat, Nat.zero_mod] at hrdfo
    omega
  have hlength : Exec (within c) (Driver.read (xllfRlfOffset / 4)) f
      (BitVec.ofNat 32 (4 * q.length)) f := by
    refine exec_within_read.mpr ⟨⟨f, .refl f, load_rlf.mpr ⟨?_, rfl⟩⟩, hcap⟩
    rw [hq, List.headD_cons]
    exact hrlf
  let f' := f.advance q.length (read_add_le hq le_rfl)
  have hcap' : f'.stored ≤ c := by
    have hstored : f'.stored + q.length = f.stored := stored_advance hq
    omega
  have hread : ∃ r, Exec (within c) (readFifo v.data v.nread) f r f' := by
    refine ⟨⟨1, q.take q.length ++ v.data.drop q.length, q.length, BitVec.ofNat 32 f'.stored⟩,
      exec_bind.mpr ⟨_, f, exec_rdfo_intro hrdfo hcap, ?_⟩⟩
    rw [if_neg hne]
    refine exec_bind.mpr ⟨_, f, hlength, ?_⟩
    rw [toNat_tdiv_rlf hrlf (by omega)]
    exact exec_bind.mpr ⟨_, f', exec_collect_intro hcap hq le_rfl,
      exec_bind.mpr ⟨_, f', exec_rdfo_intro (toNat_stored hc hcap') hcap', .done _ _⟩⟩
  obtain ⟨r, hread⟩ := hread
  exact ⟨_, exec_bind.mpr ⟨r, f', hread, .done _ _⟩⟩

/-- An empty FIFO ends the loop. -/
lemma exec_leave_intro (hcap : f.stored ≤ c) (hq : f.queue = []) :
    Exec (within c) moreStored f false f := by
  have hzero : f.stored = 0 := by rw [stored, hq]; rfl
  exact exec_bind.mpr ⟨0, f, exec_bind.mpr ⟨0#32, f, exec_rdfo_intro hzero.symm hcap, .done _ _⟩,
    .done _ _⟩

end Fifo

/-! ## The loop -/

section Loop

variable {f f' : Fifo} {v v' : Drain} {c : ℕ}

/-- A run of the loop. -/
def Drains (c : ℕ) (v : Drain) (f : Fifo) (v' : Drain) (f' : Fifo) : Prop :=
  While (Fifo.within c) (fun _ => moreStored) drainRound v f v' f'

/-- What has been printed and what is left are what was left at the beginning and what has arrived
since. -/
structure Printed (f : Fifo) (v : Drain) (g : Fifo) : Prop where
  arrived : f.packets <+: g.packets
  lines : v.lines ++ g.queue = unread g.packets f.read

lemma Printed.grows {g : Fifo} (h : Printed f v g) (hg : g.Grows f') : Printed f v f' where
  arrived := h.arrived.trans hg.packets
  lines := by
    have hle : f.read ≤ words g.packets := f.read_le.trans (words_le_of_isPrefix h.arrived)
    rw [hg.queue, ← List.append_assoc, h.lines, unread_of_isPrefix hg.packets f'.nonempty hle]

/-- A round prints the packet at the head. -/
lemma Printed.round {s t u : Fifo} {w : Drain} (hc : c < 2 ^ 29) (h : Printed f v s)
    (hcond : Exec (Fifo.within c) moreStored s true t)
    (hbody : Exec (Fifo.within c) (drainRound v) t w u) : Printed f w u := by
  obtain ⟨hst, hstored⟩ := Fifo.exec_moreStored hc hcond
  obtain ⟨q, rest, hq⟩ := List.exists_cons_of_ne_nil (hstored.mp rfl)
  obtain ⟨r, m, hread, hdone⟩ := exec_bind.mp hbody
  obtain ⟨rfl, rfl⟩ := exec_done.mp hdone
  obtain ⟨hline, hpos⟩ := Fifo.exec_readFifo hc hq hread
  have ht := h.grows hst
  have htu := Fifo.packets_of_exec (Fifo.exec_of_within hread)
  -- the same FIFO, before the packet was taken out
  have hle : t.read ≤ words u.packets := t.read_le.trans (words_le_of_isPrefix htu)
  let t' : Fifo := { u with read := t.read, read_le := hle }
  have ht' : Printed f v t' := ht.grows ⟨htu, rfl⟩
  have hq' : t'.queue = q :: (rest ++ u.packets.drop t.packets.length) := by
    rw [Fifo.queue_of_isPrefix (f := t) (g := t') htu rfl, hq, List.cons_append]
  refine ⟨ht'.arrived, ?_⟩
  have hlines := ht'.lines
  rw [hq'] at hlines
  rw [hline, Fifo.queue, hpos, unread_add_length u.nonempty hq', List.append_assoc,
    List.singleton_append, hlines]

/-- **Nothing is lost.**  From any position, and whatever arrives meanwhile, the loop prints what is
left of the packet at the head and then every packet that has arrived, each on a line of its own;
after it the FIFO is empty, at the end of a packet.  It ends, if nothing arrives. -/
theorem drain_exact (hc : c < 2 ^ 29) (data : List Word) (nread : ℕ) (f : Fifo) :
    (∀ v' f', Drains c ⟨data, nread, []⟩ f v' f' →
      v'.lines = unread f'.packets f.read ∧ f'.Boundary f'.packets.length) ∧
    (f.stored ≤ c → ∃ v' f', Drains c ⟨data, nread, []⟩ f v' f' ∧ f'.packets = f.packets) := by
  constructor
  · intro v' f' hrun
    refine hrun.invariant (I := Printed f)
      (Q := fun w g => w.lines = unread g.packets f.read ∧ g.Boundary g.packets.length)
      (fun v s t w u hv => hv.round hc) (fun v s s' hv hcond => ?_) ⟨List.prefix_rfl, rfl⟩
    obtain ⟨hgrows, hstored⟩ := Fifo.exec_moreStored hc hcond
    have hempty : s'.queue = [] := by
      by_contra hne
      exact absurd (hstored.mpr hne) (by decide)
    have hlines := (hv.grows hgrows).lines
    rw [hempty, List.append_nil] at hlines
    refine ⟨hlines, le_rfl, ?_⟩
    have hzero := s'.stored_eq
    rw [Fifo.stored, hempty, List.map_nil, List.sum_nil] at hzero
    have hle := s'.read_le
    rw [← words]
    omega
  · intro hcap
    refine exists_while (I := fun _ s => s.packets = f.packets ∧ s.stored ≤ c)
      (fun _ s => s.stored) (fun v s hs => ?_) ⟨rfl, hcap⟩
    obtain ⟨hpackets, hle⟩ := hs
    cases hq : s.queue with
    | nil => exact .inl ⟨s, Fifo.exec_leave_intro hle hq, hpackets⟩
    | cons q rest =>
        obtain ⟨w, hbody⟩ := Fifo.exec_round_intro hc hle hq v
        obtain ⟨hpos, -⟩ := Fifo.stored_pos hq
        have hstored := Fifo.stored_advance hq
        exact .inr ⟨s, w, _, Fifo.exec_enter_intro hc hle hq, hbody, ⟨hpackets, by omega⟩, by omega⟩

/-- Two packets, of which one word has been read. -/
def insideFirst : Fifo where
  packets := [[1#32, 2#32, 3#32], [4#32]]
  read := 1
  nonempty := by simp
  read_le := by decide

/-- The loop prints the rest of the first one and the second one. -/
theorem insideFirst_drained : ∃ v' f', Drains 4 ⟨[], 0, []⟩ insideFirst v' f' ∧
    v'.lines = [[2#32, 3#32], [4#32]] := by
  obtain ⟨hexact, hends⟩ := drain_exact (c := 4) (by decide) [] 0 insideFirst
  obtain ⟨v', f', hrun, hpackets⟩ := hends (by decide)
  refine ⟨v', f', hrun, ?_⟩
  rw [(hexact v' f' hrun).1, hpackets]
  rfl

end Loop

end TrackerFpga.Server
