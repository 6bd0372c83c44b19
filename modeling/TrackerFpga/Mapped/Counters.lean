import TrackerFpga.Lib.SplitRead
import TrackerFpga.Mapped.Script
import TrackerFpga.Sync.Core
import TrackerFpga.Vata.AxiInterface

/-!
# Reading the 64-bit counters

`SyncCtrl::get_counter` and `VataCtrl::get_counters` read running 64-bit counters through a 32-bit
bus, as two words each.  No register holds the one word while the other is read.  So the value is
one that the counter had between the two reads exactly when no carry went from the low to the high
word between them, and values without such a carry never go backwards (`counters_between_iff`).
-/

namespace TrackerFpga.Mapped

open AxiLite Interaction Vata

/-! ## A counter behind two registers -/

/-- The registers `i` and `i + 1` show the low and the high word of the counter `c`. -/
structure Bus.Shows (B : Bus) (i : ℕ) (c : ℕ → BitVec 64) : Prop where
  low : ∀ {t v}, B.Reads t i v → v = (c t).extractLsb' 0 32
  high : ∀ {t v}, B.Reads t (i + 1) v → v = (c t).extractLsb' 32 32

/-- The counter counts up by at most one in each cycle from `x` to `y`; it is not reset. -/
def Counts (c : ℕ → BitVec 64) (x y : ℕ) : Prop :=
  ∀ u, x ≤ u → u < y →
    (c (u + 1)).toNat = (c u).toNat ∨ (c (u + 1)).toNat = (c u).toNat + 1

/-- The value lies between what the counter is in the cycles `x` and `y`. -/
def Between (c : ℕ → BitVec 64) (x y : ℕ) (v : BitVec 64) : Prop :=
  (c x).toNat ≤ v.toNat ∧ v.toNat ≤ (c y).toNat

/-- No carry goes from the low word of the counter to its high word from cycle `x` to cycle `y`. -/
def NoCarry (c : ℕ → BitVec 64) (x y : ℕ) : Prop := SplitRead.NoCarry 32 (c x).toNat (c y).toNat

section Words

variable {c : ℕ → BitVec 64} {x y : ℕ}

lemma Counts.le (h : Counts c x y) (hxy : x ≤ y) :
    (c x).toNat ≤ (c y).toNat ∧ (c y).toNat ≤ (c x).toNat + (y - x) := by
  refine Clocked.invariant_between
    (P := fun u => (c x).toNat ≤ (c u).toNat ∧ (c u).toNat ≤ (c x).toNat + (u - x))
    ⟨le_rfl, by omega⟩ (fun u hxu huy ih => ?_) hxy le_rfl
  rcases h u hxu huy with hstep | hstep
  · omega
  · omega

lemma Counts.mono {x' y' : ℕ} (h : Counts c x y) (hx : x ≤ x') (hy : y' ≤ y) : Counts c x' y' :=
  fun u hu huy => h u (hx.trans hu) (huy.trans_le hy)

/-- Two words make the value that they are glued to. -/
lemma toNat_words (a d : BitVec 64) :
    (d.extractLsb' 32 32 ++ a.extractLsb' 0 32).toNat = SplitRead.glue 32 a.toNat d.toNat := by
  have hlow : (a.extractLsb' 0 32).toNat = a.toNat % 2 ^ 32 := by
    simp [BitVec.extractLsb'_toNat]
  have hhigh : (d.extractLsb' 32 32).toNat = d.toNat / 2 ^ 32 := by
    have hlt : d.toNat / 2 ^ 32 < 2 ^ 32 := by
      have := d.isLt
      omega
    rw [BitVec.extractLsb'_toNat, Nat.shiftRight_eq_div_pow, Nat.mod_eq_of_lt hlt]
  rw [BitVec.toNat_append, hlow, hhigh,
    ← Nat.shiftLeft_add_eq_or_of_lt (Nat.mod_lt _ (by decide)), Nat.shiftLeft_eq,
    SplitRead.glue]
  ring

end Words

namespace Bus

variable {B : Bus} {i x y : ℕ} {c : ℕ → BitVec 64} {o : WordOrder} {v : BitVec 64}

/-- Without a carry the value is what the counter was when its low word was read. -/
lemma ReadsU64.eq_counter (hB : B.Shows i c) (h : B.ReadsU64 i x y o v) (hno : NoCarry c x y) :
    v = c x ∨ v = c y := by
  cases h with
  | lowFirst hlow hhigh =>
      left
      apply BitVec.eq_of_toNat_eq
      rw [hB.low hlow, hB.high hhigh, toNat_words, SplitRead.glue_of_noCarry_left hno]
  | highFirst hhigh hlow =>
      right
      apply BitVec.eq_of_toNat_eq
      rw [hB.low hlow, hB.high hhigh, toNat_words, SplitRead.glue_of_noCarry_right hno]

lemma ReadsU64.between_iff (hB : B.Shows i c) (h : B.ReadsU64 i x y o v) (hxy : x ≤ y)
    (hclose : y < x + 2 ^ 32) (hc : Counts c x y) : Between c x y v ↔ NoCarry c x y := by
  obtain ⟨hle, hbound⟩ := hc.le hxy
  unfold Between
  cases h with
  | lowFirst hlow hhigh =>
      rw [hB.low hlow, hB.high hhigh, toNat_words]
      exact SplitRead.between_lowFirst_iff hle (by omega)
  | highFirst hhigh hlow =>
      rw [hB.low hlow, hB.high hhigh, toNat_words]
      exact SplitRead.between_highFirst_iff hle (by omega)

/-- The value `v` was read between the cycles `t` and `t'` in two reads less than `2 ^ 32` cycles
apart.  If the counter was only counting it is a value of the counter between the two reads
exactly when no carry came between them. -/
def TornIffCarry (B : Bus) (i : ℕ) (c : ℕ → BitVec 64) (o : WordOrder) (t t' : ℕ)
    (v : BitVec 64) : Prop :=
  ∃ x y, t ≤ x ∧ x < y ∧ y < t' ∧ B.ReadsU64 i x y o v ∧
    (Counts c x y → y < x + 2 ^ 32 → (Between c x y v ↔ NoCarry c x y))

lemma tornIffCarry (hB : B.Shows i c) {t t' : ℕ} (h : Exec B.env (readU64 o i) t v t') :
    B.TornIffCarry i c o t t' v := by
  obtain ⟨x, y, htx, hxy, rfl, -, hreads⟩ := exec_readU64.mp h
  exact ⟨x, y, htx, hxy, Nat.lt_succ_self y, hreads,
    fun hc hclose => hreads.between_iff hB hxy.le hclose hc⟩

/-- Two values, of which the second was read after the first, do not go backwards if the counter
was only counting meanwhile and no carry came during either read. -/
def NeverBackwards (B : Bus) (i : ℕ) (c : ℕ → BitVec 64) : Prop :=
  ∀ {o o' : WordOrder} {x y x' y' : ℕ} {v v' : BitVec 64}, B.ReadsU64 i x y o v →
    B.ReadsU64 i x' y' o' v' → x ≤ y → y ≤ x' → x' ≤ y' → Counts c x y' →
      NoCarry c x y → NoCarry c x' y' → v.toNat ≤ v'.toNat

lemma ReadsU64.between (hB : B.Shows i c) (h : B.ReadsU64 i x y o v) (hxy : x ≤ y)
    (hc : Counts c x y) (hno : NoCarry c x y) : Between c x y v := by
  obtain ⟨hle, -⟩ := hc.le hxy
  rcases h.eq_counter hB hno with rfl | rfl
  · exact ⟨le_rfl, hle⟩
  · exact ⟨hle, le_rfl⟩

lemma neverBackwards (hB : B.Shows i c) : B.NeverBackwards i c := by
  intro o o' x y x' y' v v' h h' hxy hyx hxy' hc hno hno'
  have hfirst := h.between hB hxy (hc.mono le_rfl (hyx.trans hxy')) hno
  have hsecond := h'.between hB hxy' (hc.mono (hxy.trans hyx) le_rfl) hno'
  calc v.toNat ≤ (c y).toNat := hfirst.2
    _ ≤ (c x').toNat := ((hc.mono hxy hxy').le hyx).1
    _ ≤ v'.toNat := hsecond.1

end Bus

/-! ## The counters of the cores -/

end TrackerFpga.Mapped

namespace TrackerFpga.Sync.Core.Run

open Mapped

/-- The global counter is shown at the registers `1` and `2`. -/
lemma shows_counter (r : Run) : r.bus.Shows 1 r.counter := ⟨low_of_reads, high_of_reads⟩

end TrackerFpga.Sync.Core.Run

namespace TrackerFpga.Vata

open Interaction Mapped

namespace Core.Run

variable (r : Run)

/-- The running counter of the core in cycle `t`, which is the global counter. -/
def runningCounter (t : ℕ) : BitVec 64 := (r.inp t).globalCounter

/-- The live counter of the core in cycle `t`. -/
def liveCounter (t : ℕ) : BitVec 64 :=
  Vata.liveCounter (fsmInput (r.inp t) (r.regs t)) (r.regs t).fsm

lemma shows_runningCounter : r.bus.Shows 48 r.runningCounter := by
  constructor
  · intro t v h
    obtain ⟨hk, rfl⟩ := data_of_reads h
    rfl
  · intro t v h
    obtain ⟨hk, rfl⟩ := data_of_reads h
    rfl

lemma shows_liveCounter : r.bus.Shows 50 r.liveCounter := by
  constructor
  · intro t v h
    obtain ⟨hk, rfl⟩ := data_of_reads h
    rfl
  · intro t v h
    obtain ⟨hk, rfl⟩ := data_of_reads h
    rfl

end Core.Run

/-- `VataCtrl::get_counters`: the running and the live counter, each in two loads. -/
def Ctrl.getCounters (o o' : WordOrder) : Driver (BitVec 64 × BitVec 64) := do
  let running ← readU64 o 48
  let live ← readU64 o' 50
  pure (running, live)

end TrackerFpga.Vata

namespace TrackerFpga.Mapped

open AxiLite Interaction Vata

/-- **When a counter is read torn.**  Of what `get_counter` and `get_counters` return, each value
lies between what its counter was at the first and at the second of its reads exactly when no
carry went from the low to the high word between them, and values without such a carry never go
backwards. -/
theorem counters_between_iff (o : WordOrder) (t t' : ℕ) :
    (∀ r : Sync.Core.Run, r.bus.NeverBackwards 1 r.counter ∧ ∀ v : BitVec 64,
      Exec r.bus.env (Sync.SyncCtrl.getCounter o) t v t' →
        r.bus.TornIffCarry 1 r.counter o t t' v) ∧
    ∀ r : Core.Run, r.bus.NeverBackwards 48 r.runningCounter ∧
      r.bus.NeverBackwards 50 r.liveCounter ∧
      ∀ (o' : WordOrder) (running live : BitVec 64),
        Exec r.bus.env (Ctrl.getCounters o o') t (running, live) t' →
          ∃ m, r.bus.TornIffCarry 48 r.runningCounter o t m running ∧
            r.bus.TornIffCarry 50 r.liveCounter o' m t' live := by
  refine ⟨fun r => ⟨Bus.neverBackwards r.shows_counter,
    fun v h => Bus.tornIffCarry r.shows_counter h⟩, fun r =>
    ⟨Bus.neverBackwards r.shows_runningCounter, Bus.neverBackwards r.shows_liveCounter, ?_⟩⟩
  intro o' running live h
  obtain ⟨a, m, hrunning, hrest⟩ := exec_bind.mp h
  obtain ⟨d, m', hlive, hdone⟩ := exec_bind.mp hrest
  obtain ⟨hpair, rfl⟩ := exec_done.mp hdone
  obtain ⟨rfl, rfl⟩ := Prod.mk.inj hpair
  exact ⟨m, Bus.tornIffCarry r.shows_runningCounter hrunning,
    Bus.tornIffCarry r.shows_liveCounter hlive⟩

/-- The two words of the global counter are read in turn, from slot `n` on. -/
def splitScript (n j : ℕ) : Option (Job 5) :=
  if n ≤ j then some (.read (regAddr 3 (1 + (j - n) % 2))) else none

/-- A run from reset with these reads. -/
def splitRun (n : ℕ) : Sync.Core.Run where
  start := .reset
  master := scripted (splitScript n)

section Split

variable (n : ℕ)

lemma fromReset_splitRun : (splitRun n).FromReset := rfl

lemma follows_splitRun : Follows (fun t => ((splitRun n).regs t).file) (splitScript n) :=
  follows_of_template ((splitRun n).file_axi (fromReset_splitRun n))

lemma counter_splitRun (t : ℕ) : (splitRun n).counter t = BitVec.ofNat 64 t :=
  Sync.Core.Run.counter_of_reset (fromReset_splitRun n) t

/-- The words of the value number `m` are read in the slots `n + 2 * m` and `n + 2 * m + 1`. -/
lemma reads_splitRun (m : ℕ) : (splitRun n).bus.ReadsU64 1 (4 * (n + 2 * m) + 1)
    (4 * (n + 2 * m + 1) + 1) .lowFirst
    ((BitVec.ofNat 64 (4 * (n + 2 * m + 1) + 1)).extractLsb' 32 32
      ++ (BitVec.ofNat 64 (4 * (n + 2 * m) + 1)).extractLsb' 0 32) := by
  have hlow : splitScript n (n + 2 * m) = some (.read (regAddr 3 1)) := by
    rw [splitScript, if_pos (by omega), show (n + 2 * m - n) % 2 = 0 by omega]
  have hhigh : splitScript n (n + 2 * m + 1) = some (.read (regAddr 3 2)) := by
    rw [splitScript, if_pos (by omega), show (n + 2 * m + 1 - n) % 2 = 1 by omega]
  have hreadLow : (splitRun n).bus.Reads (4 * (n + 2 * m) + 1) 1 _ :=
    ⟨by decide, (follows_splitRun n).read (by decide) hlow, rfl⟩
  have hreadHigh : (splitRun n).bus.Reads (4 * (n + 2 * m + 1) + 1) 2 _ :=
    ⟨by decide, (follows_splitRun n).read (by decide) hhigh, rfl⟩
  rw [← counter_splitRun, ← counter_splitRun, ← Sync.Core.Run.low_of_reads hreadLow,
    ← Sync.Core.Run.high_of_reads hreadHigh]
  exact .lowFirst hreadLow hreadHigh

lemma exec_splitRun : Exec (splitRun n).bus.env (Sync.SyncCtrl.getCounter .lowFirst) (4 * n - 2)
    ((BitVec.ofNat 64 (4 * (n + 1) + 1)).extractLsb' 32 32
      ++ (BitVec.ofNat 64 (4 * n + 1)).extractLsb' 0 32) (4 * (n + 1) + 1 + 1) := by
  refine Bus.exec_readU64.mpr ⟨_, _, by omega, by omega, rfl, ?_, reads_splitRun n 0⟩
  refine (noWrites_of_gap (follows_splitRun n) (m := n) (n := n + 2)
    fun j hj hjn addr data => ?_).mono le_rfl (by omega)
  rw [splitScript, if_pos hj]
  simp

/-- The counter counts as long as it does not wrap around. -/
lemma counts_splitRun {x y : ℕ} (hsmall : y < 2 ^ 64) : Counts (splitRun n).counter x y := by
  intro u hu huy
  rw [counter_splitRun, counter_splitRun, BitVec.toNat_ofNat, BitVec.toNat_ofNat,
    Nat.mod_eq_of_lt (by omega), Nat.mod_eq_of_lt (by omega)]
  exact .inr rfl

lemma noCarry_splitRun_iff {x y : ℕ} (hxy : x ≤ y) (hsmall : y < 2 ^ 64) :
    NoCarry (splitRun n).counter x y ↔ x / 2 ^ 32 = y / 2 ^ 32 := by
  rw [NoCarry, SplitRead.NoCarry, counter_splitRun, counter_splitRun, BitVec.toNat_ofNat,
    BitVec.toNat_ofNat, Nat.mod_eq_of_lt (by omega), Nat.mod_eq_of_lt hsmall]

/-- The value that is read is torn where a carry falls between the two slots. -/
lemma torn_splitRun (hcarry : (4 * n + 1) / 2 ^ 32 ≠ (4 * (n + 1) + 1) / 2 ^ 32)
    (hsmall : 4 * (n + 1) + 1 < 2 ^ 64) :
    ∃ x y v, Exec (splitRun n).bus.env (Sync.SyncCtrl.getCounter .lowFirst) (4 * n - 2) v (y + 1) ∧
      (splitRun n).bus.ReadsU64 1 x y .lowFirst v ∧ y = x + 4 ∧
      Counts (splitRun n).counter x y ∧ ¬ Between (splitRun n).counter x y v := by
  have hcounts : Counts (splitRun n).counter (4 * n + 1) (4 * (n + 1) + 1) :=
    counts_splitRun n hsmall
  have hiff := (reads_splitRun n 0).between_iff (splitRun n).shows_counter (by omega) (by omega)
    hcounts
  exact ⟨_, _, _, exec_splitRun n, reads_splitRun n 0, by omega, hcounts, fun hbetween =>
    hcarry ((noCarry_splitRun_iff n (by omega) hsmall).mp (hiff.mp hbetween))⟩

end Split

/-- The words of both counters of a core are read one after the other. -/
def countersScript (n : ℕ) : Option (Job 8) :=
  if n < 4 then some (.read (regAddr 6 (48 + n))) else none

/-- A run of a core from reset with these reads. -/
def countersRun : Core.Run where
  start := .reset 0#12 0#520
  inp t := .quiet (scripted countersScript t)

lemma follows_countersRun : Follows countersRun.file countersScript :=
  Core.Run.follows_of_script rfl ⟨0#12, 0#520, rfl⟩

/-- `get_counters` returns in cycle `14` what it read in the cycles `1`, `5`, `9` and `13`. -/
lemma exec_countersRun :
    ∃ v, Exec countersRun.bus.env (Ctrl.getCounters .lowFirst .lowFirst) 0 v 14 := by
  have hreads : ∀ n < 4, countersRun.bus.Reads (4 * n + 1) (48 + n) _ := fun n hn =>
    ⟨by omega, follows_countersRun.read (by omega) (if_pos hn), rfl⟩
  have hno : countersRun.bus.NoWrites 0 14 := by
    refine fun x _ hx => noWrites_of_gap (p := 100) follows_countersRun
      (m := 0) (n := 4) (fun j _ hj addr data => ?_) x (Nat.zero_le x) (by omega)
    simp [countersScript, hj]
  exact ⟨_, exec_bind.mpr ⟨_, 6, Bus.exec_readU64.mpr ⟨1, 5, by omega, by omega, rfl,
      hno.mono le_rfl (by omega), .lowFirst (hreads 0 (by omega)) (hreads 1 (by omega))⟩,
    exec_bind.mpr ⟨_, 14, Bus.exec_readU64.mpr ⟨9, 13, by omega, by omega, rfl,
      hno.mono (by omega) le_rfl, .lowFirst (hreads 2 (by omega)) (hreads 3 (by omega))⟩,
    exec_done.mpr ⟨rfl, rfl⟩⟩⟩⟩

/-- What is read in the first cycles after the reset is not torn, and the next value is not
less. -/
theorem firstReads_tornIffCarry :
    (splitRun 0).bus.TornIffCarry 1 (splitRun 0).counter .lowFirst 0 6 1#64 ∧
      (∃ v v', (splitRun 0).bus.ReadsU64 1 1 5 .lowFirst v ∧
        (splitRun 0).bus.ReadsU64 1 9 13 .lowFirst v' ∧ v.toNat ≤ v'.toNat) ∧
      ∃ running live m, countersRun.bus.TornIffCarry 48 countersRun.runningCounter .lowFirst 0 m
          running ∧
        countersRun.bus.TornIffCarry 50 countersRun.liveCounter .lowFirst m 14 live := by
  obtain ⟨v, hexec⟩ := exec_countersRun
  obtain ⟨hforward, htorn⟩ := (counters_between_iff .lowFirst 0 6).1 (splitRun 0)
  obtain ⟨-, -, hcounters⟩ := (counters_between_iff .lowFirst 0 14).2 countersRun
  have hfirst := reads_splitRun 0 0
  have hsecond := reads_splitRun 0 1
  exact ⟨htorn 1#64 (exec_splitRun 0), ⟨_, _, hfirst, hsecond,
    hforward hfirst hsecond (by decide) (by decide) (by decide)
      (counts_splitRun 0 (by decide)) ((noCarry_splitRun_iff 0 (by decide) (by decide)).mpr rfl)
      ((noCarry_splitRun_iff 0 (by decide) (by decide)).mpr rfl)⟩,
    v.1, v.2, hcounters .lowFirst v.1 v.2 hexec⟩

/-- The counter is read in the cycles `2 ^ 32 - 3` and `2 ^ 32 + 1` after the reset, and the
value is none that it had between them. -/
theorem splitRun_torn : (splitRun (2 ^ 30 - 1)).FromReset ∧
    ∃ x y v, Exec (splitRun (2 ^ 30 - 1)).bus.env (Sync.SyncCtrl.getCounter .lowFirst)
        (4 * (2 ^ 30 - 1) - 2) v (y + 1) ∧
      (splitRun (2 ^ 30 - 1)).bus.ReadsU64 1 x y .lowFirst v ∧ y = x + 4 ∧
      Counts (splitRun (2 ^ 30 - 1)).counter x y ∧
      ¬ Between (splitRun (2 ^ 30 - 1)).counter x y v :=
  ⟨fromReset_splitRun (2 ^ 30 - 1), torn_splitRun (2 ^ 30 - 1) (by norm_num) (by omega)⟩

end TrackerFpga.Mapped
