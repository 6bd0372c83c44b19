import TrackerFpga.Server.DataEmitter

/-!
# Old packets

`erase_old_packets` and `send_then_erase_old_packets` erase from the map that they go through, and
then step the iterator of the entry that is gone.  So they are defined only where nothing is old
(`exactSweep_iff`).

The age is the difference of two clock readings in 64 bits without a sign.  A packet whose time is
later than the reading has wrapped to a very great age: it is the one kind of young packet that can
be evicted (`runSparesYoung_iff`).  Since the loop that has erased an entry may go on anywhere,
`Loop` lets it, and `Steps` are the runs of the emitter with such loops.
-/

namespace TrackerFpga.Server.DataEmitter

open ByteCodec

variable {n : ℕ}

/-- The timeout in nanoseconds. -/
def timeoutNs : ℕ := 1000000 * packetRemoveTimeoutMs

/-- The age of the packet exceeds the timeout. -/
def Stale (currentTime : BitVec 64) (p : DataPacket n) : Prop :=
  timeoutNs < currentTime.toNat - p.packetTime.toNat

instance (currentTime : BitVec 64) : DecidablePred (Stale (n := n) currentTime) :=
  fun _ => inferInstanceAs (Decidable (_ < _))

/-- The message of a packet. -/
def messageOf (p : DataPacket n) : List Byte := p.setAsicFlags.toMsg p.setAsicFlags.getPacketSize

/-- The stale entries of `e` are gone in `e'`, all others are as they were, and these messages have
been sent. -/
structure Evicted (e e' : DataEmitter n) (currentTime : BitVec 64) (msgs : List (List Byte)) :
    Prop where
  packets : ∀ id : ℤ, e'.packets[id]? =
    (e.packets[id]?).filter fun p => !decide (Stale currentTime p)
  sent : e'.sent = e.sent ++ msgs

/-- Both loops end in a defined state with the stale entries gone; the one has sent each of them
once, the other none. -/
structure ExactSweep (e : DataEmitter n) (currentTime : BitVec 64) : Prop where
  sendThenErase : ∃ e', e.sendThenEraseOldPackets currentTime = some e' ∧
    e.Evicted e' currentTime
      ((e.packets.toList.filter fun it => Stale currentTime it.2).map fun it => messageOf it.2)
  erase : ∃ e', e.eraseOldPackets currentTime = some e' ∧ e.Evicted e' currentTime []

/-! ## What one loop does -/

section Sweep

variable {evict : DataEmitter n → MapEntry n → DataEmitter n} {e e' : DataEmitter n}
  {t : BitVec 64} {p : DataPacket n} {it : MapEntry n} {l gone : List (MapEntry n)} {id : ℤ}

/-- The evicted entry is erased from the map, and no other. -/
def Erases (evict : DataEmitter n → MapEntry n → DataEmitter n) : Prop :=
  ∀ e it, (evict e it).packets = e.packets.erase it.1

lemma erases_eraseEntry : Erases (eraseEntry (n := n)) := fun _ _ => rfl

lemma erases_sendThenEraseEntry : Erases (sendThenEraseEntry (n := n)) := fun _ _ => rfl

lemma Erases.not_contains (hevict : Erases evict) (e : DataEmitter n) (it : MapEntry n) :
    (evict e it).packets.contains it.1 = false := by
  rw [hevict, Std.TreeMap.contains_erase]
  simp

/-- The first entry that is timed out stops the loop. -/
lemma sweepFrom_of_timedOut (hevict : Erases evict)
    (hl : ∀ it ∈ l, e.packets[it.1]? = some it.2) (hit : it ∈ l)
    (hold : timedOut t it.2 = true) : sweepFrom evict t l e = none := by
  induction l with
  | nil => simp at hit
  | cons it' l ih =>
      rcases hfirst : timedOut t it'.2 with - | -
      · have hmem : it ∈ l := by
          rcases List.mem_cons.mp hit with rfl | hmem
          · exact absurd (hold.symm.trans hfirst) (by decide)
          · exact hmem
        simp only [sweepFrom, hfirst, Bool.false_eq_true, if_false,
          contains_of_get (hl it' (by simp)), if_true]
        exact ih (fun it'' h => hl it'' (by simp [h])) hmem
      · simp only [sweepFrom, hfirst, if_true, hevict.not_contains, Bool.false_eq_true, if_false]

/-! ## Times -/

lemma timedOut_iff : timedOut t p = true ↔ timeoutNs < (t - p.packetTime).toNat :=
  decide_eq_true_iff

/-- The age is right if the time of the packet is not later than the reading. -/
lemma timedOut_iff_stale (h : p.packetTime ≤ t) : timedOut t p = true ↔ Stale t p := by
  rw [timedOut_iff, Stale, BitVec.toNat_sub_of_le h]

end Sweep

/-! ## Six pending packets -/

/-- Core `1` of two returns a packet of this id, one second after the epoch. -/
def pendingRead (id : Word) : FifoRead 2 where
  core := Fin.last 1
  success := 0
  data := Vector.ofFn fun k => if k.val = 0 then id else 0#32
  nFifo := 0#32
  currentTime := 1000000000#64
  packetTime := 1000000000#64
  uninitialised _ := Vector.replicate 19 0#32

/-- Six calls with different ids. -/
def sixCalls : List (FifoRead 2) :=
  [pendingRead 0#32, pendingRead 1#32, pendingRead 2#32, pendingRead 3#32, pendingRead 4#32,
    pendingRead 5#32]

/-- The emitter that waits for core `0` under six ids. -/
def sixPending : DataEmitter 2 := ran sixCalls

lemma run_sixCalls : init.run sixCalls = some sixPending := by
  have hsome : (init.run sixCalls).isSome = true := by decide +kernel
  obtain ⟨e, he⟩ := Option.isSome_iff_exists.mp hsome
  rw [sixPending, ran, he]
  rfl

lemma sixPending_times :
    (∀ it ∈ sixPending.packets.toList, it.2.packetTime = 1000000000#64) ∧
      sixPending.packets.contains 0 = true := by decide +kernel

lemma sixPending_time {id : ℤ} {p : DataPacket 2} (hp : sixPending.packets[id]? = some p) :
    p.packetTime = 1000000000#64 := sixPending_times.1 _ (mem_toList_of_get hp)

lemma sixPending_zero : ∃ p, sixPending.packets[(0 : ℤ)]? = some p := by
  have hmem := sixPending_times.2
  rw [Std.TreeMap.contains_eq_isSome_getElem?] at hmem
  exact Option.isSome_iff_exists.mp hmem

/-! ## Eviction is exact where nothing is stale -/

section Exact

variable {e : DataEmitter n} {t : BitVec 64} {p : DataPacket n} {id : ℤ}

lemma evicted_self (h : ∀ (id : ℤ) p, e.packets[id]? = some p → ¬ Stale t p) :
    e.Evicted e t [] := by
  refine ⟨fun id => ?_, (List.append_nil _).symm⟩
  rcases hp : e.packets[id]? with - | p
  · rfl
  · rw [Option.filter_some, decide_eq_false (h id p hp)]
    rfl

lemma exactSweep_of_young (htime : ∀ (id : ℤ) p, e.packets[id]? = some p → p.packetTime ≤ t)
    (h : ∀ (id : ℤ) p, e.packets[id]? = some p → ¬ Stale t p) : e.ExactSweep t := by
  have hyoung : ∀ it ∈ e.packets.toList, timedOut t it.2 = false := by
    intro it hit
    have hget := get_of_mem_toList hit
    rw [← Bool.not_eq_true, timedOut_iff_stale (htime _ _ hget)]
    exact h _ _ hget
  have hnone : (e.packets.toList.filter fun it => Stale t it.2) = [] :=
    List.filter_eq_nil_iff.mpr fun it hit => by simpa using h _ _ (get_of_mem_toList hit)
  refine ⟨⟨e, sweepFrom_of_young (fun _ => get_of_mem_toList) hyoung, ?_⟩,
    ⟨e, sweepFrom_of_young (fun _ => get_of_mem_toList) hyoung, evicted_self h⟩⟩
  rw [hnone]
  exact evicted_self h

/-- A stale packet stops both loops. -/
lemma not_exactSweep_of_stale (hp : e.packets[id]? = some p) (htime : p.packetTime ≤ t)
    (hstale : Stale t p) : ¬ e.ExactSweep t := by
  rintro ⟨-, e', he', -⟩
  have hnone := sweepFrom_of_timedOut erases_eraseEntry
    (fun _ => get_of_mem_toList) (mem_toList_of_get hp) ((timedOut_iff_stale htime).mpr hstale)
  exact absurd (he'.symm.trans hnone) (by simp)

/-- **Eviction.**  At a time that is not before any pending packet, the two loops evict exactly the
packets whose age exceeds the timeout only where there is none. -/
theorem exactSweep_iff (e : DataEmitter n) (t : BitVec 64)
    (htime : ∀ (id : ℤ) p, e.packets[id]? = some p → p.packetTime ≤ t) :
    e.ExactSweep t ↔ ∀ (id : ℤ) p, e.packets[id]? = some p → ¬ Stale t p :=
  ⟨fun hexact id p hp hstale => not_exactSweep_of_stale hp (htime id p hp) hstale hexact,
    exactSweep_of_young htime⟩

end Exact

/-- Two seconds later they are stale, and the loops go wrong. -/
theorem sixPending_not_exact : ¬ ∀ (e : DataEmitter 2) (t : BitVec 64),
    (∀ (id : ℤ) p, e.packets[id]? = some p → p.packetTime ≤ t) → e.ExactSweep t := by
  intro hclaim
  obtain ⟨p, hp⟩ := sixPending_zero
  have hle : ∀ (id : ℤ) (p : DataPacket 2), sixPending.packets[id]? = some p →
      p.packetTime ≤ 3000000000#64 := fun id p hp => by
    rw [sixPending_time hp]
    decide
  refine not_exactSweep_of_stale hp (hle 0 p hp) ?_ (hclaim sixPending 3000000000#64 hle)
  rw [Stale, sixPending_time hp]
  decide

/-- One second later they are not, and the sweep is exact. -/
theorem sixPending_exact : sixPending.ExactSweep 2000000000#64 := by
  refine (exactSweep_iff sixPending 2000000000#64 fun id p hp => ?_).mpr fun id p hp => ?_
  · rw [sixPending_time hp]
    decide
  · rw [Stale, sixPending_time hp]
    decide

/-! ## The loop that goes on anywhere -/

/-- The loop from an iterator at the head of the list on: the entries it evicts, and the emitter at
its end.  When it has evicted an entry, `it++` may give any iterator of the map. -/
inductive Loop (evict : DataEmitter n → MapEntry n → DataEmitter n) (currentTime : BitVec 64) :
    List (MapEntry n) → DataEmitter n → List (MapEntry n) → DataEmitter n → Prop
  | done (e : DataEmitter n) : Loop evict currentTime [] e [] e
  | keep {it rest e gone e'} : timedOut currentTime it.2 = false →
      Loop evict currentTime rest e gone e' → Loop evict currentTime (it :: rest) e gone e'
  | evict {it rest l e gone e'} : timedOut currentTime it.2 = true →
      l <:+ (evict e it).packets.toList → Loop evict currentTime l (evict e it) gone e' →
        Loop evict currentTime (it :: rest) e (it :: gone) e'

/-- The time of the packet is later than the reading, or less than the timeout before it. -/
def Young (currentTime : BitVec 64) (p : DataPacket n) : Prop :=
  currentTime < p.packetTime ∨ currentTime.toNat - p.packetTime.toNat < timeoutNs

/-- No pending packet has a time later than the reading, but for those from `2 ^ 64` nanoseconds
less the timeout on. -/
def NoneLater (e : DataEmitter n) (currentTime : BitVec 64) : Prop :=
  ∀ (id : ℤ) p, e.packets[id]? = some p → currentTime < p.packetTime →
    2 ^ 64 - timeoutNs ≤ p.packetTime.toNat - currentTime.toNat

/-- However the loop goes on, no young packet is evicted. -/
def SparesYoung (evict : DataEmitter n → MapEntry n → DataEmitter n) (e : DataEmitter n)
    (currentTime : BitVec 64) : Prop :=
  ∀ gone e', Loop evict currentTime e.packets.toList e gone e' →
    ∀ (id : ℤ) p, e.packets[id]? = some p → Young currentTime p →
      (id, p) ∉ gone ∧ e'.packets[id]? = some p

section Loop

variable {evict : DataEmitter n → MapEntry n → DataEmitter n} {e e' : DataEmitter n}
  {t : BitVec 64} {p : DataPacket n} {it : MapEntry n} {l gone : List (MapEntry n)} {id : ℤ}

/-- A loop without an undefined step is one of these. -/
lemma loop_of_sweepFrom (hevict : Erases evict) (h : sweepFrom evict t l e = some e') :
    Loop evict t l e [] e' := by
  induction l with
  | nil =>
      obtain rfl := Option.some.inj h
      exact .done _
  | cons it l ih =>
      rw [sweepFrom] at h
      rcases hold : timedOut t it.2 with - | -
      · simp only [hold, Bool.false_eq_true, if_false] at h
        split_ifs at h
        exact .keep hold (ih h)
      · simp [hold, hevict.not_contains] at h

/-- Of `send_then_erase_old_packets`: what is evicted is sent. -/
lemma Loop.sent (h : Loop sendThenEraseEntry t l e gone e') :
    e'.sent = e.sent ++ gone.map fun it => messageOf it.2 := by
  induction h with
  | done e => exact (List.append_nil _).symm
  | keep _ _ ih => exact ih
  | evict _ _ _ ih =>
      rw [ih]
      simp [sendThenEraseEntry, sendData, DataEmitter.erase, messageOf]

/-- What is evicted is timed out, and nothing else is gone. -/
lemma Loop.evicted (hevict : Erases evict) (h : Loop evict t l e gone e') :
    (∀ it ∈ gone, timedOut t it.2 = true) ∧
      ∀ id : ℤ, (∀ it ∈ gone, it.1 ≠ id) → e'.packets[id]? = e.packets[id]? := by
  induction h with
  | done e => exact ⟨fun it hit => absurd hit (by simp), fun _ _ => rfl⟩
  | keep _ _ ih => exact ih
  | @evict it rest l e gone e' hold _ _ ih =>
      refine ⟨fun it' hit' => ?_, fun id hid => ?_⟩
      · rcases List.mem_cons.mp hit' with rfl | hmem
        · exact hold
        · exact ih.1 it' hmem
      · have hne : ¬ compare it.1 id = .eq :=
          fun heq => hid it (by simp) (Std.LawfulEqCmp.eq_of_compare heq)
        rw [ih.2 id fun it' hit' => hid it' (by simp [hit']), hevict, Std.TreeMap.getElem?_erase,
          if_neg hne]

/-- Every entry that is evicted was in the map. -/
lemma Loop.mem (hevict : Erases evict) (h : Loop evict t l e gone e')
    (hl : ∀ it ∈ l, e.packets[it.1]? = some it.2) :
    ∀ it ∈ gone, e.packets[it.1]? = some it.2 := by
  induction h with
  | done e => exact fun it hit => absurd hit (by simp)
  | keep _ _ ih => exact ih fun it hit => hl it (by simp [hit])
  | @evict it rest l e gone e' hold hsuffix _ ih =>
      intro it' hit'
      rcases List.mem_cons.mp hit' with rfl | hmem
      · exact hl it' (by simp)
      · have hget := ih (fun it'' h => get_of_mem_toList (hsuffix.subset h)) it' hmem
        rw [hevict, Std.TreeMap.getElem?_erase] at hget
        split_ifs at hget
        exact hget

/-- A timed-out entry is evicted by some loop. -/
lemma exists_loop_of_timedOut (hevict : Erases evict)
    (hl : ∀ it ∈ l, e.packets[it.1]? = some it.2) (hit : it ∈ l)
    (hold : timedOut t it.2 = true) : ∃ gone e', Loop evict t l e gone e' ∧ it ∈ gone := by
  induction l with
  | nil => simp at hit
  | cons it' l ih =>
      rcases hfirst : timedOut t it'.2 with - | -
      · have hmem : it ∈ l := by
          rcases List.mem_cons.mp hit with rfl | hmem
          · exact absurd (hold.symm.trans hfirst) (by decide)
          · exact hmem
        obtain ⟨gone, e', hloop, hgone⟩ := ih (fun it'' h => hl it'' (by simp [h])) hmem
        exact ⟨gone, e', .keep hfirst hloop, hgone⟩
      · by_cases hkey : it'.1 = it.1
        · have hget := hl it' (by simp)
          rw [hkey, hl it hit] at hget
          have hsame : it' = it := Prod.ext hkey (Option.some.inj hget).symm
          subst hsame
          exact ⟨_, _, .evict hfirst (List.nil_suffix) (.done _), by simp⟩
        · -- the loop goes on at the entry
          have hstill : (it.1, it.2) ∈ (evict e it').packets.toList := by
            refine mem_toList_of_get ?_
            rw [hevict, Std.TreeMap.getElem?_erase,
              if_neg fun heq => hkey (Std.LawfulEqCmp.eq_of_compare heq)]
            exact hl it hit
          obtain ⟨before, after, hsplit⟩ := List.append_of_mem hstill
          exact ⟨_, _, .evict hfirst ⟨before, hsplit.symm⟩
            (.evict hold List.nil_suffix (.done _)), by simp⟩

/-- Only packets whose time is later than the reading are timed out while they are young, and not
even those from `2 ^ 64` nanoseconds less the timeout on. -/
lemma timedOut_iff_of_young (h : Young t p) : timedOut t p = true ↔
    t < p.packetTime ∧ p.packetTime.toNat - t.toNat < 2 ^ 64 - timeoutNs := by
  have ht := t.isLt
  have hp := p.packetTime.isLt
  have hsmall : timeoutNs = 1000000000 := rfl
  rw [timedOut_iff, BitVec.toNat_sub, BitVec.lt_def]
  unfold Young at h
  rw [BitVec.lt_def] at h
  omega

lemma sparesYoung_of_noneLater (hevict : Erases evict) (h : e.NoneLater t) :
    e.SparesYoung evict t := by
  intro gone e' hloop id p hp hyoung
  have hkept : timedOut t p = false := by
    rw [← Bool.not_eq_true, timedOut_iff_of_young hyoung]
    rintro ⟨hlater, hless⟩
    exact absurd (h id p hp hlater) (by omega)
  obtain ⟨hold, hrest⟩ := hloop.evicted hevict
  refine ⟨fun hgone => ?_, ?_⟩
  · exact absurd ((hold _ hgone).symm.trans hkept) (by decide)
  · rw [hrest id, hp]
    rintro it hit rfl
    have hget := hloop.mem hevict (fun _ => get_of_mem_toList) it hit
    rw [hp] at hget
    obtain rfl := Option.some.inj hget
    exact absurd ((hold it hit).symm.trans hkept) (by decide)

/-- A packet that is timed out because its time is later than the reading is evicted. -/
lemma not_sparesYoung (hevict : Erases evict) (hp : e.packets[id]? = some p)
    (hlater : t < p.packetTime) (hless : p.packetTime.toNat - t.toNat < 2 ^ 64 - timeoutNs) :
    ¬ e.SparesYoung evict t := by
  intro hspares
  have hyoung : Young t p := .inl hlater
  obtain ⟨gone, e', hloop, hgone⟩ := exists_loop_of_timedOut hevict (fun _ => get_of_mem_toList)
    (mem_toList_of_get hp) ((timedOut_iff_of_young hyoung).mpr ⟨hlater, hless⟩)
  exact (hspares gone e' hloop id p hp hyoung).1 hgone

/-- A loop spares the young packets exactly if no pending packet has a time later than the reading,
by less than `2 ^ 64` nanoseconds less the timeout. -/
lemma sparesYoung_iff (hevict : Erases evict) (e : DataEmitter n) (t : BitVec 64) :
    e.SparesYoung evict t ↔ e.NoneLater t := by
  constructor
  · intro hspares id p hp hlater
    by_contra hless
    exact not_sparesYoung hevict hp hlater (by omega) hspares
  · exact sparesYoung_of_noneLater hevict

end Loop

/-! ## Runs of the emitter -/

/-- The emitter with the packet that the call inserts under a new id. -/
def insertNew (e : DataEmitter n) (c : FifoRead n) : DataEmitter n :=
  { e with packets := e.packets.insert (DataPacket.eventIdOf c.data)
            (DataPacket.new c.packetTime c.uninitialised) }

/-- A call of `read_fifo` with this function for the old entries.  If it comes to the loop, that may
go on anywhere. -/
inductive Step (evict : DataEmitter n → MapEntry n → DataEmitter n) (e : DataEmitter n)
    (c : FifoRead n) : DataEmitter n → Prop
  | read {e'} : ¬ e.Sweeps c → e.readFifo c = some e' → Step evict e c e'
  | sweep {gone e₁ e'} : e.Sweeps c → Loop evict c.currentTime e.packets.toList e gone e₁ →
      (e₁.insertNew c).readFifo c = some e' → Step evict e c e'

/-- A sequence of calls of `read_fifo`. -/
inductive Steps (evict : DataEmitter n → MapEntry n → DataEmitter n) :
    DataEmitter n → List (FifoRead n) → DataEmitter n → Prop
  | refl (e : DataEmitter n) : Steps evict e [] e
  | step {e c e' cs e''} : Step evict e c e' → Steps evict e' cs e'' → Steps evict e (c :: cs) e''

/-- However the loops go on, the sweeps of this sequence of calls evict no young packet. -/
def RunSparesYoung (evict : DataEmitter n → MapEntry n → DataEmitter n) (cs : List (FifoRead n)) :
    Prop :=
  ∀ k c e, cs[k]? = some c → Steps evict init (cs.take k) e → e.Sweeps c →
    e.SparesYoung evict c.currentTime

/-- No sweep of this sequence of calls meets a packet whose time is later than its reading. -/
def RunNoneLater (evict : DataEmitter n → MapEntry n → DataEmitter n) (cs : List (FifoRead n)) :
    Prop :=
  ∀ k c e, cs[k]? = some c → Steps evict init (cs.take k) e → e.Sweeps c →
    e.NoneLater c.currentTime

section Runs

variable {e e' : DataEmitter n} {c : FifoRead n} {cs : List (FifoRead n)}

lemma findPacket_of_sweeps (h : e.Sweeps c) : e.findPacket c =
    (e.sendThenEraseOldPackets c.currentTime).map fun e => e.insertNew c := by
  obtain ⟨-, hnew, hmany⟩ := h
  rw [findPacket, hnew, checkStale, if_pos hmany, if_neg Bool.false_ne_true]
  cases e.sendThenEraseOldPackets c.currentTime <;> rfl

lemma findPacket_insertNew : (e.insertNew c).findPacket c = some (e.insertNew c) := by
  have hfound : (e.insertNew c).packets.contains (DataPacket.eventIdOf c.data) = true := by
    rw [insertNew, Std.TreeMap.contains_insert_self]
  rw [findPacket, hfound, if_pos rfl]

/-- A call without an undefined step is one of these: after the sweep it goes on as one that finds
the packet. -/
lemma step_of_readFifo (h : e.readFifo c = some e') : Step sendThenEraseEntry e c e' := by
  by_cases hsweeps : e.Sweeps c
  · rw [readFifo, if_pos hsweeps.1, findPacket_of_sweeps hsweeps] at h
    rcases hsweep : e.sendThenEraseOldPackets c.currentTime with - | e₁
    · rw [hsweep] at h
      exact absurd h (by simp)
    · rw [hsweep] at h
      refine .sweep hsweeps (loop_of_sweepFrom erases_sendThenEraseEntry hsweep) ?_
      rw [readFifo, if_pos hsweeps.1, findPacket_insertNew]
      exact h
  · exact .read hsweeps h

/-- A run without an undefined step is one of these. -/
lemma steps_of_run (h : e.run cs = some e') : Steps sendThenEraseEntry e cs e' := by
  induction cs generalizing e with
  | nil =>
      obtain rfl := Option.some.inj h
      exact .refl _
  | cons c cs ih =>
      rw [run, List.foldlM_cons] at h
      obtain ⟨e₁, hfirst, hrest⟩ := Option.bind_eq_some_iff.mp h
      exact .step (step_of_readFifo hfirst) (ih hrest)

end Runs

/-- **Young packets.**  In a sequence of calls, with whatever readings of the clock, the sweeps of
either function spare the young packets exactly if none of them meets a pending packet that is
later than its reading, by less than `2 ^ 64` nanoseconds less the timeout. -/
theorem runSparesYoung_iff (cs : List (FifoRead n)) :
    (RunSparesYoung sendThenEraseEntry cs ↔ RunNoneLater sendThenEraseEntry cs) ∧
      (RunSparesYoung eraseEntry cs ↔ RunNoneLater eraseEntry cs) := by
  constructor
  · exact forall₃_congr fun k c e => forall₃_congr fun _ _ _ =>
      sparesYoung_iff erases_sendThenEraseEntry e c.currentTime
  · exact forall₃_congr fun k c e => forall₃_congr fun _ _ _ =>
      sparesYoung_iff erases_eraseEntry e c.currentTime

/-- A seventh id, with the clock set back by half a second. -/
def clockSetBack : FifoRead 2 := { pendingRead 6#32 with currentTime := 500000000#64 }

/-- The six pending packets are young, and the sweep may evict them. -/
theorem sixPending_not_spared : ¬ ∀ cs : List (FifoRead 2),
    RunSparesYoung sendThenEraseEntry cs ∧ RunSparesYoung eraseEntry cs := by
  intro hclaim
  obtain ⟨p, hp⟩ := sixPending_zero
  have htime := sixPending_time hp
  have hspares : sixPending.SparesYoung sendThenEraseEntry 500000000#64 :=
    (hclaim (sixCalls ++ [clockSetBack])).1 6 clockSetBack sixPending rfl
      (steps_of_run run_sixCalls) ⟨rfl, by decide +kernel, by decide +kernel⟩
  refine not_sparesYoung erases_sendThenEraseEntry hp ?_ ?_ hspares
  · rw [htime]
    decide
  · rw [htime]
    decide

end TrackerFpga.Server.DataEmitter
