import TrackerFpga.Vata.ConfigTime
import TrackerFpga.Vata.Ctrl

/-!
# What a result of `set_check_config` says about the ASIC

`set_check_config` writes a configuration, waits, reads it back, waits, and compares.  Both
commands are pulses of one cycle that only `IDLE` looks at, where a trigger has priority, and
`cfg_reg_from_pl` keeps what the last read-back has left in it.  So a result depends on whether
the two pulses found the interface free (`Run.Free`).

What is compared with the configuration is the ASIC, if the `get_config` pulse was taken, and
otherwise the old content of `cfg_reg_from_pl` (`Timeline.outcome_iff`).  In the second case a
positive result says nothing about the ASIC (`set_check_config_sound_iff`).
-/

namespace TrackerFpga.Vata.Core.Run

open AxiLite Interaction Mapped

variable {r : Run} {a : Asic} {config : Ctrl.Config} {t set get t' x y : ℕ} {ok : Bool}

/-! ## The words of a configuration -/

/-- A register reads as the words of a configuration if it holds their bits, and no bit is lost. -/
lemma words_eq_iff (config : Ctrl.Config) (z : BitVec 520) :
    (∀ i < Ctrl.nCfgReg, config.word i = cfgWord z i) ↔
      z = config.bits ∧ config.word 16 < 256#32 := by
  have hbit : ∀ i < 17, ∀ j < 32, 32 * i + j < 520 →
      config.bits.getLsbD (32 * i + j) = (config.word i).getLsbD j := by
    intro i hi j hj hij
    have hdiv : (32 * i + j) / 32 = i := by omega
    have hmod : (32 * i + j) % 32 = j := by omega
    rw [Ctrl.Config.getLsbD_bits _ hij, hdiv, hmod]
  constructor
  · intro h
    constructor
    · apply BitVec.eq_of_getLsbD_eq
      intro j hj
      have hword : j / 32 < Ctrl.nCfgReg := by
        rw [Ctrl.nCfgReg]
        omega
      have hj32 : j % 32 < 32 := Nat.mod_lt _ (by decide)
      have hidx : 32 * (j / 32) + j % 32 = j := Nat.div_add_mod j 32
      rw [Ctrl.Config.getLsbD_bits _ hj, h _ hword, cfgWord, BitVec.getLsbD_extractLsb', hidx,
        decide_eq_true hj32, Bool.true_and]
    · rw [h 16 (by decide), cfgWord]
      have hbyte : z.extractLsb' (32 * 16) 32 = (z.extractLsb' 512 8).setWidth 32 := by
        apply BitVec.eq_of_getLsbD_eq
        intro j hj
        by_cases hj8 : j < 8
        · simp [hj, hj8]
        · simp [hj, hj8, BitVec.getLsbD_of_ge z (512 + j) (by omega)]
      rw [hbyte]
      generalize z.extractLsb' 512 8 = byte
      bv_omega
  · rintro ⟨hz, hlow⟩ i hi
    apply BitVec.eq_of_getLsbD_eq
    intro j hj
    rw [hz, cfgWord, BitVec.getLsbD_extractLsb', decide_eq_true hj, Bool.true_and]
    rcases Nat.lt_or_ge (32 * i + j) 520 with hlt | hge
    · exact (hbit i hi j hj hlt).symm
    · -- the upper 24 bits of the last word
      obtain rfl : i = 16 := by
        rw [Ctrl.nCfgReg] at hi
        omega
      have hsmall : (config.word 16).toNat < 2 ^ j := by
        have h256 : (config.word 16).toNat < 2 ^ 8 := hlow
        exact h256.trans_le (Nat.pow_le_pow_right (by decide) (by omega))
      rw [BitVec.getLsbD_of_ge _ _ hge]
      exact Nat.testBit_lt_two_pow hsmall

/-! ## The interface during a call -/

/-- The command pulses that reach the interface after cycle `t` and up to cycle `t'` are one
`set_config`, in cycle `set`, and one `get_config`, in cycle `get`. -/
def Commands (r : Run) (t set get t' : ℕ) : Prop :=
  ∀ x, t < x → x ≤ t' →
    ((r.fsm.inp x).setConfig = true ↔ x = set) ∧ ((r.fsm.inp x).getConfig = true ↔ x = get)

namespace Timeline

variable (h : r.Timeline config t set get t' ok)
include h

/-- What the pulses are in each cycle of the call. -/
lemma triggers (hx : t < x) (hxt : x ≤ t') :
    (r.regs x).control.triggers =
      if x = set then 1#16 else if x = get then 2#16 else 0#16 := by
  have hwait := h.wait
  by_cases hset : x = set
  · rw [if_pos hset, hset, h.setPulse]
  by_cases hget : x = get
  · rw [if_neg hset, if_pos hget, hget, h.getPulse]
  rw [if_neg hset, if_neg hget]
  rcases Nat.lt_trichotomy x set with hlt | heq | hgt
  · exact h.calmBefore x hx hlt
  · exact absurd heq hset
  · rcases Nat.lt_trichotomy x get with hlt' | heq' | hgt'
    · exact h.calmBetween x hgt hlt'
    · exact absurd heq' hget
    · exact h.calmAfter x hgt' (Nat.lt_succ_of_le hxt)

lemma commands : r.Commands t set get t' := by
  intro x hx hxt
  have hline := h.triggers hx hxt
  have hwait := h.wait
  have hset : (r.fsm.inp x).setConfig = (r.regs x).control.triggers.getLsbD 0 := rfl
  have hget : (r.fsm.inp x).getConfig = (r.regs x).control.triggers.getLsbD 1 := rfl
  rw [hset, hget, hline]
  split_ifs with h1 h2
  · simp [h1]
    omega
  · simp [h2]
    omega
  · simp [h1, h2]

lemma force (hx : t < x) (hxt : x ≤ t') : (r.fsm.inp x).forceFsmIdle = false := by
  have hforce : (r.fsm.inp x).forceFsmIdle = (r.regs x).control.triggers.getLsbD 5 := rfl
  rw [hforce, h.triggers hx hxt]
  split_ifs <;> rfl

lemma noCommand (hx : t < x) (hxt : x ≤ t') (hset : x ≠ set) (hget : x ≠ get) :
    r.fsm.NoCommand x := by
  intro _
  obtain ⟨h1, h2⟩ := h.commands x hx hxt
  exact ⟨Bool.eq_false_of_not_eq_true fun hc => hset (h1.mp hc),
    Bool.eq_false_of_not_eq_true fun hc => hget (h2.mp hc)⟩

/-- A `set_config` pulse that is taken has loaded the ASIC when the `get_config` pulse comes. -/
lemma asic_of_free_set (hr : r.FromReset) (ha : a.mode = Mode.m3.code) (hfree : r.fsm.Free set) :
    (r.fsm.asic a get).shiftReg = config.bits := by
  have hset_gt := h.set_gt
  have hwait := h.wait
  have hget_le := h.get_le
  have h0 := r.idle_zero hr
  have hcfg : ∀ u, set < u → u ≤ set + 2000001 →
      (r.fsm.inp u).cfgRegFromPs = config.bits := by
    intro u hu hut
    rw [fsm_cfgRegFromPs]
    exact h.loaded u (Nat.le_of_lt hu) (by omega)
  obtain ⟨T, hT, hback, hloaded⟩ := Vata.Run.set_within (a := a) h0 hfree
    ((h.commands set hset_gt (by omega)).1.mpr rfl)
    (fun u hu hut => h.force (by omega) (by omega)) hcfg
  have hTset := hback.lt
  have hidle : r.fsm.phase T ≠ .config := by
    rw [Vata.Run.idle_iff.mp hback.idle]
    decide
  obtain ⟨hsame, -⟩ := Vata.Run.untouched h0 ha hidle (y := get) (by omega) fun u hu huget =>
    h.noCommand (by omega) (by omega) (by omega) (by omega)
  rw [hsame, hloaded]

/-- What the call compares with the configuration: the ASIC if the `get_config` pulse was taken,
the old content of `cfg_reg_from_pl` if it was not.  Either way the ASIC is when the call returns
what it was at the pulse. -/
lemma outcome_iff (hr : r.FromReset) (hwired : r.fsm.Wired a) (ha : a.mode = Mode.m3.code) :
    (r.fsm.asic a t').shiftReg = (r.fsm.asic a get).shiftReg ∧
      ∃ z, (ok = true ↔ z = config.bits ∧ config.word 16 < 256#32) ∧
        (r.fsm.Free get → z = (r.fsm.asic a get).shiftReg) ∧
        (¬ r.fsm.Free get → z = cfgRegFromPl (r.fsm.regs get)) := by
  have hset_gt := h.set_gt
  have hwait := h.wait
  have hget_le := h.get_le
  have h0 := r.idle_zero hr
  obtain ⟨out, hreads, hok⟩ := h.outcome
  -- whether the pulse is taken or not, all the reads see one value `z`
  have hreduce : ∀ z, (∀ u, get + 10000000 ≤ u → u < t' → cfgRegFromPl (r.fsm.regs u) = z) →
      (ok = true ↔ z = config.bits ∧ config.word 16 < 256#32) := by
    intro z hz
    rw [hok, ← words_eq_iff]
    refine forall₂_congr fun i hi => ?_
    obtain ⟨u, hu, hut, hout⟩ := hreads i hi
    rw [hout, hz u hu hut]
  have hquiet : ∀ u, get < u → u ≤ t' → r.fsm.NoCommand u := fun u hu hut =>
    h.noCommand (by omega) hut (by omega) (by omega)
  by_cases hfree : r.fsm.Free get
  · obtain ⟨hset, hget⟩ := h.commands get (by omega) (by omega)
    have hsetLow : (r.fsm.inp get).setConfig = false :=
      Bool.eq_false_of_not_eq_true fun hc => by have := hset.mp hc; omega
    obtain ⟨T, hT, hback, hreg, hpl⟩ := Vata.Run.get_within h0 hwired hfree hsetLow
      (hget.mpr rfl) fun u hu hut => h.force (by omega) (by omega)
    have hTget := hback.lt
    have hidle : r.fsm.phase T ≠ .config := by
      rw [Vata.Run.idle_iff.mp hback.idle]
      decide
    have hafter : ∀ u, T ≤ u → u ≤ t' →
        (r.fsm.asic a u).shiftReg = (r.fsm.asic a T).shiftReg ∧
          cfgRegFromPl (r.fsm.regs u) = cfgRegFromPl (r.fsm.regs T) := fun u hu hut =>
      Vata.Run.untouched h0 ha hidle hu fun v hv hvu => hquiet v (by omega) (by omega)
    refine ⟨(hafter t' (by omega) le_rfl).1.trans hreg, (r.fsm.asic a get).shiftReg,
      hreduce _ fun u hu hut => (hafter u (by omega) hut.le).2.trans hpl, fun _ => rfl,
      fun hnot => absurd hfree hnot⟩
  · have hconfig : r.fsm.phase get ≠ .config :=
      Vata.Run.not_config_of_wait (x := set + 1) h0 (by omega)
        (fun u hu huget => h.noCommand (by omega) (by omega) (by omega) (by omega))
        fun u hu huget => h.force (by omega) (by omega)
    have hafter : ∀ u, get ≤ u → u ≤ t' →
        (r.fsm.asic a u).shiftReg = (r.fsm.asic a get).shiftReg ∧
          cfgRegFromPl (r.fsm.regs u) = cfgRegFromPl (r.fsm.regs get) := fun u hu hut =>
      Vata.Run.untouched h0 ha hconfig hu fun v hv hvu => by
        rcases Nat.eq_or_lt_of_le hv with rfl | hlt
        · exact fun hc => absurd hc hfree
        · exact hquiet v hlt (by omega)
    exact ⟨(hafter t' (by omega) le_rfl).1, cfgRegFromPl (r.fsm.regs get),
      hreduce _ fun u hu hut => (hafter u (by omega) hut.le).2, fun hc => absurd hc hfree,
      fun _ => rfl⟩

end Timeline

/-! ## A session of the software -/

/-- The accesses of a session: forced triggers are enabled, and then `set_check_config` is called,
with a little more than 100 ms for each of its two waits. -/
def session (config : Ctrl.Config) (n : ℕ) : Option (Job 8) :=
  if n = 0 then some (.write (regAddr 6 21) 0x4000#32)
  else if n ≤ 17 then some (.write (regAddr 6 n) (config.word (n - 1)))
  else if n = 18 then some (.write (regAddr 6 0) 0#32)
  else if n = 3000000 then some (.write (regAddr 6 0) 1#32)
  else if 6000000 ≤ n ∧ n < 6000017 then some (.read (regAddr 6 (n - 6000000 + 31)))
  else none

lemma session_gap {n : ℕ} (hn : 18 < n) (hget : n ≠ 3000000) (addr : BitVec 8)
    (data : BitVec 32) : session config n ≠ some (.write addr data) := by
  rw [session, if_neg (by omega), if_neg (by omega), if_neg (by omega), if_neg hget]
  split_ifs <;> simp

/-- The registers that the session writes to; after the first access it does not write to the
mask. -/
lemma session_regs {n : ℕ} {addr : BitVec 8} {data : BitVec 32}
    (h : session config n = some (.write addr data)) :
    ∃ k < 2 ^ 6, addr = regAddr 6 k ∧ (0 < n → k ≤ 17) := by
  revert h
  unfold session
  split_ifs with h0 h17 h18 hget hread
  · rintro ⟨⟩
    exact ⟨21, by decide, rfl, fun hn => by omega⟩
  · rintro ⟨⟩
    exact ⟨n, by omega, rfl, fun _ => h17⟩
  · rintro ⟨⟩
    exact ⟨0, by decide, rfl, fun _ => by decide⟩
  · rintro ⟨⟩
    exact ⟨0, by decide, rfl, fun _ => by decide⟩
  · simp
  · simp

/-- A session contains a call. -/
lemma exists_call_of_session (hr : r.FromReset) (hs : r.master = scripted (session config)) :
    ∃ ok, r.Calls (Ctrl.setCheckConfig config) 2 24000066 ok := by
  have hf := follows_of_script hs hr
  have hset : Exec (Bus.ofRegisterFile r.file (scripted (session config)) 100).env
      (Ctrl.setConfig config) (4 * 1 - 2) () (4 * (18 + 1) - 2) := by
    refine exec_bind.mpr ⟨(), _, exec_forEach_slots hf (m := 1) 17 (by decide) fun i hi => ?_,
      exec_write_slot hf (by decide) rfl⟩
    rw [session, if_neg (by omega), if_pos (by omega), Nat.add_comm 1 i, Nat.add_sub_cancel]
    rfl
  obtain ⟨data, hcollect⟩ := exec_collect_slots (p := 100) hf (m := 6000000) 31 17 (by decide)
    fun i hi => by
      rw [session, if_neg (by omega), if_neg (by omega), if_neg (by omega), if_neg (by omega),
        if_pos (by omega), Nat.add_sub_cancel_left]
  have hget : Exec (Bus.ofRegisterFile r.file (scripted (session config)) 100).env
      Ctrl.getConfig (4 * 3000000 - 2) data (4 * (6000000 + 17) - 2) :=
    exec_bind.mpr ⟨(), _, exec_write_slot hf (by decide) rfl, exec_bind.mpr ⟨(), _,
      exec_usleep_slots hf (by decide) (fun j hj _ => session_gap (by omega) (by omega)),
      hcollect⟩⟩
  have hcall : Exec (Bus.ofRegisterFile r.file (scripted (session config)) 100).env
      (Ctrl.setCheckConfig config) 2 _ 24000066 :=
    exec_bind.mpr ⟨(), _, hset, exec_bind.mpr ⟨(), _,
      exec_usleep_slots hf (m := 18 + 1) (n := 3000000) (by decide)
        (fun j hj hjn => session_gap (by omega) (by omega)),
      exec_bind.mpr ⟨data, _, hget, exec_done.mpr ⟨rfl, rfl⟩⟩⟩⟩
  refine ⟨_, 24000066, exec_of_script hs hr (fun j addr data hjob => ?_) hcall, le_rfl,
    fun x hx hxt => by omega⟩
  obtain ⟨k, hk, haddr, -⟩ := session_regs hjob
  exact ⟨k, hk, haddr⟩

/-- An ASIC with a one in its configuration register. -/
def oldAsic : Asic := { Asic.blank with shiftReg := 1#520 }

/-- The inputs of a session with the forced triggers `trigger`.  Outside the configuration
sequences the ASIC has no data to convert or to read out. -/
def sessionInput (config : Ctrl.Config) (trigger : ℕ → Bool) (t : ℕ) : Input where
  axi := scripted (session config) t
  triggerAck := false
  fastOrTrigger := false
  vataHits := 0#12
  forceTrigger := trigger t
  globalCounter := BitVec.ofNat 64 t
  globalCounterRst := false
  calPulseTrigger := false
  disableFastOrTrigger := false
  eventIdLatch := false
  eventIdData := false
  vataO5 := true
  vataO6 := true
  dataTready := true

/-- The run of a session from reset, with `cfg_reg_from_pl` zero. -/
def sessionRun (config : Ctrl.Config) (trigger : ℕ → Bool) : Run :=
  closedLoop (Regs.reset 0#12 0#520) oldAsic (sessionInput config trigger)

section Session

variable (config) (trigger : ℕ → Bool)

lemma fromReset_session : (sessionRun config trigger).FromReset := ⟨0#12, 0#520, rfl⟩

lemma master_session : (sessionRun config trigger).master = scripted (session config) := rfl

lemma masterHolds_session : (sessionRun config trigger).MasterHolds :=
  masterHolds_of_script (master_session config trigger)

lemma wired_session : (sessionRun config trigger).fsm.Wired oldAsic := wired_core _ _ _

/-- Its first access enables forced triggers. -/
lemma writes_session : (sessionRun config trigger).wordBus.Writes 1 21 0x4000#32 :=
  writes_of_script (master_session config trigger) (fromReset_session config trigger) (n := 0)
    (by decide) rfl

/-- Before the call the session sends no command pulse. -/
lemma triggers_session {x : ℕ} (hx : x ≤ 2) :
    ((sessionRun config trigger).regs x).control.triggers = 0#16 := by
  have hr := fromReset_session config trigger
  have hs := master_session config trigger
  obtain rfl | rfl | rfl : x = 0 ∨ x = 1 ∨ x = 2 := by omega
  · rfl
  · refine triggers_of_noWrite hr (masterHolds_session config trigger) ?_
    exact noWrites_of_script hs hr (m := 0) (n := 0) (fun j hj hjn => by omega) 0 le_rfl (by decide)
  · rw [triggers_of_writes hr (writes_session config trigger), if_neg (by decide)]

/-- After its first access the session has forced triggers enabled. -/
lemma slvReg_session {x : ℕ} (hx : 2 ≤ x) :
    (sessionRun config trigger).slvReg x ⟨21, by decide⟩ = 0x4000#32 := by
  have hs := follows_of_script (master_session config trigger) (fromReset_session config trigger)
  have hkept : (sessionRun config trigger).slvReg x ⟨21, by decide⟩ =
      (sessionRun config trigger).slvReg 2 ⟨21, by decide⟩ := by
    refine Bus.slvReg_of_never_writes (p := 100) (sessionRun config trigger).advances hx
      fun y hy _ v hwrite => ?_
    obtain ⟨hmod, hjob⟩ := script_of_writes hs (fun j addr data hj => by
      obtain ⟨k, hk, haddr, -⟩ := session_regs hj
      exact ⟨k, hk, haddr⟩) hwrite
    -- no later write goes to register `21`
    obtain ⟨k, hk, haddr, hlate⟩ := session_regs hjob
    have hsame := (locAddr_regAddr (b := 6) (k := 21) (by decide)).symm.trans
      ((congrArg locAddr haddr).trans (locAddr_regAddr hk))
    have hval : 21 = k := congrArg Fin.val hsame
    have hle := hlate (by omega)
    omega
  have hset := congrFun (held_of_writes (writes_session config trigger)) 21
  rw [Function.update_self] at hset
  exact hkept.trans hset

/-- A forced trigger of the session fires. -/
lemma triggerAcq_session {x : ℕ} (hx : 2 ≤ x) (h : trigger x = true) :
    triggerAcq ((sessionRun config trigger).fsm.inp x)
      ((sessionRun config trigger).fsm.regs x) = true := by
  have hline : ((sessionRun config trigger).fsm.inp x).forceTrigger = true := h
  have hena : ((sessionRun config trigger).fsm.inp x).forceTriggerEna = true := by
    have hreg : ((sessionRun config trigger).fsm.inp x).forceTriggerEna =
        ((sessionRun config trigger).slvReg x ⟨21, by decide⟩).getLsbD 14 := rfl
    rw [hreg, slvReg_session config trigger hx]
    rfl
  simp [triggerAcq, hline, hena]

/-- Without a forced trigger none fires. -/
lemma triggerAcq_quietSession (x : ℕ) :
    triggerAcq ((sessionRun config fun _ => false).fsm.inp x)
      ((sessionRun config fun _ => false).fsm.regs x) = false := by
  have hedges : ((sessionRun config fun _ => false).fsm.regs x).risingEdgeVector =
      RisingEdgeVector.reset 0#12 := by
    induction x with
    | zero => rfl
    | succ x ih =>
        have hhits : ((sessionRun config fun _ => false).fsm.inp x).vataHits = 0#12 := rfl
        rw [Vata.Run.regs_succ, step_risingEdgeVector, ih, hhits]
        decide
  have hforce : ((sessionRun config fun _ => false).fsm.inp x).forceTrigger = false := rfl
  have hfast : ((sessionRun config fun _ => false).fsm.inp x).fastOrTrigger = false := rfl
  have hack : ((sessionRun config fun _ => false).fsm.inp x).triggerAck = false := rfl
  simp [triggerAcq, hforce, hfast, hack, vataHitsRisingEdge, hedges, RisingEdgeVector.reset]

/-- The pulses of the session. -/
lemma session_pulses {set get : ℕ} {ok : Bool}
    (h : (sessionRun config trigger).Timeline config 2 set get 24000066 ok) :
    set = 74 ∧ get = 12000002 := by
  have hr := fromReset_session config trigger
  have hs := master_session config trigger
  have hset : (sessionRun config trigger).wordBus.Writes (4 * 18 + 1) 0 0#32 :=
    writes_of_script hs hr (by decide) rfl
  have hget : (sessionRun config trigger).wordBus.Writes (4 * 3000000 + 1) 0 1#32 :=
    writes_of_script hs hr (by decide) rfl
  have hsetPulse : ((sessionRun config trigger).fsm.inp 74).setConfig = true := by
    have hline : ((sessionRun config trigger).fsm.inp 74).setConfig =
        ((sessionRun config trigger).regs 74).control.triggers.getLsbD 0 := rfl
    rw [hline, triggers_of_writes hr hset]
    rfl
  have hgetPulse : ((sessionRun config trigger).fsm.inp 12000002).getConfig = true := by
    have hline : ((sessionRun config trigger).fsm.inp 12000002).getConfig =
        ((sessionRun config trigger).regs 12000002).control.triggers.getLsbD 1 := rfl
    rw [hline, triggers_of_writes hr hget]
    rfl
  exact ⟨((h.commands 74 (by omega) (by omega)).1.mp hsetPulse).symm,
    ((h.commands 12000002 (by omega) (by omega)).2.mp hgetPulse).symm⟩

end Session

/-! ## Soundness -/

/-- A call of which both commands are lost finds at the `get_config` pulse what was there when it
began. -/
lemma Timeline.untouched {T : ℕ} (h : r.Timeline config t set get t' ok) (hr : r.FromReset)
    (ha : a.mode = Mode.m3.code) (hlost : ¬ r.fsm.Free set) (hT : r.fsm.Settled t T) :
    (r.fsm.asic a get).shiftReg = (r.fsm.asic a T).shiftReg ∧
      cfgRegFromPl (r.fsm.regs get) = cfgRegFromPl (r.fsm.regs T) := by
  have hset_gt := h.set_gt
  have hwait := h.wait
  have hget_le := h.get_le
  have h0 := r.idle_zero hr
  have hle := hT.le_add h0 fun u hu hut => h.force hu (by omega)
  have htT := hT.le
  refine hT.untouched h0 ha (by omega) fun u hu hut => ?_
  rcases eq_or_ne u set with rfl | hne
  · exact fun hfree => absurd hfree hlost
  · exact h.noCommand (by omega) (by omega) hne (by omega)

/-- **Soundness of `set_check_config`.**  In every run of the core from reset, wired to an ASIC
that has M3 latched, with any triggers, any readouts and any old content of the two configuration
registers: a call sends one `set_config` and one `get_config` pulse.  A positive result means that
the ASIC holds the configuration exactly if one of the two is taken, or the ASIC held it before
the call, or `cfg_reg_from_pl` did not, or the last word of the configuration has bits that the
registers do not have.  If the sequence of an earlier command goes on when the call begins, before
the call is when it is over. -/
theorem set_check_config_sound_iff (hr : r.FromReset) (hm : r.MasterHolds)
    (hwired : r.fsm.Wired a) (ha : a.mode = Mode.m3.code)
    (hcall : r.Calls (Ctrl.setCheckConfig config) t t' ok) :
    ∃ set get T, t < set ∧ set < get ∧ get ≤ t' ∧ r.Commands t set get t' ∧ r.fsm.Settled t T ∧
      ((ok = true → (r.fsm.asic a t').shiftReg = config.bits) ↔
        r.fsm.Free set ∨ r.fsm.Free get ∨ (r.fsm.asic a T).shiftReg = config.bits ∨
          cfgRegFromPl (r.fsm.regs T) ≠ config.bits ∨ ¬ config.word 16 < 256#32) := by
  obtain ⟨set, get, h⟩ := hcall.timeline hr hm
  have hset_gt := h.set_gt
  have hwait := h.wait
  have hget_le := h.get_le
  obtain ⟨T, hT⟩ := Vata.Run.exists_settled (r.idle_zero hr) fun u hu hut =>
    h.force hu (show u ≤ t' by omega)
  obtain ⟨hsame, z, hok, hfree, hnot⟩ := h.outcome_iff hr hwired ha
  refine ⟨set, get, T, hset_gt, by omega, by omega, h.commands, hT, ?_⟩
  rw [hsame, hok]
  by_cases hset : r.fsm.Free set
  · exact iff_of_true (fun _ => h.asic_of_free_set hr ha hset) (.inl hset)
  by_cases hget : r.fsm.Free get
  · refine iff_of_true (fun hpos => ?_) (.inr (.inl hget))
    rw [← hfree hget, hpos.1]
  -- both are lost, and what is compared is what the registers held before
  obtain ⟨hasic, hpl⟩ := h.untouched hr ha hset hT
  rw [hnot hget, hasic, hpl]
  constructor
  · intro hsound
    by_cases hpos : cfgRegFromPl (r.fsm.regs T) = config.bits ∧ config.word 16 < 256#32
    · exact .inr (.inr (.inl (hsound hpos)))
    · exact .inr (.inr (.inr (not_and_or.mp hpos)))
  · rintro (hfreeSet | hfreeGet | hheld | hother | hlong) hpos
    · exact absurd hfreeSet hset
    · exact absurd hfreeGet hget
    · exact hheld
    · exact absurd hpos.1 hother
    · exact absurd hpos.2 hlong

/-- The configuration of zeros. -/
def zeros : Ctrl.Config := Vector.replicate Ctrl.nCfgReg 0#32

lemma word_zeros (i : ℕ) : zeros.word i = 0#32 := by
  rw [Ctrl.Config.word, zeros, Vector.toList_replicate, List.getD_eq_getElem?_getD,
    List.getElem?_replicate]
  split_ifs <;> rfl

lemma bits_zeros : zeros.bits = 0#520 := by
  apply BitVec.eq_of_getLsbD_eq
  intro j hj
  rw [Ctrl.Config.getLsbD_bits _ hj, word_zeros, BitVec.getLsbD_zero, BitVec.getLsbD_zero]

/-- A call in a session without triggers. -/
theorem quietSession_sound : ∃ ok,
    (sessionRun zeros fun _ => false).Calls (Ctrl.setCheckConfig zeros) 2 24000066 ok ∧
    ∃ set get T, 2 < set ∧ set < get ∧ get ≤ 24000066 ∧
      (sessionRun zeros fun _ => false).Commands 2 set get 24000066 ∧
      (sessionRun zeros fun _ => false).fsm.Settled 2 T ∧
      ((ok = true →
          ((sessionRun zeros fun _ => false).fsm.asic oldAsic 24000066).shiftReg = zeros.bits) ↔
        (sessionRun zeros fun _ => false).fsm.Free set ∨
          (sessionRun zeros fun _ => false).fsm.Free get ∨
          ((sessionRun zeros fun _ => false).fsm.asic oldAsic T).shiftReg = zeros.bits ∨
          cfgRegFromPl ((sessionRun zeros fun _ => false).fsm.regs T) ≠ zeros.bits ∨
          ¬ zeros.word 16 < 256#32) := by
  obtain ⟨ok, hcall⟩ := exists_call_of_session (fromReset_session zeros fun _ => false)
    (master_session zeros fun _ => false)
  exact ⟨ok, hcall, set_check_config_sound_iff (fromReset_session _ _)
    (masterHolds_session _ _) (wired_session _ _) rfl hcall⟩

/-- A session with a forced trigger in the cycle of each of the two pulses. -/
def missedSession : Run := sessionRun zeros fun t => decide (t = 74 ∨ t = 12000002)

/-- In `missedSession` no command is taken up to the second pulse. -/
lemma missedSession_noCommand {ok : Bool}
    (h : missedSession.Timeline zeros 2 74 12000002 24000066 ok) {x : ℕ} (hx : x ≤ 12000002) :
    missedSession.fsm.NoCommand x := by
  by_cases hfree : x = 74 ∨ x = 12000002
  · have htrigger := triggerAcq_session zeros (fun t => decide (t = 74 ∨ t = 12000002))
      (x := x) (by omega) (decide_eq_true hfree)
    exact fun hc => absurd (hc.2.symm.trans htrigger) (by decide)
  · rcases Nat.lt_or_ge 2 x with hlt | hge
    · exact h.noCommand hlt (by omega) (fun hc => hfree (.inl hc)) fun hc => hfree (.inr hc)
    · intro _
      have hline := triggers_session zeros (fun t => decide (t = 74 ∨ t = 12000002)) hge
      have hset : (missedSession.fsm.inp x).setConfig =
        (missedSession.regs x).control.triggers.getLsbD 0 := rfl
      have hget : (missedSession.fsm.inp x).getConfig =
        (missedSession.regs x).control.triggers.getLsbD 1 := rfl
      rw [hset, hget, missedSession, hline]
      exact ⟨rfl, rfl⟩

/-- Both commands of `missedSession` are lost to a trigger, and the call returns `true`: the old
content of `cfg_reg_from_pl` is the configuration, and the ASIC holds something else. -/
theorem missedSession_unsound : ¬ ∀ (r : Run) (a : Asic) (config : Ctrl.Config) (t t' : ℕ),
    r.FromReset → r.MasterHolds → r.fsm.Wired a → a.mode = Mode.m3.code →
    r.Calls (Ctrl.setCheckConfig config) t t' true →
    (r.fsm.asic a t').shiftReg = config.bits := by
  intro hclaim
  have hr : missedSession.FromReset := fromReset_session _ _
  have hm : missedSession.MasterHolds := masterHolds_session _ _
  have hwired : missedSession.fsm.Wired oldAsic := wired_session _ _
  obtain ⟨ok, hcall⟩ := exists_call_of_session hr (master_session _ _)
  obtain ⟨set, get, h⟩ := hcall.timeline hr hm
  obtain ⟨rfl, rfl⟩ := session_pulses _ _ h
  obtain ⟨hasic, hpl⟩ := Vata.Run.untouched (a := oldAsic) (x := 0) (y := 12000002)
    (missedSession.idle_zero hr) rfl
    (by rw [Vata.Run.idle_iff.mp (missedSession.idle_zero hr)]; decide) (by omega)
    fun u _ hu => missedSession_noCommand h hu.le
  have hold : (missedSession.fsm.asic oldAsic 0).shiftReg = 1#520 := by decide +kernel
  have hplOld : cfgRegFromPl (missedSession.fsm.regs 0) = 0#520 := by decide +kernel
  obtain ⟨hsame, z, hok, -, hz⟩ := h.outcome_iff hr hwired rfl
  have hbusy : ¬ missedSession.fsm.Free 12000002 := by
    intro hc
    have htrigger := triggerAcq_session zeros (fun t => decide (t = 74 ∨ t = 12000002))
      (x := 12000002) (by omega) (decide_eq_true (.inr rfl))
    exact absurd (hc.2.symm.trans htrigger) (by decide)
  have hz0 : z = zeros.bits := by rw [hz hbusy, hpl, hplOld, bits_zeros]
  have htrue : ok = true := hok.mpr ⟨hz0, by rw [word_zeros]; decide⟩
  subst htrue
  have hset := hclaim missedSession oldAsic zeros 2 24000066 hr hm hwired rfl hcall
  rw [hsame, hasic, hold, bits_zeros] at hset
  have hbit : (1#520).getLsbD 0 = (0#520).getLsbD 0 := by rw [hset]
  rw [BitVec.getLsbD_one, BitVec.getLsbD_zero] at hbit
  exact absurd hbit (by decide)

/-! ## Completeness -/

/-- A call that nothing disturbs sets the ASIC, and its result is whether the last word of the
configuration fits into the eight bits that the register has of it. -/
lemma Timeline.undisturbed (h : r.Timeline config t set get t' ok) (hr : r.FromReset)
    (hwired : r.fsm.Wired a) (ha : a.mode = Mode.m3.code) (hidle : r.fsm.Idle t)
    (hpulse : (r.regs t).control.triggers = 0#16)
    (hquiet : ∀ x, t ≤ x → x ≤ t' → triggerAcq (r.fsm.inp x) (r.fsm.regs x) = false) :
    (ok = true ↔ config.word 16 < 256#32) ∧ (r.fsm.asic a t').shiftReg = config.bits := by
  have hset_gt := h.set_gt
  have hwait := h.wait
  have hget_le := h.get_le
  have h0 := r.idle_zero hr
  have hfirst : r.fsm.NoCommand t := by
    intro _
    have hsetLine : (r.fsm.inp t).setConfig = (r.regs t).control.triggers.getLsbD 0 := rfl
    have hgetLine : (r.fsm.inp t).getConfig = (r.regs t).control.triggers.getLsbD 1 := rfl
    rw [hsetLine, hgetLine, hpulse]
    exact ⟨rfl, rfl⟩
  have hidleSet : r.fsm.Idle set := by
    refine Vata.Run.idle_of_noCommand hidle hset_gt.le (fun u hu hut => hquiet u hu (by omega))
      fun u hu hut => ?_
    rcases Nat.eq_or_lt_of_le hu with rfl | hlt
    · exact hfirst
    · exact h.noCommand hlt (by omega) (by omega) (by omega)
  have hfreeSet : r.fsm.Free set := ⟨hidleSet, hquiet set (by omega) (by omega)⟩
  -- the sequence is over long before the second pulse
  obtain ⟨T, hT, hback, -⟩ := Vata.Run.set_within (a := a) h0 hfreeSet
    ((h.commands set hset_gt (by omega)).1.mpr rfl)
    (fun u hu hut => h.force (by omega) (by omega))
    (fun u hu hut => (r.fsm_cfgRegFromPs u).trans (h.loaded u (Nat.le_of_lt hu) (by omega)))
  have hTset := hback.lt
  have hidleGet : r.fsm.Idle get :=
    Vata.Run.idle_of_noCommand hback.idle (by omega)
      (fun u hu hut => hquiet u (by omega) (by omega))
      fun u hu hut => h.noCommand (by omega) (by omega) (by omega) (by omega)
  have hfreeGet : r.fsm.Free get := ⟨hidleGet, hquiet get (by omega) (by omega)⟩
  have hasic := h.asic_of_free_set hr ha hfreeSet
  obtain ⟨hsame, z, hok, hz, -⟩ := h.outcome_iff hr hwired ha
  rw [hsame, hok, hz hfreeGet, hasic]
  exact ⟨and_iff_right rfl, rfl⟩

/-- **Completeness of `set_check_config`.**  A call from `IDLE` that no command pulse and no
trigger disturbs leaves the 520 bits of the configuration in the ASIC.  It returns `true` exactly
if the upper 24 bits of the last word, for which the register has no bits, are zero. -/
theorem set_check_config_complete (hr : r.FromReset) (hm : r.MasterHolds)
    (hwired : r.fsm.Wired a) (ha : a.mode = Mode.m3.code) (hidle : r.fsm.Idle t)
    (hpulse : (r.regs t).control.triggers = 0#16)
    (hquiet : ∀ x, t ≤ x → x ≤ t' → triggerAcq (r.fsm.inp x) (r.fsm.regs x) = false)
    (hcall : r.Calls (Ctrl.setCheckConfig config) t t' ok) :
    (ok = true ↔ config.word 16 < 256#32) ∧ (r.fsm.asic a t').shiftReg = config.bits := by
  obtain ⟨set, get, h⟩ := hcall.timeline hr hm
  exact h.undisturbed hr hwired ha hidle hpulse hquiet

/-- The configuration of zeros with one bit in the last word that the register does not have. -/
def ninthBit : Ctrl.Config := zeros.set 16 256#32

/-- The call of a session without triggers, with what it needs. -/
lemma quietSession_call (config : Ctrl.Config) : ∃ ok,
    (sessionRun config fun _ => false).Calls (Ctrl.setCheckConfig config) 2 24000066 ok ∧
      (sessionRun config fun _ => false).fsm.Idle 2 := by
  have hr := fromReset_session config fun _ => false
  obtain ⟨ok, hcall⟩ := exists_call_of_session hr (master_session config fun _ => false)
  refine ⟨ok, hcall, Vata.Run.idle_of_noCommand (Run.idle_zero _ hr) (by omega)
    (fun u _ _ => triggerAcq_quietSession config u) fun u _ hu _ => ?_⟩
  have hline := triggers_session config (fun _ => false) (x := u) (by omega)
  have hset : ((sessionRun config fun _ => false).fsm.inp u).setConfig =
    ((sessionRun config fun _ => false).regs u).control.triggers.getLsbD 0 := rfl
  have hget : ((sessionRun config fun _ => false).fsm.inp u).getConfig =
    ((sessionRun config fun _ => false).regs u).control.triggers.getLsbD 1 := rfl
  rw [hset, hget, hline]
  exact ⟨rfl, rfl⟩

/-- With zeros the call returns `true`. -/
theorem quietSession_complete :
    (sessionRun zeros fun _ => false).Calls (Ctrl.setCheckConfig zeros) 2 24000066 true ∧
      ((sessionRun zeros fun _ => false).fsm.asic oldAsic 24000066).shiftReg = zeros.bits := by
  obtain ⟨ok, hcall, hidle⟩ := quietSession_call zeros
  obtain ⟨hok, hasic⟩ := set_check_config_complete (fromReset_session _ _)
    (masterHolds_session _ _) (wired_session _ _) rfl hidle (triggers_session _ _ le_rfl)
    (fun x _ _ => triggerAcq_quietSession zeros x) hcall
  have htrue : ok = true := hok.mpr (by rw [word_zeros]; decide)
  exact ⟨htrue ▸ hcall, hasic⟩

/-- With a bit too many it returns `false`. -/
theorem quietSession_incomplete : ¬ ∀ (r : Run) (a : Asic) (config : Ctrl.Config) (t t' : ℕ)
    (ok : Bool), r.FromReset → r.MasterHolds → r.fsm.Wired a → a.mode = Mode.m3.code →
    r.fsm.Idle t → (r.regs t).control.triggers = 0#16 →
    (∀ x, t ≤ x → x ≤ t' → triggerAcq (r.fsm.inp x) (r.fsm.regs x) = false) →
    r.Calls (Ctrl.setCheckConfig config) t t' ok → ok = true := by
  intro hclaim
  obtain ⟨ok, hcall, hidle⟩ := quietSession_call ninthBit
  have hr := fromReset_session ninthBit fun _ => false
  have hm := masterHolds_session ninthBit fun _ => false
  have hwired := wired_session ninthBit fun _ => false
  have hpulse := triggers_session ninthBit (fun _ => false) (x := 2) le_rfl
  have hquiet : ∀ x, 2 ≤ x → x ≤ 24000066 → _ := fun x _ _ => triggerAcq_quietSession ninthBit x
  obtain ⟨set, get, h⟩ := hcall.timeline hr hm
  obtain ⟨hok, -⟩ := h.undisturbed hr hwired rfl hidle hpulse hquiet
  have htrue := hclaim _ _ _ _ _ _ hr hm hwired rfl hidle hpulse hquiet hcall
  exact absurd (hok.mp htrue) (by decide)

end TrackerFpga.Vata.Core.Run
