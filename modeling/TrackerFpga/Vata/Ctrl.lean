import Mathlib.Data.List.GetD
import TrackerFpga.Vata.AxiInterface

/-!
# `VataCtrl`: setting and checking a configuration

The methods of `vata_ctrl.cpp` that talk to the core are drivers.  No other write reaches the core
while one of them runs; reads, triggers and readouts may.

`Calls.timeline` is all that a call of `set_check_config` does to the core: two command pulses, at
least 100 ms apart, with the registers of the configuration loaded before the first, and
seventeen reads at least 100 ms after the second.
-/

namespace TrackerFpga.Vata

open AxiLite Interaction Mapped

/-! ## The methods -/

namespace Ctrl

/-- `N_CFG_REG`. -/
def nCfgReg : ℕ := 17

/-- `CFG_REG_OFFSET`. -/
def cfgRegOffset : ℕ := 1

/-- `READ_CFG_REG_OFFSET`. -/
def readCfgRegOffset : ℕ := 31

/-- `AXI0_CTRL_SET_CONF`. -/
def axi0CtrlSetConf : BitVec 32 := 0#32

/-- `AXI0_CTRL_GET_CONF`. -/
def axi0CtrlGetConf : BitVec 32 := 1#32

/-- A `std::vector<u32>` of `N_CFG_REG` words. -/
abbrev Config := Vector (BitVec 32) nCfgReg

/-- `data[i]`. -/
def Config.word (data : Config) (i : ℕ) : BitVec 32 := data.toList.getD i 0#32

/-- The 520 bits of the words: of the last one its low byte. -/
def Config.bits (data : Config) : BitVec 520 :=
  (BitVec.ofBoolListLE
    ((List.range 520).map fun j => (data.word (j / 32)).getLsbD (j % 32))).setWidth 520

lemma Config.getLsbD_bits (data : Config) {j : ℕ} (hj : j < 520) :
    data.bits.getLsbD j = (data.word (j / 32)).getLsbD (j % 32) := by
  rw [bits, BitVec.getLsbD_setWidth, BitVec.getLsbD_ofBoolListLE, decide_eq_true hj,
    Bool.true_and, List.getD_eq_getElem?_getD]
  simp [List.getElem?_range hj]

/-- A core whose registers hold the words drives their bits. -/
lemma configRegFromPs_eq_bits {slvReg : Fin (2 ^ 6) → BitVec 32} {data : Config}
    (h : ∀ i < nCfgReg, held slvReg (i + cfgRegOffset) = data.word i) :
    Core.configRegFromPs slvReg = data.bits := by
  apply BitVec.eq_of_getLsbD_eq
  intro j hj
  have hword : j / 32 < nCfgReg := by
    rw [nCfgReg]
    omega
  rw [Core.getLsbD_configRegFromPs _ hj, data.getLsbD_bits hj, ← h _ hword, cfgRegOffset,
    Nat.add_comm]

/-- `VataCtrl::set_config`. -/
def setConfig (data : Config) : Driver Unit := do
  Driver.forEach (fun i => Driver.write (i + cfgRegOffset) (data.word i)) nCfgReg
  Driver.write 0 axi0CtrlSetConf

/-- `VataCtrl::get_config`. -/
def getConfig : Driver (List (BitVec 32)) := do
  Driver.write 0 axi0CtrlGetConf
  Driver.usleep 100000
  Driver.collect (fun i => Driver.read (i + readCfgRegOffset)) nCfgReg

/-- `VataCtrl::set_check_config`: the loop stops at the first word that differs. -/
def setCheckConfig (configIn : Config) : Driver Bool := do
  setConfig configIn
  Driver.usleep 100000
  let configOut ← getConfig
  pure ((List.range nCfgReg).all fun i => configIn.word i == configOut.getD i 0#32)

end Ctrl

/-! ## Calls in a run of the core -/

namespace Core.Run

/-- The method is called in cycle `t` and has returned `a` in cycle `t'`. -/
def Calls {α : Type} (r : Run) (p : Driver α) (t t' : ℕ) (a : α) : Prop :=
  ∃ u, Exec r.wordBus.env p t a u ∧ u ≤ t' ∧ r.bus.NoWrites u t'

section Exec

variable {r : Run} {t t' u x : ℕ}

/-- No command pulse is high from cycle `t` on and before cycle `u`. -/
def Calm (r : Run) (t u : ℕ) : Prop := ∀ x, t ≤ x → x < u → (r.regs x).control.triggers = 0#16

lemma Calm.append {m : ℕ} (h : r.Calm t m) (h' : r.Calm m u) : r.Calm t u := by
  intro x hx hxu
  rcases Nat.lt_or_ge x m with hlt | hge
  · exact h x hx hlt
  · exact h' x hge hxu

lemma slvReg_of_noWrites (h : r.bus.NoWrites t u) (htx : t ≤ x) (hxu : x ≤ u) :
    r.slvReg x = r.slvReg t := Bus.slvReg_of_noWrites r.advances h htx hxu

/-- What the registers hold after a write. -/
lemma held_of_writes {k : ℕ} {v : BitVec 32} (h : r.wordBus.Writes t k v) :
    held (r.slvReg (t + 1)) = Function.update (held (r.slvReg t)) k v := by
  obtain ⟨hk, hnew⟩ := Bus.slvReg_of_writes (r.file_succ t) h.1
  rw [slvReg, hnew, held_update]
  rfl

/-- The loop of `get_config` reads one register after the other. -/
lemma exec_collect_read {n off : ℕ} {data : List (BitVec 32)}
    (h : Exec r.wordBus.env (Driver.collect (fun i => Driver.read (i + off)) n) t data t') :
    t ≤ t' ∧ r.bus.NoWrites t t' ∧ data.length = n ∧
      ∀ i < n, ∃ u, t ≤ u ∧ u < t' ∧ r.bus.Reads u (i + off) (data.getD i 0#32) := by
  induction n generalizing data t' with
  | zero =>
      obtain ⟨rfl, rfl⟩ := exec_done.mp h
      exact ⟨le_rfl, fun x hx hxt => by omega, rfl, by simp⟩
  | succ n ih =>
      obtain ⟨front, m, hloop, hlast⟩ := exec_bind.mp h
      obtain ⟨v, m', hread, hdone⟩ := exec_bind.mp hlast
      obtain ⟨rfl, rfl⟩ := exec_done.mp hdone
      obtain ⟨u, hmu, hno, hreads, rfl⟩ := Bus.exec_read.mp hread
      obtain ⟨htm, hnoFront, hlen, hfront⟩ := ih hloop
      refine ⟨by omega, hnoFront.append hno, by simp [hlen], fun i hi => ?_⟩
      rcases Nat.lt_succ_iff_lt_or_eq.mp hi with hlt | rfl
      · obtain ⟨w, htw, hwm, hw⟩ := hfront i hlt
        refine ⟨w, htw, by omega, ?_⟩
        rwa [List.getD_append _ _ _ _ (by omega)]
      · refine ⟨u, by omega, by omega, ?_⟩
        rwa [List.getD_append_right _ _ _ _ hlen.le, hlen, Nat.sub_self]

section Reset

variable (hr : r.FromReset) (hm : r.MasterHolds)
include hr hm

lemma calm_of_noWrites (h : r.bus.NoWrites t u) : r.Calm (t + 1) (u + 1) := by
  intro x hx hxu
  obtain ⟨y, rfl⟩ := Nat.exists_eq_add_of_lt hx
  exact triggers_of_noWrite hr hm (h _ (by omega) (by omega))

/-- A write to a register other than the command register leaves the core calm. -/
lemma calm_of_write {i : ℕ} {v : BitVec 32} (hi : 0 < i) (hno : r.bus.NoWrites t u)
    (h : r.wordBus.Writes u i v) : r.Calm (t + 1) (u + 2) := by
  intro x hx hxu
  rcases Nat.lt_or_ge x (u + 1) with hlt | hge
  · exact calm_of_noWrites hr hm hno x hx hlt
  · obtain rfl : x = u + 1 := by omega
    rw [triggers_of_writes hr h, if_neg (by omega)]

/-- The loop of `set_config` loads the registers it writes, and leaves the core calm. -/
lemma exec_forEach_write {f : ℕ → BitVec 32} {n off : ℕ} {a : Unit} (hoff : 0 < off)
    (h : Exec r.wordBus.env (Driver.forEach (fun i => Driver.write (i + off) (f i)) n) t a t') :
    t ≤ t' ∧ r.Calm (t + 1) (t' + 1) ∧ ∀ i < n, held (r.slvReg t') (i + off) = f i := by
  induction n generalizing t' with
  | zero =>
      obtain ⟨-, rfl⟩ := exec_done.mp h
      exact ⟨le_rfl, fun x hx hxt => by omega, by simp⟩
  | succ n ih =>
      obtain ⟨_, m, hloop, hlast⟩ := exec_bind.mp h
      obtain ⟨u, hmu, hno, hwrite, rfl⟩ := Bus.exec_write.mp hlast
      obtain ⟨htm, hcalm, hloaded⟩ := ih hloop
      refine ⟨by omega, hcalm.append (calm_of_write hr hm (by omega) hno hwrite), fun i hi => ?_⟩
      rw [held_of_writes hwrite, slvReg_of_noWrites hno hmu le_rfl]
      rcases Nat.lt_succ_iff_lt_or_eq.mp hi with hlt | rfl
      · rw [Function.update_of_ne (by omega)]
        exact hloaded i hlt
      · exact Function.update_self ..

/-- `set_config` loads the registers and sends one `set_config` pulse. -/
lemma exec_setConfig {config : Ctrl.Config} {a : Unit}
    (h : Exec r.wordBus.env (Ctrl.setConfig config) t a t') :
    t < t' ∧ r.Calm (t + 1) t' ∧ (r.regs t').control.triggers = 1#16 ∧
      configRegFromPs (r.slvReg t') = config.bits := by
  obtain ⟨_, m, hloop, hset⟩ := exec_bind.mp h
  obtain ⟨u, hmu, hno, hwrite, rfl⟩ := Bus.exec_write.mp hset
  obtain ⟨htm, hcalm, hloaded⟩ := exec_forEach_write hr hm (by decide) hloop
  refine ⟨by omega, hcalm.append (calm_of_noWrites hr hm hno), ?_, ?_⟩
  · rw [triggers_of_writes hr hwrite]
    rfl
  · refine Ctrl.configRegFromPs_eq_bits fun i hi => ?_
    have hne : i + Ctrl.cfgRegOffset ≠ 0 := Nat.succ_ne_zero i
    rw [held_of_writes hwrite, Function.update_of_ne hne, slvReg_of_noWrites hno hmu le_rfl]
    exact hloaded i hi

end Reset

/-- `get_config` sends one `get_config` pulse, in cycle `u + 1`, and reads after 100 ms. -/
lemma exec_getConfig (hr : r.FromReset) {out : List (BitVec 32)}
    (h : Exec r.wordBus.env Ctrl.getConfig t out t') :
    ∃ u, t ≤ u ∧ u + 1 + 10000000 ≤ t' ∧ r.bus.NoWrites t u ∧
      (r.regs (u + 1)).control.triggers = 2#16 ∧ r.bus.NoWrites (u + 1) t' ∧
      configRegFromPs (r.slvReg (u + 1)) = configRegFromPs (r.slvReg u) ∧
      ∀ i < Ctrl.nCfgReg, ∃ x, u + 1 + 10000000 ≤ x ∧ x < t' ∧
        r.bus.Reads x (i + Ctrl.readCfgRegOffset) (out.getD i 0#32) := by
  obtain ⟨_, m, hget, hrest⟩ := exec_bind.mp h
  obtain ⟨_, w, hwait, hloop⟩ := exec_bind.mp hrest
  obtain ⟨u, htu, hno, hwrite, rfl⟩ := Bus.exec_write.mp hget
  obtain ⟨hlong, hnoWait⟩ := Bus.exec_usleep.mp hwait
  replace hlong : u + 1 + 100 * 100000 ≤ w := hlong
  obtain ⟨hwt, hnoLoop, hlen, hreads⟩ := exec_collect_read hloop
  refine ⟨u, htu, by omega, hno, ?_, Bus.NoWrites.append hnoWait hnoLoop, ?_, fun i hi => ?_⟩
  · rw [triggers_of_writes hr hwrite]
    rfl
  · apply BitVec.eq_of_getLsbD_eq
    intro j hj
    rw [getLsbD_configRegFromPs _ hj, getLsbD_configRegFromPs _ hj, held_of_writes hwrite,
      Function.update_of_ne (by omega)]
  · obtain ⟨x, hx, hxt, hread⟩ := hreads i hi
    exact ⟨x, by omega, hxt, hread⟩

/-! ### A call of `set_check_config` -/

/-- What a call of `set_check_config` from cycle `t` to cycle `t'` does to the core: the command
pulses are high in the cycles `set` and `get` and in no others, the configuration is in the
registers from `set` on, and what is compared is read 100 ms after `get`. -/
structure Timeline (r : Run) (config : Ctrl.Config) (t set get t' : ℕ) (ok : Bool) : Prop where
  set_gt : t < set
  wait : set + 10000000 < get
  get_le : get + 10000000 ≤ t'
  calmBefore : r.Calm (t + 1) set
  setPulse : (r.regs set).control.triggers = 1#16
  calmBetween : r.Calm (set + 1) get
  getPulse : (r.regs get).control.triggers = 2#16
  calmAfter : r.Calm (get + 1) (t' + 1)
  loaded : ∀ x, set ≤ x → x ≤ t' → configRegFromPs (r.slvReg x) = config.bits
  outcome : ∃ out : ℕ → BitVec 32, (∀ i < Ctrl.nCfgReg, ∃ u, get + 10000000 ≤ u ∧ u < t' ∧
      out i = cfgWord (cfgRegFromPl (r.fsm.regs u)) i) ∧
    (ok = true ↔ ∀ i < Ctrl.nCfgReg, config.word i = out i)

/-- Every call of `set_check_config` is such a timeline. -/
lemma Calls.timeline (hr : r.FromReset) (hm : r.MasterHolds) {config : Ctrl.Config} {ok : Bool}
    (h : r.Calls (Ctrl.setCheckConfig config) t t' ok) :
    ∃ set get, r.Timeline config t set get t' ok := by
  obtain ⟨v, hexec, hvt, hnoEnd⟩ := h
  obtain ⟨_, set, hset, hrest⟩ := exec_bind.mp hexec
  obtain ⟨_, w, hwait, hrest⟩ := exec_bind.mp hrest
  obtain ⟨out, v', hget, hdone⟩ := exec_bind.mp hrest
  obtain ⟨rfl, rfl⟩ := exec_done.mp hdone
  obtain ⟨htset, hcalm, hsetPulse, hconfig⟩ := exec_setConfig hr hm hset
  obtain ⟨hlong, hnoWait⟩ := Bus.exec_usleep.mp hwait
  obtain ⟨u, hwu, hlate, hnoGet, hgetPulse, hnoReads, hsame, hreads⟩ := exec_getConfig hr hget
  replace hlong : set + 100 * 100000 ≤ w := hlong
  have hnoSet : r.bus.NoWrites set u := Bus.NoWrites.append hnoWait hnoGet
  have hnoAll : r.bus.NoWrites (u + 1) t' := hnoReads.append hnoEnd
  refine ⟨set, u + 1, htset, by omega, by omega, hcalm, hsetPulse,
    calm_of_noWrites hr hm hnoSet, hgetPulse, calm_of_noWrites hr hm hnoAll, fun x hx hxt => ?_,
    fun i => out.getD i 0#32, fun i hi => ?_, ?_⟩
  · have hbefore : ∀ y, set ≤ y → y ≤ u → configRegFromPs (r.slvReg y) = config.bits :=
      fun y hy hyu => by rw [slvReg_of_noWrites hnoSet hy hyu, hconfig]
    rcases Nat.lt_or_ge u x with hlt | hge
    · rw [slvReg_of_noWrites hnoAll hlt hxt, hsame, hbefore u (by omega) le_rfl]
    · exact hbefore x hx hge
  · obtain ⟨x, hx, hxt, hread⟩ := hreads i hi
    obtain ⟨hreg, hdata⟩ := data_of_reads hread
    refine ⟨x, hx, by omega, ?_⟩
    rw [← r.regs_fsm]
    exact hdata.trans (regDataOut_config _ _ hi hreg)
  · simp [List.all_eq_true]

end Exec

end Core.Run

end TrackerFpga.Vata
