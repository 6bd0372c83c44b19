import TrackerFpga.Cal.Core
import TrackerFpga.Cal.Train

/-!
# What `n_pulses` gives

`n_pulses` sets the bit `run_pulses` and clears it again, and the machine starts on its rising edge.
There is no edge when `start_inf_pulses` has left the bit set, and the machine does not see the edge
when it is still in the last pulse of an infinite train.  In all other cases it sends its pulses
(`nPulses_iff`).
-/

namespace TrackerFpga.Cal

open AxiLite Interaction Mapped

/-- Pulses are enabled, and neither their width nor the delay between them is `0`. -/
structure CalCtrl.Valid (c : CalCtrl) : Prop where
  ena : c.calPulseEna = true
  width : c.calPulseWidth ≠ 0#32
  delay : c.repetitionDelay ≠ 0#32

/-- What `write_settings` writes. -/
def CalCtrl.settings (c : CalCtrl) : List (ℕ × BitVec 32) :=
  [(0, c.enable), (2, c.calPulseWidth), (3, c.vataTriggerDelay), (5, c.repetitionDelay)]

namespace Core.Run

variable {r : Run} {c : CalCtrl} {n : BitVec 32} {calls : List CalCtrl.Call}
  {s t t' u m x y : ℕ}

/-! ## Calls -/

/-- The calls are made one after the other from cycle `0` on, none while a finite train is running,
and have returned in cycle `t`. -/
inductive Calls (r : Run) : List CalCtrl.Call → ℕ → Prop
  | nil : Calls r [] 0
  | concat {calls : List CalCtrl.Call} {c : CalCtrl.Call} {t s t' : ℕ} :
      Calls r calls t → t ≤ s → r.bus.NoWrites t s → ¬ r.fsm.Running s →
        Exec r.bus.env c.method s 0 t' → Calls r (calls ++ [c]) t'

/-- The settings and the number of pulses are written from cycle `s` on and before cycle `m`, and
the bit `run_pulses` is set in cycle `u`. -/
structure Sets (r : Run) (c : CalCtrl) (n : BitVec 32) (s m u : ℕ) : Prop where
  settings : r.bus.Performs s c.settings m
  number : ∃ y, m ≤ y ∧ y < u ∧ r.bus.NoWrites m y ∧ r.bus.Writes y 4 n ∧ r.bus.NoWrites (y + 1) u
  run : r.bus.Writes u 1 1#32

lemma exec_writeSettings {a : Unit} (h : Exec r.bus.env c.writeSettings s a t) :
    r.bus.Performs s c.settings t := by
  unfold CalCtrl.writeSettings at h
  obtain ⟨_, _, h₁, h⟩ := exec_bind.mp h
  obtain ⟨_, _, h₂, h⟩ := exec_bind.mp h
  obtain ⟨_, _, h₃, h₄⟩ := exec_bind.mp h
  exact (Bus.performs_of_exec h₁).append ((Bus.performs_of_exec h₂).append
    ((Bus.performs_of_exec h₃).append (Bus.performs_of_exec h₄)))

lemma exec_startInfPulses (h : Exec r.bus.env c.startInfPulses s 0 t) :
    ∃ m u, r.Sets c 0#32 s m u ∧ t = u + 1 := by
  unfold CalCtrl.startInfPulses at h
  obtain ⟨_, m, hsettings, h⟩ := exec_bind.mp h
  obtain ⟨_, _, h₄, h⟩ := exec_bind.mp h
  obtain ⟨_, _, hrun, hdone⟩ := exec_bind.mp h
  obtain ⟨-, rfl⟩ := exec_done.mp hdone
  obtain ⟨y, hmy, hno, hw, rfl⟩ := Bus.exec_write.mp h₄
  obtain ⟨u, hyu, hno', hw', rfl⟩ := Bus.exec_write.mp hrun
  exact ⟨m, u, ⟨exec_writeSettings hsettings, ⟨y, hmy, hyu, hno, hw, hno'⟩, hw'⟩, rfl⟩

lemma exec_nPulses (h : Exec r.bus.env (c.nPulses n) s 0 t) :
    ∃ m u u', r.Sets c n s m u ∧ u < u' ∧ r.bus.NoWrites (u + 1) u' ∧ r.bus.Writes u' 1 0#32 ∧
      t = u' + 1 := by
  unfold CalCtrl.nPulses at h
  obtain ⟨_, m, hsettings, h⟩ := exec_bind.mp h
  obtain ⟨_, _, h₄, h⟩ := exec_bind.mp h
  obtain ⟨_, _, hrun, h⟩ := exec_bind.mp h
  obtain ⟨_, _, hclear, hdone⟩ := exec_bind.mp h
  obtain ⟨-, rfl⟩ := exec_done.mp hdone
  obtain ⟨y, hmy, hno, hw, rfl⟩ := Bus.exec_write.mp h₄
  obtain ⟨u, hyu, hno', hw', rfl⟩ := Bus.exec_write.mp hrun
  obtain ⟨u', huu', hno'', hw'', rfl⟩ := Bus.exec_write.mp hclear
  exact ⟨m, u, u', ⟨exec_writeSettings hsettings, ⟨y, hmy, hyu, hno, hw, hno'⟩, hw'⟩, huu', hno'',
    hw'', rfl⟩

lemma exec_stopInfPulses (h : Exec r.bus.env CalCtrl.stopInfPulses s 0 t) :
    ∃ u, s ≤ u ∧ r.bus.NoWrites s u ∧ r.bus.Writes u 1 0#32 ∧ t = u + 1 := by
  unfold CalCtrl.stopInfPulses at h
  obtain ⟨_, _, hclear, hdone⟩ := exec_bind.mp h
  obtain ⟨-, rfl⟩ := exec_done.mp hdone
  exact Bus.exec_write.mp hclear

/-! ## The registers during a call -/

lemma slvReg_of_noWrites (hno : r.bus.NoWrites t u) (htx : t ≤ x) (hxu : x ≤ u) :
    r.slvReg x = r.slvReg t := Bus.slvReg_of_noWrites r.advances hno htx hxu

lemma slvReg_of_writes {k : ℕ} {v : BitVec 32} (hk : k < 2 ^ 3) (hw : r.bus.Writes u k v)
    (hno : r.bus.NoWrites (u + 1) t) (hux : u < x) (hxt : x ≤ t) :
    r.slvReg x = Function.update (r.slvReg u) ⟨k, hk⟩ v :=
  Bus.slvReg_after_write r.advances hk hw hno hux hxt

section Sets

variable (h : r.Sets c n s m u)
include h

lemma Sets.le : s + 5 ≤ u := by
  obtain ⟨y, hmy, hyu, -⟩ := h.number
  have hlen := h.settings.add_length_le
  have hfour : c.settings.length = 4 := rfl
  omega

/-- The writes before the last as one list. -/
lemma Sets.performs : ∃ y < u, r.bus.Performs s (c.settings ++ [(4, n)]) (y + 1) ∧
    r.bus.NoWrites (y + 1) u := by
  obtain ⟨y, hmy, hyu, hno, hw, hno'⟩ := h.number
  exact ⟨y, hyu, h.settings.append (.cons hmy hno hw (.nil _)), hno'⟩

/-- The bit `run_pulses` keeps its value until it is written. -/
lemma Sets.run_before (hsx : s ≤ x) (hxu : x ≤ u) :
    (r.fsm.inp x).runPulses = (r.fsm.inp s).runPulses := by
  obtain ⟨y, hyu, hperforms, hno⟩ := h.performs
  have hkept : ∀ z, s ≤ z → z ≤ y + 1 → r.slvReg z ⟨1, by decide⟩ = r.slvReg s ⟨1, by decide⟩ :=
    fun z hsz hzy => hperforms.slvReg_kept r.advances (by simp [CalCtrl.settings]) hsz hzy
  have hreg : r.slvReg x ⟨1, by decide⟩ = r.slvReg s ⟨1, by decide⟩ := by
    rcases Nat.lt_or_ge x (y + 1) with hlt | hge
    · exact hkept x hsx hlt.le
    · rw [slvReg_of_noWrites hno hge hxu]
      exact hkept (y + 1) (Nat.le_of_add_right_le hperforms.add_length_le) le_rfl
  exact congrArg (fun w : BitVec 32 => w.getLsbD 0) hreg

/-- So does the number of pulses during the settings. -/
lemma Sets.number_before (hsx : s ≤ x) (hx : x ≤ s + 4) :
    (r.fsm.inp x).nPulsesIn = (r.fsm.inp s).nPulsesIn := by
  have hlen := h.settings.add_length_le
  have hfour : c.settings.length = 4 := rfl
  show r.slvReg x ⟨4, by decide⟩ = r.slvReg s ⟨4, by decide⟩
  exact h.settings.slvReg_kept r.advances (by simp [CalCtrl.settings]) hsx (by omega)

/-- The settings and the number stand in the registers when the bit is set. -/
lemma Sets.regs : r.slvReg u ⟨0, by decide⟩ = c.enable ∧
    r.slvReg u ⟨2, by decide⟩ = c.calPulseWidth ∧
    r.slvReg u ⟨5, by decide⟩ = c.repetitionDelay ∧ r.slvReg u ⟨4, by decide⟩ = n := by
  obtain ⟨y, hyu, hperforms, hno⟩ := h.performs
  rw [slvReg_of_noWrites hno hyu le_rfl]
  exact ⟨Bus.Performs.slvReg_of_last [] hperforms r.advances (by simp),
    Bus.Performs.slvReg_of_last [(0, c.enable)] hperforms r.advances (by simp),
    Bus.Performs.slvReg_of_last [(0, c.enable), (2, c.calPulseWidth), (3, c.vataTriggerDelay)]
      hperforms r.advances (by simp),
    Bus.Performs.slvReg_of_last c.settings hperforms r.advances (by simp)⟩

/-- The bit is set once. -/
lemma Sets.eq_of_writes {v : BitVec 32} (hsx : s ≤ x) (hxu : x ≤ u) (hw : r.bus.Writes x 1 v) :
    x = u := by
  obtain ⟨y, hyu, hperforms, hno⟩ := h.performs
  rcases Nat.lt_or_ge x (y + 1) with hlt | hge
  · have hmem := hperforms.mem_of_writes hsx hlt hw
    simp [CalCtrl.settings] at hmem
  · rcases Nat.eq_or_lt_of_le hxu with rfl | hlt
    · rfl
    · exact absurd hw (Bus.not_writes_of_noWrite (hno x hge hlt))

end Sets

/-! ## When no train begins -/

/-- No finite train can begin as long as nothing is written: the number of pulses is `0`, or the
machine has no edge of `run_pulses` before it. -/
def Quiet (r : Run) (t : ℕ) : Prop :=
  (r.fsm.inp t).nPulsesIn = 0#32 ∨ (r.fsm.regs t).startCalPulses = false ∧
    ((r.fsm.inp t).runPulses = true → (r.fsm.regs t).lastRunPulses = true)

/-- The start flag after two cycles with the same bit. -/
lemma start_of_steady (h : (r.fsm.inp x).runPulses = (r.fsm.inp (x + 1)).runPulses) :
    (r.fsm.regs (x + 2)).startCalPulses = false := by
  rw [Cal.Run.startCalPulses_succ, Cal.Run.lastRunPulses_succ, h]
  cases (r.fsm.inp (x + 1)).runPulses <;> rfl

lemma Quiet.of_noWrites (h : r.Quiet t) (hts : t ≤ s) (hno : r.bus.NoWrites t s) : r.Quiet s := by
  refine Clocked.invariant_between (P := r.Quiet) (b := s) h (fun y hty hys hy => ?_) hts le_rfl
  have hsame : r.fsm.inp (y + 1) = r.fsm.inp y := by
    show fsmInput (r.slvReg (y + 1)) = fsmInput (r.slvReg y)
    rw [slvReg_of_noWrites hno (by omega) hys, slvReg_of_noWrites hno hty hys.le]
  rcases hy with hzero | ⟨hstart, hlast⟩
  · left
    rw [hsame, hzero]
  · right
    rw [Cal.Run.startCalPulses_succ, Cal.Run.lastRunPulses_succ, hsame]
    refine ⟨?_, id⟩
    cases hrun : (r.fsm.inp y).runPulses with
    | true => simp [hlast hrun]
    | false => simp

section Sets

variable (h : r.Sets c n s m u) (hquiet : r.Quiet s)
include h

/-- The start flag is down around the write. -/
lemma Sets.start_down (hx : s + 2 ≤ x) (hxu : x ≤ u + 1) :
    (r.fsm.regs x).startCalPulses = false := by
  obtain ⟨y, rfl⟩ := Nat.exists_eq_add_of_le' (show 2 ≤ x by omega)
  exact start_of_steady ((h.run_before (by omega) (by omega)).trans
    (h.run_before (by omega) (by omega)).symm)

include hquiet in
/-- No finite train begins up to the second cycle after the write. -/
lemma Sets.not_running (hrest : ¬ r.fsm.Running s) (hsx : s ≤ x) (hxu : x ≤ u + 2) :
    ¬ r.fsm.Running x := by
  refine Clocked.invariant_between (P := fun x => ¬ r.fsm.Running x) (b := u + 2) hrest
    (fun y hsy hyu hno => ?_) hsx hxu
  rw [Cal.Run.running_succ hno]
  rintro ⟨-, hstart, hnumber⟩
  rcases Nat.lt_or_ge y (s + 2) with hearly | hlate
  · rw [h.number_before hsy (by omega)] at hnumber
    rcases hquiet with hzero | ⟨hdown, hlast⟩
    · exact hnumber hzero
    · obtain rfl | rfl : y = s ∨ y = s + 1 := by omega
      · rw [hdown] at hstart
        exact absurd hstart (by decide)
      · rw [Cal.Run.startCalPulses_succ] at hstart
        simp only [Bool.and_eq_true, Bool.not_eq_true'] at hstart
        rw [hlast hstart.2] at hstart
        exact absurd hstart.1 (by decide)
  · rw [h.start_down hlate (by omega)] at hstart
    exact absurd hstart (by decide)

end Sets

/-! ## After the call -/

/-- A call of `n_pulses` that sets the bit in cycle `u` and clears it in cycle `u'`, and nothing is
written after it before cycle `e`. -/
structure Pulsed (r : Run) (c : CalCtrl) (n : BitVec 32) (s m u u' e : ℕ) : Prop where
  sets : r.Sets c n s m u
  lt : u < u'
  between : r.bus.NoWrites (u + 1) u'
  clears : r.bus.Writes u' 1 0#32
  ended : u' < e
  after : r.bus.NoWrites (u' + 1) e

section Pulsed

variable {u' e : ℕ} (h : r.Pulsed c n s m u u' e)
include h

/-- The bit stays set for at least two cycles. -/
lemma Pulsed.add_two_le : u + 2 ≤ u' := by
  have hlt := h.lt
  rcases Nat.eq_or_lt_of_le hlt with heq | hlt'
  · have hclears := h.clears
    rw [← heq] at hclears
    exact absurd hclears (not_writes_succ h.sets.run)
  · exact hlt'

/-- The bit is set by one write only. -/
lemma Pulsed.eq_of_writes (hsx : s ≤ x) (hxu : x ≤ u') (hw : r.bus.Writes x 1 1#32) : x = u := by
  rcases Nat.lt_or_ge u x with hlate | hearly
  · rcases Nat.lt_or_ge x u' with hlt | hge
    · exact absurd hw (Bus.not_writes_of_noWrite (h.between x hlate hlt))
    · obtain rfl : x = u' := by omega
      exact absurd (Bus.writes_unique hw h.clears).2 (by decide)
  · exact h.sets.eq_of_writes hsx hearly hw

lemma Pulsed.slvReg_set (hux : u < x) (hxu : x ≤ u') :
    r.slvReg x = Function.update (r.slvReg u) ⟨1, by decide⟩ 1#32 :=
  slvReg_of_writes (by decide) h.sets.run h.between hux hxu

lemma Pulsed.slvReg_cleared (hux : u' < x) (hxe : x ≤ e) :
    r.slvReg x = Function.update (r.slvReg u') ⟨1, by decide⟩ 0#32 :=
  slvReg_of_writes (by decide) h.clears h.after hux hxe

/-- The other registers stay as they are. -/
lemma Pulsed.slvReg_other {k : Fin (2 ^ 3)} (hk : k ≠ ⟨1, by decide⟩) (hux : u ≤ x) (hxe : x ≤ e) :
    r.slvReg x k = r.slvReg u k := by
  have hset : ∀ y, u ≤ y → y ≤ u' → r.slvReg y k = r.slvReg u k := by
    intro y huy hyu
    rcases Nat.eq_or_lt_of_le huy with rfl | hlt
    · rfl
    · rw [h.slvReg_set hlt hyu, Function.update_of_ne hk]
  rcases Nat.lt_or_ge u' x with hlate | hearly
  · rw [h.slvReg_cleared hlate hxe, Function.update_of_ne hk]
    exact hset u' h.lt.le le_rfl
  · exact hset x hux hearly

lemma Pulsed.run_set (hux : u < x) (hxu : x ≤ u') : (r.fsm.inp x).runPulses = true := by
  show (r.slvReg x ⟨1, by decide⟩).getLsbD 0 = true
  rw [h.slvReg_set hux hxu, Function.update_self]
  rfl

lemma Pulsed.run_cleared (hux : u' < x) (hxe : x ≤ e) : (r.fsm.inp x).runPulses = false := by
  show (r.slvReg x ⟨1, by decide⟩).getLsbD 0 = false
  rw [h.slvReg_cleared hux hxe, Function.update_self]
  rfl

/-- The start flag goes up once, if the bit was clear before. -/
lemma Pulsed.start_up : (r.fsm.regs (u + 2)).startCalPulses = !(r.fsm.inp u).runPulses := by
  rw [Cal.Run.startCalPulses_succ, Cal.Run.lastRunPulses_succ,
    h.run_set (Nat.lt_succ_self u) h.lt, Bool.and_true]

lemma Pulsed.start_down (hux : u + 3 ≤ x) (hxe : x ≤ e) :
    (r.fsm.regs x).startCalPulses = false := by
  obtain ⟨y, rfl⟩ := Nat.exists_eq_add_of_le' (show 2 ≤ x by omega)
  rw [Cal.Run.startCalPulses_succ, Cal.Run.lastRunPulses_succ]
  rcases Nat.lt_or_ge u' y with hlate | hearly
  · rw [h.run_cleared (x := y + 1) (by omega) (by omega), Bool.and_false]
  · rw [h.run_set (by omega) hearly]
    rfl

/-- Between the write of the bit and the end the settings are those of the call. -/
lemma Pulsed.held (hc : c.Valid) :
    r.fsm.Held c.calPulseWidth c.repetitionDelay n (u + 3) e := by
  obtain ⟨hena, hwidth, hdelay, hnumber⟩ := h.sets.regs
  refine ⟨fun x hx hxe => ?_, fun x hx hxe => ?_, fun x hx hxe => ?_, fun x hx hxe => ?_,
    fun x hx hxe => h.start_down hx hxe⟩
  · show (r.slvReg x ⟨0, by decide⟩).getLsbD 0 = true
    rw [h.slvReg_other (by decide) (by omega) hxe, hena, CalCtrl.getLsbD_enable, hc.ena]
  · exact (h.slvReg_other (by decide) (by omega) hxe).trans hwidth
  · exact (h.slvReg_other (by decide) (by omega) hxe).trans hdelay
  · exact (h.slvReg_other (by decide) (by omega) hxe).trans hnumber

variable (hquiet : r.Quiet s) (hrest : ¬ r.fsm.Running s)
include hquiet hrest

/-- When the bit was clear and no pulse under way, the train begins. -/
lemma Pulsed.train_begins (hc : c.Valid) (hn : n ≠ 0#32) (hrun : (r.fsm.inp u).runPulses = false)
    (hout : r.fsm.out u = false) :
    (r.fsm.regs (u + 3)).train = (.calPulseHold, 0#32, 0#32) := by
  have hlong := h.sets.le
  have hena : (r.fsm.inp u).calPulseEna = true := by
    show (r.slvReg u ⟨0, by decide⟩).getLsbD 0 = true
    rw [h.sets.regs.1, CalCtrl.getLsbD_enable, hc.ena]
  have hidle₁ : r.fsm.state (u + 1) = .idle := by
    have hno := h.sets.not_running hquiet hrest (x := u) (by omega) (by omega)
    have hlow : ¬ (r.fsm.state u = .calPulseHold ∨ r.fsm.state u = .infCalPulseHold) := by
      intro hhold
      rw [Cal.Run.out_iff.mpr ⟨hena, hhold⟩] at hout
      exact absurd hout (by decide)
    cases hstate : r.fsm.state u with
    | idle => exact Cal.Run.idle_succ hstate (h.sets.start_down (by omega) (by omega))
    | calPulseHold => exact absurd (.inl hstate) hlow
    | calPulseWait => exact absurd (.inr hstate) hno
    | infCalPulseHold => exact absurd (.inr hstate) hlow
    | infCalPulseWait => exact Cal.Run.idle_of_infCalPulseWait hstate hrun
  have hidle₂ : r.fsm.state (u + 2) = .idle :=
    Cal.Run.idle_succ hidle₁ (h.sets.start_down (by omega) le_rfl)
  have hup : (r.fsm.regs (u + 2)).startCalPulses = true := by
    rw [h.start_up, hrun]
    rfl
  have hnumber : (r.fsm.inp (u + 2)).nPulsesIn ≠ 0#32 := by
    have htwo := h.add_two_le
    have hended := h.ended
    show r.slvReg (u + 2) ⟨4, by decide⟩ ≠ 0#32
    rw [h.slvReg_other (by decide) (by omega) (by omega), h.sets.regs.2.2.2]
    exact hn
  rw [Cal.Run.regs_succ]
  exact train_of_start hidle₂ hup hnumber

/-- Else no finite train begins before the end. -/
lemma Pulsed.no_train (hno : ¬ ((r.fsm.inp u).runPulses = false ∧ r.fsm.out u = false))
    (hsx : s ≤ x) (hxe : x ≤ e) : ¬ r.fsm.Running x := by
  have hlong := h.sets.le
  have htwo := h.add_two_le
  -- the machine does not see a start: there is none, or it is in an infinite train
  have hunseen : ¬ (r.fsm.state (u + 2) = .idle ∧
      (r.fsm.regs (u + 2)).startCalPulses = true) := by
    rintro ⟨hidle, hup⟩
    have hclear : (r.fsm.inp u).runPulses = false := by
      rwa [h.start_up, Bool.not_eq_true'] at hup
    have hout : r.fsm.out u = true := by
      by_contra hlow
      exact hno ⟨hclear, Bool.not_eq_true _ ▸ hlow⟩
    have hhold : r.fsm.state u = .infCalPulseHold := by
      rcases (Cal.Run.out_iff.mp hout).2 with hfinite | hinf
      · exact absurd (.inl hfinite)
          (h.sets.not_running hquiet hrest (x := u) (by omega) (by omega))
      · exact hinf
    have hset : (r.fsm.inp (u + 1)).runPulses = true := h.run_set (Nat.lt_succ_self u) h.lt
    have hgo := Cal.Run.infinite_succ ((Cal.Run.infinite_succ (.inl hhold)).imp_right
      fun hwait => ⟨hwait, hset⟩)
    rw [hidle] at hgo
    exact absurd hgo (by decide)
  rcases Nat.lt_or_ge x (u + 2) with hearly | hlate
  · exact h.sets.not_running hquiet hrest hsx hearly.le
  · refine Clocked.invariant_between (P := fun x => ¬ r.fsm.Running x) (b := e)
      (h.sets.not_running hquiet hrest (x := u + 2) (by omega) le_rfl) (fun y huy hye hyno => ?_)
      hlate hxe
    rw [Cal.Run.running_succ hyno]
    rintro ⟨hidle, hup, -⟩
    rcases Nat.eq_or_lt_of_le huy with rfl | hlt
    · exact hunseen ⟨hidle, hup⟩
    · rw [h.start_down hlt hye.le] at hup
      exact absurd hup (by decide)

end Pulsed

/-! ## From call to call -/

lemma Calls.quiet (hr : r.FromReset) (hcalls : r.Calls calls t) : r.Quiet t := by
  induction hcalls with
  | nil =>
      left
      have hstart : r.start = .reset := hr
      simp [fsm, fsmInput, slvReg, file, regs, hstart, Regs.reset, RegisterFile.reset]
  | @concat calls call t s t' hcalls hts hno hrest hcall ih =>
      have hquiet := ih.of_noWrites hts hno
      cases call with
      | nPulses c n =>
          obtain ⟨m, u, u', hsets, hlt, hbetween, hclears, rfl⟩ := exec_nPulses hcall
          have h : r.Pulsed c n s m u u' (u' + 1) :=
            ⟨hsets, hlt, hbetween, hclears, Nat.lt_succ_self _, fun y hy hyu => by omega⟩
          have htwo := h.add_two_le
          right
          rw [h.run_cleared (Nat.lt_succ_self u') le_rfl]
          exact ⟨h.start_down (by omega) le_rfl, fun hset => absurd hset (by decide)⟩
      | startInfPulses c =>
          obtain ⟨m, u, hsets, rfl⟩ := exec_startInfPulses hcall
          left
          show r.slvReg (u + 1) ⟨4, by decide⟩ = 0#32
          rw [slvReg_of_writes (by decide) hsets.run (fun y hy hyu => by omega) (Nat.lt_succ_self u)
            le_rfl, Function.update_of_ne (by decide), hsets.regs.2.2.2]
      | stopInfPulses =>
          obtain ⟨u, hsu, hno', hw, rfl⟩ := exec_stopInfPulses hcall
          have hreg := slvReg_of_writes (x := u + 1) (by decide) hw (fun y hy hyu => by omega)
            (Nat.lt_succ_self u) le_rfl
          rcases hquiet.of_noWrites hsu hno' with hzero | ⟨hdown, hlast⟩
          · left
            show r.slvReg (u + 1) ⟨4, by decide⟩ = 0#32
            rw [hreg, Function.update_of_ne (by decide)]
            exact hzero
          · right
            have hclear : (r.fsm.inp (u + 1)).runPulses = false := by
              show (r.slvReg (u + 1) ⟨1, by decide⟩).getLsbD 0 = false
              rw [hreg, Function.update_self]
              rfl
            rw [hclear, Cal.Run.startCalPulses_succ]
            refine ⟨?_, fun hset => absurd hset (by decide)⟩
            cases hrun : (r.fsm.inp u).runPulses with
            | true => simp [hlast hrun]
            | false => simp

section NPulses

variable (hr : r.FromReset) (hcalls : r.Calls calls t) (hts : t ≤ s) (hno : r.bus.NoWrites t s)
  (hrest : ¬ r.fsm.Running s) (hc : c.Valid) (hn : n ≠ 0#32)
  (hcall : Exec r.bus.env (c.nPulses n) s 0 t') (htx : t' ≤ x) (hnox : r.bus.NoWrites t' x)
include hr hcalls hts hno hrest hc hn hcall htx hnox

/-- **When `n_pulses` gives its pulses.**  After a call of `n_pulses` in cycle `s`, and before the
next call in cycle `x`, its pulses are sent exactly when the write that sets `run_pulses` finds the
bit clear and no pulse under way. -/
theorem nPulses_iff (hover : ¬ r.fsm.Running x) :
    r.fsm.pulses s x = n.toNat ↔
      ∃ u, s ≤ u ∧ u < t' ∧ r.bus.Writes u 1 1#32 ∧
        (r.fsm.inp u).runPulses = false ∧ r.fsm.out u = false := by
  obtain ⟨m, u, u', hsets, hlt, hbetween, hclears, rfl⟩ := exec_nPulses hcall
  have hquiet := (hcalls.quiet hr).of_noWrites hts hno
  have h : r.Pulsed c n s m u u' x := ⟨hsets, hlt, hbetween, hclears, htx, hnox⟩
  have hlong := hsets.le
  have htwo := h.add_two_le
  constructor
  · intro hpulses
    by_contra hcond
    have hzero := Cal.Run.pulses_of_not_running (show s ≤ x by omega) fun y hsy hyx =>
      h.no_train hquiet hrest (fun hclear => hcond ⟨u, by omega, by omega, hsets.run, hclear⟩) hsy
        hyx.le
    rw [hzero] at hpulses
    exact hn (BitVec.eq_of_toNat_eq hpulses.symm)
  · rintro ⟨y, hsy, hyu, hw, hrun, hout⟩
    obtain rfl := h.eq_of_writes hsy (Nat.le_of_lt_succ hyu) hw
    have hbegin := h.train_begins hquiet hrest hc hn hrun hout
    have hbefore : r.fsm.pulses s (y + 3) = 0 :=
      Cal.Run.pulses_of_not_running (by omega) fun z hsz hzy =>
        hsets.not_running hquiet hrest hsz (by omega)
    rw [Cal.Run.pulses_append (show s ≤ y + 3 by omega) (by omega), hbefore, Nat.zero_add]
    exact Cal.Run.pulses_of_train (h.held hc) hc.width hc.delay hn hbegin (by omega) le_rfl hover

/-- The train of a call ends: it is over `(n - 1) * (w + p) + w` cycles after it has begun. -/
theorem nPulses_over {u : ℕ} (hsu : s ≤ u) (hut : u < t') (hw : r.bus.Writes u 1 1#32)
    (hlate : u + 3 + (n.toNat - 1) * (c.calPulseWidth.toNat + c.repetitionDelay.toNat) +
      c.calPulseWidth.toNat ≤ x) : ¬ r.fsm.Running x := by
  obtain ⟨m, v, u', hsets, hlt, hbetween, hclears, rfl⟩ := exec_nPulses hcall
  have hquiet := (hcalls.quiet hr).of_noWrites hts hno
  have h : r.Pulsed c n s m v u' x := ⟨hsets, hlt, hbetween, hclears, htx, hnox⟩
  have hlong := hsets.le
  have htwo := h.add_two_le
  obtain rfl := h.eq_of_writes hsu (Nat.le_of_lt_succ hut) hw
  by_cases hcond : (r.fsm.inp u).runPulses = false ∧ r.fsm.out u = false
  · exact Cal.Run.not_running_of_late (h.held hc) hc.width hc.delay hn
      (h.train_begins hquiet hrest hc hn hcond.1 hcond.2) hlate le_rfl
  · exact h.no_train hquiet hrest hcond (by omega) le_rfl

end NPulses

/-! ## Two runs -/

/-- The machine is idle as long as the bit has been clear. -/
lemma idle_of_clear (hr : r.FromReset) (hclear : ∀ y < x, (r.fsm.inp y).runPulses = false) :
    r.fsm.state x = .idle ∧ (r.fsm.regs x).startCalPulses = false := by
  induction x with
  | zero =>
      have hstart : r.start = .reset := hr
      simp [Cal.Run.state, fsm_regs, regs, hstart, Regs.reset, Cal.Regs.reset]
  | succ x ih =>
      obtain ⟨hidle, hdown⟩ := ih fun y hy => hclear y (hy.trans (Nat.lt_succ_self x))
      refine ⟨Cal.Run.idle_succ hidle hdown, ?_⟩
      rw [Cal.Run.startCalPulses_succ, hclear x (Nat.lt_succ_self x), Bool.and_false]

/-- A run from reset along a list of writes. -/
def listRun (writes : List (ℕ × ℕ × BitVec 32)) : Run where
  start := .reset
  master := scripted (scriptOf 3 writes)

section ListRun

variable (writes : List (ℕ × ℕ × BitVec 32))

lemma follows_listRun : Follows (listRun writes).file (scriptOf 3 writes) :=
  follows_of_template ((listRun writes).file_axi rfl)

lemma exec_listRun_write {k i : ℕ} {v : BitVec 32} (hi : i < 2 ^ 3)
    (h : writes.lookup k = some (i, v)) :
    Exec (listRun writes).bus.env (Driver.write i v) (4 * k - 2) () (4 * (k + 1) - 2) :=
  exec_write_slot (follows_listRun writes) hi (scriptOf_of_lookup h)

/-- `write_settings` in four slots. -/
lemma exec_listRun_settings {k : ℕ} (h₀ : writes.lookup k = some (0, c.enable))
    (h₁ : writes.lookup (k + 1) = some (2, c.calPulseWidth))
    (h₂ : writes.lookup (k + 2) = some (3, c.vataTriggerDelay))
    (h₃ : writes.lookup (k + 3) = some (5, c.repetitionDelay)) :
    Exec (listRun writes).bus.env c.writeSettings (4 * k - 2) () (4 * (k + 4) - 2) :=
  exec_bind.mpr ⟨(), _, exec_listRun_write writes (by decide) h₀,
    exec_bind.mpr ⟨(), _, exec_listRun_write writes (by decide) h₁,
    exec_bind.mpr ⟨(), _, exec_listRun_write writes (by decide) h₂,
    exec_listRun_write writes (by decide) h₃⟩⟩⟩

lemma noWrites_listRun {k x : ℕ} (hlast : ∀ w ∈ writes, w.1 < k) :
    (listRun writes).bus.NoWrites (4 * k - 2) x := by
  refine (noWrites_of_gap (follows_listRun writes) (m := k) (n := x + k)
    fun j hj _ addr data hjob => ?_).mono le_rfl (by omega)
  obtain ⟨i, -, hmem⟩ := mem_of_scriptOf hjob
  exact absurd (hlast _ hmem) (Nat.not_lt.mpr hj)

end ListRun

/-- Two pulses of one cycle, one cycle apart. -/
def shortPulses : CalCtrl :=
  { CalCtrl.default with calPulseWidth := 1#32, repetitionDelay := 1#32 }

/-- `n_pulses(2)`. -/
def twoPulsesWrites : List (ℕ × ℕ × BitVec 32) :=
  [(0, 0, shortPulses.enable), (1, 2, 1#32), (2, 3, 0#32), (3, 5, 1#32), (4, 4, 2#32),
    (5, 1, 1#32), (6, 1, 0#32)]

lemma exec_twoPulses :
    Exec (listRun twoPulsesWrites).bus.env (shortPulses.nPulses 2#32) 0 0 26 :=
  exec_bind.mpr ⟨(), 14, exec_listRun_settings twoPulsesWrites (k := 0) rfl rfl rfl rfl,
    exec_bind.mpr ⟨(), 18, exec_listRun_write twoPulsesWrites (k := 4) (by decide) rfl,
    exec_bind.mpr ⟨(), 22, exec_listRun_write twoPulsesWrites (k := 5) (by decide) rfl,
    exec_bind.mpr ⟨(), 26, exec_listRun_write twoPulsesWrites (k := 6) (by decide) rfl,
    exec_done.mpr ⟨rfl, rfl⟩⟩⟩⟩⟩

/-- The first call after a reset gives its pulses. -/
theorem twoPulses_sent : (listRun twoPulsesWrites).fsm.pulses 0 30 = 2 := by
  have hr : (listRun twoPulsesWrites).FromReset := rfl
  have hc : shortPulses.Valid := ⟨rfl, by decide, by decide⟩
  have hclear : ∀ y, y ≤ 21 → ((listRun twoPulsesWrites).fsm.inp y).runPulses = false := by
    intro y hy
    have hkept := slvReg_kept_of_list (k := 1) (follows_listRun twoPulsesWrites)
      (by simp [twoPulsesWrites]) (listRun twoPulsesWrites).advances (by decide) (Nat.zero_le y)
      (by simp [twoPulsesWrites]; omega)
    exact congrArg (fun w : BitVec 32 => w.getLsbD 0) hkept
  have hidle : ∀ y, y ≤ 22 → (listRun twoPulsesWrites).fsm.state y = .idle := fun y hy =>
    (idle_of_clear hr fun z hz => hclear z (by omega)).1
  have hrest : ¬ (listRun twoPulsesWrites).fsm.Running 0 := by
    rintro (h | h)
    all_goals exact absurd ((hidle 0 (by decide)).symm.trans h) (by decide)
  have hw : (listRun twoPulsesWrites).bus.Writes 21 1 1#32 :=
    ⟨by decide, (follows_listRun twoPulsesWrites).write (n := 5) (by decide)
      (scriptOf_of_lookup rfl)⟩
  have hnox : (listRun twoPulsesWrites).bus.NoWrites 26 30 :=
    noWrites_listRun twoPulsesWrites (k := 7) (by simp [twoPulsesWrites])
  have hover := nPulses_over hr .nil le_rfl (fun y hy hlt => absurd hlt (Nat.not_lt.mpr hy)) hrest
    hc (by decide) exec_twoPulses (by decide) hnox (u := 21) (by decide) (by decide) hw (by decide)
  refine (nPulses_iff hr .nil le_rfl (fun y hy hlt => absurd hlt (Nat.not_lt.mpr hy)) hrest hc
    (by decide) exec_twoPulses (by decide) hnox hover).mpr
    ⟨21, by decide, by decide, hw, hclear 21 le_rfl, ?_⟩
  rw [← Bool.not_eq_true, Cal.Run.out_iff, hidle 21 (by decide)]
  decide

/-- `start_inf_pulses`, and `n_pulses(1)` directly after it. -/
def infThenOneWrites : List (ℕ × ℕ × BitVec 32) :=
  [(0, 0, CalCtrl.default.enable), (1, 2, 200#32), (2, 3, 0#32), (3, 5, 1000#32), (4, 4, 0#32),
    (5, 1, 1#32),
    (6, 0, CalCtrl.default.enable), (7, 2, 200#32), (8, 3, 0#32), (9, 5, 1000#32), (10, 4, 1#32),
    (11, 1, 1#32), (12, 1, 0#32)]

lemma exec_infThenOne_inf :
    Exec (listRun infThenOneWrites).bus.env CalCtrl.default.startInfPulses 0 0 22 :=
  exec_bind.mpr ⟨(), 14, exec_listRun_settings infThenOneWrites (k := 0) rfl rfl rfl rfl,
    exec_bind.mpr ⟨(), 18, exec_listRun_write infThenOneWrites (k := 4) (by decide) rfl,
    exec_bind.mpr ⟨(), 22, exec_listRun_write infThenOneWrites (k := 5) (by decide) rfl,
    exec_done.mpr ⟨rfl, rfl⟩⟩⟩⟩

lemma exec_infThenOne_one :
    Exec (listRun infThenOneWrites).bus.env (CalCtrl.default.nPulses 1#32) 22 0 50 :=
  exec_bind.mpr ⟨(), 38, exec_listRun_settings infThenOneWrites (k := 6) rfl rfl rfl rfl,
    exec_bind.mpr ⟨(), 42, exec_listRun_write infThenOneWrites (k := 10) (by decide) rfl,
    exec_bind.mpr ⟨(), 46, exec_listRun_write infThenOneWrites (k := 11) (by decide) rfl,
    exec_bind.mpr ⟨(), 50, exec_listRun_write infThenOneWrites (k := 12) (by decide) rfl,
    exec_done.mpr ⟨rfl, rfl⟩⟩⟩⟩⟩

/-- The bit is still set when `n_pulses` writes it, and there is no pulse of its own ever. -/
theorem infThenOne_sends_none : (listRun infThenOneWrites).FromReset ∧
    (listRun infThenOneWrites).Calls
      [.startInfPulses CalCtrl.default, .nPulses CalCtrl.default 1#32] 50 ∧
    Exec (listRun infThenOneWrites).bus.env (CalCtrl.default.nPulses 1#32) 22 0 50 ∧
    ∀ x, 50 ≤ x → (listRun infThenOneWrites).bus.NoWrites 50 x ∧
      ¬ (listRun infThenOneWrites).fsm.Running x ∧
      (listRun infThenOneWrites).fsm.pulses 22 x = 0 := by
  have hr : (listRun infThenOneWrites).FromReset := rfl
  have hnone : ∀ y, (listRun infThenOneWrites).bus.NoWrites y y := fun y z hz hlt =>
    absurd hlt (Nat.not_lt.mpr hz)
  have hrest₀ : ¬ (listRun infThenOneWrites).fsm.Running 0 := by
    have hidle := (idle_of_clear hr (x := 0) fun y hy => absurd hy (Nat.not_lt_zero y)).1
    rintro (h | h)
    all_goals exact absurd (hidle.symm.trans h) (by decide)
  have hinf : (listRun infThenOneWrites).Calls [.startInfPulses CalCtrl.default] 22 :=
    .concat .nil le_rfl (hnone 0) hrest₀ exec_infThenOne_inf
  have hrest : ¬ (listRun infThenOneWrites).fsm.Running 22 := by
    obtain ⟨m, u, hsets, hu⟩ := exec_startInfPulses exec_infThenOne_inf
    exact hsets.not_running (Calls.quiet hr .nil) hrest₀ (by decide) (by omega)
  refine ⟨hr, .concat hinf le_rfl (hnone 22) hrest exec_infThenOne_one, exec_infThenOne_one,
    fun x hx => ?_⟩
  have hnox : (listRun infThenOneWrites).bus.NoWrites 50 x :=
    noWrites_listRun infThenOneWrites (k := 13) (by simp [infThenOneWrites])
  obtain ⟨m, u, u', hsets, hlt, hbetween, hclears, hu'⟩ := exec_nPulses exec_infThenOne_one
  have h : (listRun infThenOneWrites).Pulsed CalCtrl.default 1#32 22 m u u' x :=
    ⟨hsets, hlt, hbetween, hclears, by omega, hu' ▸ hnox⟩
  have hset : ((listRun infThenOneWrites).fsm.inp u).runPulses = true := by
    have hlong := hsets.le
    rw [hsets.run_before (by omega) le_rfl]
    have hreg := slvReg_of_list (k := 1) (n := 5) (x := 22) (follows_listRun infThenOneWrites)
      (by simp [infThenOneWrites]) (listRun infThenOneWrites).advances (by decide) rfl (by decide)
      (by simp [infThenOneWrites])
    exact congrArg (fun w : BitVec 32 => w.getLsbD 0) hreg
  have hno : ∀ y, 22 ≤ y → y ≤ x → ¬ (listRun infThenOneWrites).fsm.Running y := fun y hy hyx =>
    h.no_train (hinf.quiet hr) hrest (fun hclear => by
      rw [hset] at hclear
      exact absurd hclear.1 (by decide)) hy hyx
  exact ⟨hnox, hno x (by omega) le_rfl,
    Cal.Run.pulses_of_not_running (by omega) fun y hy hyx => hno y hy hyx.le⟩

end Core.Run

end TrackerFpga.Cal
