import TrackerFpga.Cal.Train

/-!
# Which pulses a start gives

Pulse `j` of a train that begins in cycle `a` is high in the `w` cycles from `a + j * (w + p)` on
(`InPulse`), and the gap after it lasts for `p` cycles (`InGap`).  A rising edge of `run_pulses` in
`IDLE` gives exactly the first `n` pulses; with `n_pulses_in` at `0` it gives them one after the
other, up to the first cycle of a gap in which `run_pulses` is low (`pulse_train`).
-/

namespace TrackerFpga.Cal.Run

open Clocked

variable {r : Run} {w p n : BitVec 32} {a e g j k t u v : ℕ}

/-- Pulses are enabled, and the settings stay as they are. -/
structure Constant (r : Run) (w p n : BitVec 32) : Prop where
  ena : ∀ t, (r.inp t).calPulseEna = true
  width : ∀ t, (r.inp t).calPulseWidth = w
  wait : ∀ t, (r.inp t).pulseWait = p
  nPulses : ∀ t, (r.inp t).nPulsesIn = n

/-- `run_pulses` in cycle `t`. -/
def runPulses (r : Run) (t : ℕ) : Bool := (r.inp t).runPulses

/-- In cycle `t` `run_pulses` is low; in the cycle after it has risen, and the machine is in
`IDLE`. -/
structure StartsTrain (r : Run) (t : ℕ) : Prop where
  low : r.runPulses t = false
  high : r.runPulses (t + 1) = true
  idle : r.state (t + 1) = .idle

/-- Cycle `u` is one of pulse `j`, if the first pulse begins in cycle `a`. -/
def InPulse (w p : BitVec 32) (a j u : ℕ) : Prop :=
  a + j * (w.toNat + p.toNat) ≤ u ∧ u < a + j * (w.toNat + p.toNat) + w.toNat

/-- Cycle `u` is one of the gap after pulse `j`. -/
def InGap (w p : BitVec 32) (a j u : ℕ) : Prop :=
  a + j * (w.toNat + p.toNat) + w.toNat ≤ u ∧ u < a + (j + 1) * (w.toNat + p.toNat)

/-- The last high cycle of a train of `n` pulses. -/
def lastHigh (w p n : BitVec 32) (a : ℕ) : ℕ :=
  a + (n.toNat - 1) * (w.toNat + p.toNat) + w.toNat - 1

/-! ## In `IDLE` -/

/-- The machine sees an edge one cycle later. -/
lemma startCalPulses_iff_rises :
    (r.regs (v + 2)).startCalPulses = true ↔ Rises r.runPulses (v + 1) := by
  rw [startCalPulses_succ, lastRunPulses_succ, rises_succ, Bool.and_eq_true, Bool.not_eq_true']
  exact and_comm

/-- Without an edge from the cycle before on, the machine stays in `IDLE`. -/
lemma idle_of_no_rise (hidle : r.state (e + 2) = .idle) (heu : e + 2 ≤ u)
    (hrise : ∀ v, e < v → v + 1 < u → ¬ Rises r.runPulses v) : r.state u = .idle := by
  refine invariant_between (P := fun x => r.state x = .idle) (b := u) hidle ?_ heu le_rfl
  intro x hex hxu hx
  obtain ⟨v, rfl⟩ := Nat.exists_eq_add_of_le' (show 2 ≤ x by omega)
  refine idle_succ hx (Bool.eq_false_of_not_eq_true fun hstart => ?_)
  exact hrise (v + 1) (by omega) (by omega) (startCalPulses_iff_rises.mp hstart)

lemma out_of_idle (hidle : r.state t = .idle) : r.out t = false := by
  rw [← Bool.not_eq_true, out_iff, hidle]
  simp

section Start

variable (hs : r.StartsTrain t)
include hs

/-- The two cycles from the edge on. -/
lemma StartsTrain.idle_two : r.state (t + 2) = .idle ∧ (r.regs (t + 2)).startCalPulses = true := by
  refine ⟨idle_succ hs.idle ?_, startCalPulses_iff_rises.mpr (rises_succ.mpr ⟨hs.high, hs.low⟩)⟩
  have hlow : (r.inp t).runPulses = false := hs.low
  rw [startCalPulses_succ, hlow, Bool.and_false]

lemma StartsTrain.out_of_lt (htu : t < u) (hu : u < t + 3) : r.out u = false := by
  obtain rfl | rfl : u = t + 1 ∨ u = t + 2 := by omega
  · exact out_of_idle hs.idle
  · exact out_of_idle hs.idle_two.1

end Start

/-! ## Where a cycle lies -/

/-- A cycle of pulse `j` is one of no other pulse. -/
lemma inPulse_iff_eq (hk : k < w.toNat) (hu : u = a + j * (w.toNat + p.toNat) + k) :
    InPulse w p a g u ↔ g = j := by
  constructor
  · rintro ⟨hge, hlt⟩
    rcases Nat.lt_trichotomy g j with hless | heq | hmore
    · have hmul := Nat.mul_le_mul_right (w.toNat + p.toNat) (Nat.succ_le_of_lt hless)
      rw [Nat.succ_mul] at hmul
      omega
    · exact heq
    · have hmul := Nat.mul_le_mul_right (w.toNat + p.toNat) (Nat.succ_le_of_lt hmore)
      rw [Nat.succ_mul] at hmul
      omega
  · rintro rfl
    exact ⟨by omega, by omega⟩

/-- A cycle of a gap is one of no pulse. -/
lemma not_inPulse_of_inGap (hu : InGap w p a j u) : ¬ InPulse w p a g u := by
  rintro ⟨hge, hlt⟩
  rcases Nat.lt_or_ge j g with hless | hmore
  · have hmul := Nat.mul_le_mul_right (w.toNat + p.toNat) (show j + 1 ≤ g from hless)
    exact absurd hu.2 (by omega)
  · have hmul := Nat.mul_le_mul_right (w.toNat + p.toNat) hmore
    exact absurd hu.1 (by omega)

lemma inGap_of_eq (hk : k < p.toNat) (hu : u = a + j * (w.toNat + p.toNat) + w.toNat + k) :
    InGap w p a j u := by
  refine ⟨by omega, ?_⟩
  rw [Nat.succ_mul]
  omega

/-- No pulse of the train is left after its last high cycle. -/
lemma not_inPulse_of_late (hu : lastHigh w p n a < u) (hj : j < n.toNat) :
    ¬ InPulse w p a j u := by
  rintro ⟨-, hlt⟩
  have hmul := Nat.mul_le_mul_right (w.toNat + p.toNat) (show j ≤ n.toNat - 1 by omega)
  unfold lastHigh at hu
  omega

/-! ## A finite train -/

/-- Where a train of `n` pulses is in cycle `u`, whatever `run_pulses` has done since its start. -/
inductive Stage (r : Run) (w p n : BitVec 32) (a u : ℕ) : Prop
  | hold (j k : ℕ) :
      (r.regs u).train = (.calPulseHold, BitVec.ofNat 32 k, BitVec.ofNat 32 j) →
      k < w.toNat → j < n.toNat → u = a + j * (w.toNat + p.toNat) + k → Stage r w p n a u
  | wait (j k : ℕ) :
      (r.regs u).train = (.calPulseWait, BitVec.ofNat 32 k, BitVec.ofNat 32 (j + 1)) →
      k < p.toNat → j + 1 < n.toNat → u = a + j * (w.toNat + p.toNat) + w.toNat + k →
      Stage r w p n a u
  | ended : lastHigh w p n a < u → (u = lastHigh w p n a + 1 → r.state u = .idle) →
      Stage r w p n a u

section Constant

variable (h : r.Constant w p n) (hw : w ≠ 0#32) (hp : p ≠ 0#32)
include h hw hp

lemma Stage.succ (hn : n ≠ 0#32) (hstage : r.Stage w p n a u) : r.Stage w p n a (u + 1) := by
  have hpos := toNat_pos hw
  cases hstage with
  | hold j k htrain hk hj hu =>
      have hnext := hold_next (h.width u) (h.nPulses u) hw hn hk hj htrain
      rw [← r.regs_succ u] at hnext
      rcases hnext with ⟨hmore, hnext⟩ | ⟨hlast, hmore, hnext⟩ | ⟨hlast, hall, hnext⟩
      · exact .hold j (k + 1) hnext hmore hj (by omega)
      · exact .wait j 0 hnext (toNat_pos hp) hmore (by omega)
      · refine .ended ?_ fun _ => hnext
        unfold lastHigh
        rw [show n.toNat - 1 = j by omega]
        omega
  | wait j k htrain hk hj hu =>
      have hnext := wait_next (h.wait u) hp hk htrain
      rw [← r.regs_succ u] at hnext
      rcases hnext with ⟨hmore, hnext⟩ | ⟨hlast, hnext⟩
      · exact .wait j (k + 1) hnext hmore hj (by omega)
      · refine .hold (j + 1) 0 hnext hpos hj ?_
        rw [Nat.succ_mul]
        omega
  | ended hlate hidle => exact .ended (by omega) fun heq => by omega

section Finite

variable (hn : n ≠ 0#32) (hs : r.StartsTrain t)
include hn hs

lemma stage_of_start (hu : t + 3 ≤ u) : r.Stage w p n (t + 3) u := by
  refine invariant_between (P := fun u => r.Stage w p n (t + 3) u) (b := u) ?_
    (fun x _ _ hstage => hstage.succ h hw hp hn) hu le_rfl
  obtain ⟨hidle, hstart⟩ := hs.idle_two
  have hbegin := train_of_start hidle hstart ((h.nPulses (t + 2)).trans_ne hn)
  rw [← r.regs_succ] at hbegin
  exact .hold 0 0 hbegin (toNat_pos hw) (toNat_pos hn) (by omega)

lemma idle_after_lastHigh : r.state (lastHigh w p n (t + 3) + 1) = .idle := by
  have hpos := toNat_pos hw
  have hle : t + 3 ≤ lastHigh w p n (t + 3) + 1 := by
    unfold lastHigh
    omega
  have hlast : ∀ j, j + 1 ≤ n.toNat → j * (w.toNat + p.toNat) ≤
      (n.toNat - 1) * (w.toNat + p.toNat) := fun j hj => Nat.mul_le_mul_right _ (by omega)
  cases stage_of_start h hw hp hn hs hle with
  | hold j k htrain hk hj hu =>
      have hmul := hlast j hj
      unfold lastHigh at hu
      omega
  | wait j k htrain hk hj hu =>
      have hmul := hlast (j + 1) hj
      rw [Nat.succ_mul] at hmul
      unfold lastHigh at hu
      omega
  | ended _ hidle => exact hidle rfl

/-- A finite train: its pulses, and then none before the next edge. -/
lemma finite_train (htu : t < u)
    (hrise : ∀ v, lastHigh w p n (t + 3) ≤ v → v + 1 < u → ¬ Rises r.runPulses v) :
    r.out u = true ↔ ∃ j < n.toNat, InPulse w p (t + 3) j u := by
  have hpos := toNat_pos hw
  rcases Nat.lt_or_ge u (t + 3) with hearly | hlate
  · rw [hs.out_of_lt htu hearly]
    refine iff_of_false Bool.false_ne_true ?_
    rintro ⟨j, -, hge, -⟩
    omega
  cases stage_of_start h hw hp hn hs hlate with
  | hold j k htrain hk hj hu =>
      refine iff_of_true ?_ ⟨j, hj, (inPulse_iff_eq hk hu).mpr rfl⟩
      exact out_iff.mpr ⟨h.ena u, .inl (state_of_train htrain)⟩
  | wait j k htrain hk hj hu =>
      refine iff_of_false ?_ ?_
      · rw [out_iff, state_of_train htrain]
        simp
      · rintro ⟨g, -, hg⟩
        exact not_inPulse_of_inGap (inGap_of_eq hk hu) hg
  | ended hlate hidle =>
      obtain ⟨x, hx⟩ := Nat.exists_eq_add_of_le' (show 2 ≤ lastHigh w p n (t + 3) + 1 by
        unfold lastHigh
        omega)
      have hend := idle_after_lastHigh h hw hp hn hs
      rw [hx] at hend
      have hidle := idle_of_no_rise hend (by omega) fun v hv hvu => hrise v (by omega) hvu
      refine iff_of_false ?_ ?_
      · rw [out_of_idle hidle]
        exact Bool.false_ne_true
      · rintro ⟨g, hg, hpulse⟩
        exact not_inPulse_of_late hlate hg hpulse

end Finite

/-! ## An infinite train -/

/-- Where an infinite train is in cycle `u`. -/
inductive Round (r : Run) (w p : BitVec 32) (a u : ℕ) : Prop
  | hold (j k : ℕ) (c : BitVec 32) :
      (r.regs u).train = (.infCalPulseHold, BitVec.ofNat 32 k, c) →
      k < w.toNat → u = a + j * (w.toNat + p.toNat) + k → Round r w p a u
  | wait (j k : ℕ) (c : BitVec 32) :
      (r.regs u).train = (.infCalPulseWait, BitVec.ofNat 32 k, c) →
      k < p.toNat → u = a + j * (w.toNat + p.toNat) + w.toNat + k → Round r w p a u

omit hw hp in
lemma Round.out_iff (hround : r.Round w p a u) :
    r.out u = true ↔ ∃ j, InPulse w p a j u := by
  cases hround with
  | hold j k c htrain hk hu =>
      refine iff_of_true ?_ ⟨j, (inPulse_iff_eq hk hu).mpr rfl⟩
      exact Run.out_iff.mpr ⟨h.ena u, .inr (state_of_train htrain)⟩
  | wait j k c htrain hk hu =>
      refine iff_of_false ?_ ?_
      · rw [Run.out_iff, state_of_train htrain]
        simp
      · rintro ⟨g, hg⟩
        exact not_inPulse_of_inGap (inGap_of_eq hk hu) hg

/-- A train goes on, but for a gap in which `run_pulses` is low. -/
lemma Round.succ (hround : r.Round w p a u)
    (hrun : ∀ j, InGap w p a j u → r.runPulses u = true) : r.Round w p a (u + 1) := by
  cases hround with
  | hold j k c htrain hk hu =>
      have hnext := train_of_infHold (i := r.inp u) htrain
      rw [← r.regs_succ u, h.width u, ofNat_succ] at hnext
      by_cases hlast : k + 1 = w.toNat
      · rw [if_pos ((ofNat_ge_sub_one_iff hw hk).mpr hlast)] at hnext
        exact .wait j 0 c hnext (toNat_pos hp) (by omega)
      · rw [if_neg (mt (ofNat_ge_sub_one_iff hw hk).mp hlast)] at hnext
        exact .hold j (k + 1) c hnext (by omega) (by omega)
  | wait j k c htrain hk hu =>
      have hnext := train_of_infWait htrain (hrun j (inGap_of_eq hk hu))
      rw [← r.regs_succ u, h.wait u, ofNat_succ] at hnext
      by_cases hlast : k + 1 = p.toNat
      · rw [if_pos ((ofNat_ge_sub_one_iff hp hk).mpr hlast)] at hnext
        refine .hold (j + 1) 0 c hnext (toNat_pos hw) ?_
        rw [Nat.succ_mul]
        omega
      · rw [if_neg (mt (ofNat_ge_sub_one_iff hp hk).mp hlast)] at hnext
        exact .wait j (k + 1) c hnext (by omega) (by omega)

section Infinite

variable (hn : n = 0#32) (hs : r.StartsTrain t)
include hn hs

lemma round_of_start (hu : t + 3 ≤ u)
    (hrun : ∀ g < u, ∀ j, InGap w p (t + 3) j g → r.runPulses g = true) :
    r.Round w p (t + 3) u := by
  refine invariant_between (P := fun u => r.Round w p (t + 3) u) (b := u) ?_
    (fun x _ hxu hround => hround.succ h hw hp (hrun x hxu)) hu le_rfl
  obtain ⟨hidle, hstart⟩ := hs.idle_two
  have hbegin := train_of_infStart hidle hstart ((h.nPulses (t + 2)).trans hn)
  rw [← r.regs_succ] at hbegin
  exact .hold 0 0 _ hbegin (toNat_pos hw) (by omega)

/-- An infinite train: its pulses, as long as `run_pulses` is high in its gaps. -/
lemma infinite_train (htu : t < u)
    (hrun : ∀ g < u, ∀ j, InGap w p (t + 3) j g → r.runPulses g = true) :
    r.out u = true ↔ ∃ j, InPulse w p (t + 3) j u := by
  rcases Nat.lt_or_ge u (t + 3) with hearly | hlate
  · rw [hs.out_of_lt htu hearly]
    refine iff_of_false Bool.false_ne_true ?_
    rintro ⟨j, hge, -⟩
    omega
  · exact (round_of_start h hw hp hn hs hlate hrun).out_iff h

/-- It ends in the first cycle of a gap in which `run_pulses` is low. -/
lemma infinite_train_stopped (hgap : InGap w p (t + 3) j g) (hlow : r.runPulses g = false)
    (hrun : ∀ g' < g, ∀ j, InGap w p (t + 3) j g' → r.runPulses g' = true) (hgu : g ≤ u)
    (hrise : ∀ v, g < v → v + 1 < u → ¬ Rises r.runPulses v) : r.out u = false := by
  have hle : t + 3 ≤ g := by
    have hge := hgap.1
    omega
  have hround := round_of_start h hw hp hn hs hle hrun
  have hwait : r.state g = .infCalPulseWait := by
    cases hround with
    | hold i k c htrain hk hu =>
        exact absurd ((inPulse_iff_eq hk hu).mpr rfl) (not_inPulse_of_inGap hgap)
    | wait i k c htrain => exact state_of_train htrain
  have hidle : r.state (g + 1) = .idle := idle_of_infCalPulseWait hwait hlow
  obtain rfl | rfl | hlate : u = g ∨ u = g + 1 ∨ g + 2 ≤ u := by omega
  · rw [← Bool.not_eq_true, Run.out_iff, hwait]
    simp
  · exact out_of_idle hidle
  · have hidle' : r.state (g + 2) = .idle := by
      refine idle_succ hidle (Bool.eq_false_of_not_eq_true fun hstart => ?_)
      rw [startCalPulses_succ, Bool.and_eq_true] at hstart
      exact absurd (hstart.2.symm.trans hlow) (by decide)
    exact out_of_idle (idle_of_no_rise hidle' hlate hrise)

end Infinite

end Constant

/-- **The pulses of a start.**  After a rising edge of `run_pulses` in `IDLE` the output is high
exactly in the `n` pulses, and then low until `run_pulses` rises in the last high cycle or later; or
else, without a number of pulses, exactly in the pulses up to the first cycle of a gap in which
`run_pulses` is low, and then low until `run_pulses` rises again. -/
theorem pulse_train (h : r.Constant w p n) (hw : w ≠ 0#32) (hp : p ≠ 0#32)
    (hs : r.StartsTrain t) :
    (n ≠ 0#32 → ∀ u, t < u →
      (∀ v, lastHigh w p n (t + 3) ≤ v → v + 1 < u → ¬ Rises r.runPulses v) →
        (r.out u = true ↔ ∃ j < n.toNat, InPulse w p (t + 3) j u)) ∧
    (n = 0#32 →
      (∀ u, t < u → (∀ g < u, ∀ j, InGap w p (t + 3) j g → r.runPulses g = true) →
        (r.out u = true ↔ ∃ j, InPulse w p (t + 3) j u)) ∧
      ∀ g j, InGap w p (t + 3) j g → r.runPulses g = false →
        (∀ g' < g, ∀ j, InGap w p (t + 3) j g' → r.runPulses g' = true) →
          ∀ u, g ≤ u → (∀ v, g < v → v + 1 < u → ¬ Rises r.runPulses v) → r.out u = false) := by
  refine ⟨fun hn u htu hrise => finite_train h hw hp hn hs htu hrise, fun hn => ⟨?_, ?_⟩⟩
  · exact fun u htu hrun => infinite_train h hw hp hn hs htu hrun
  · exact fun g j hgap hlow hrun u hgu hrise =>
      infinite_train_stopped h hw hp hn hs hgap hlow hrun hgu hrise

/-- Two pulses of ten cycles with gaps of four, from an edge in cycle `1`. -/
def twoPulses : Run where
  start := .reset
  inp t :=
    { runPulses := decide (t = 1), calPulseEna := true, vataTriggerEna := false
      calPulseWidth := 10#32, triggerDelay := 5#32, nPulsesIn := 2#32, pulseWait := 4#32 }

/-- The second pulse of `twoPulses` begins in cycle `17`. -/
theorem twoPulses_second : twoPulses.out 17 = true := by
  refine ((pulse_train (w := 10#32) (p := 4#32) (n := 2#32) (t := 0)
    ⟨fun _ => rfl, fun _ => rfl, fun _ => rfl, fun _ => rfl⟩ (by decide) (by decide)
    ⟨rfl, rfl, rfl⟩).1 (by decide) 17 (by decide) ?_).mpr ⟨1, by decide, by decide, by decide⟩
  intro v hv hv17
  have hlast : lastHigh 10#32 4#32 2#32 (0 + 3) = 26 := rfl
  omega

end TrackerFpga.Cal.Run
