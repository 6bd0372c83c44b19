import TrackerFpga.Cal.Fsm
import Mathlib.Tactic.Ring

/-!
# A train of pulses

With the settings held, a finite train is a clock: pulse `j` of it begins `j * (w + p)` cycles
after the first, lasts for `w` cycles and is followed by a gap of `p` (`Place`).  So when the train
is over, all its pulses were sent (`pulses_of_train`), and it is over `(n - 1) * (w + p) + w` cycles
after it has begun (`not_running_of_late`).
-/

namespace TrackerFpga.Cal.Run

variable {r : Run} {w p n : BitVec 32} {a e t : ℕ}

/-- From cycle `a` to cycle `e` pulses are enabled, the settings stay as they are, and the machine
is not asked to start. -/
structure Held (r : Run) (w p n : BitVec 32) (a e : ℕ) : Prop where
  ena : ∀ t, a ≤ t → t ≤ e → (r.inp t).calPulseEna = true
  width : ∀ t, a ≤ t → t ≤ e → (r.inp t).calPulseWidth = w
  wait : ∀ t, a ≤ t → t ≤ e → (r.inp t).pulseWait = p
  nPulses : ∀ t, a ≤ t → t ≤ e → (r.inp t).nPulsesIn = n
  start : ∀ t, a ≤ t → t ≤ e → (r.regs t).startCalPulses = false

/-- Where a train of `n` pulses that begins in cycle `a` is in cycle `t`: in pulse `j`, in the gap
after it, or at its end. -/
inductive Place (r : Run) (w p n : BitVec 32) (a t : ℕ) : Prop
  | hold (j k : ℕ) :
      (r.regs t).train = (.calPulseHold, BitVec.ofNat 32 k, BitVec.ofNat 32 j) →
      k < w.toNat → j < n.toNat → t = a + j * (w.toNat + p.toNat) + k → r.pulses a t = j →
      Place r w p n a t
  | wait (j k : ℕ) :
      (r.regs t).train = (.calPulseWait, BitVec.ofNat 32 k, BitVec.ofNat 32 (j + 1)) →
      k < p.toNat → j + 1 < n.toNat → t = a + j * (w.toNat + p.toNat) + w.toNat + k →
      r.pulses a t = j + 1 → Place r w p n a t
  | passed : r.state t = .idle → a + (n.toNat - 1) * (w.toNat + p.toNat) + w.toNat ≤ t →
      r.pulses a t = n.toNat → Place r w p n a t

lemma toNat_pos {x : BitVec 32} (hx : x ≠ 0#32) : 0 < x.toNat :=
  Nat.pos_of_ne_zero fun h => hx (BitVec.eq_of_toNat_eq h)

/-- What a counter is compared with. -/
lemma ofNat_ge_sub_one_iff {x : BitVec 32} {k : ℕ} (hx : x ≠ 0#32) (hk : k < x.toNat) :
    BitVec.ofNat 32 k ≥ x - 1#32 ↔ k + 1 = x.toNat := by
  have hlt := x.isLt
  have hone : 1#32 ≤ x := toNat_pos hx
  have hvalue : (BitVec.ofNat 32 k).toNat = k := Nat.mod_eq_of_lt (by omega)
  rw [ge_iff_le, BitVec.le_def, BitVec.toNat_sub_of_le hone, hvalue]
  show x.toNat - 1 ≤ k ↔ k + 1 = x.toNat
  omega

section Next

variable {i : Input} {s : Regs} {j k : ℕ}

lemma ofNat_succ (k : ℕ) : BitVec.ofNat 32 k + 1#32 = BitVec.ofNat 32 (k + 1) :=
  (BitVec.ofNat_add k 1).symm

/-- Cycle `k` of pulse `j` is followed by the next one, by the gap or by the end of the train. -/
lemma hold_next (hwidth : i.calPulseWidth = w) (hnPulses : i.nPulsesIn = n) (hw : w ≠ 0#32)
    (hn : n ≠ 0#32) (hk : k < w.toNat) (hj : j < n.toNat)
    (h : s.train = (.calPulseHold, BitVec.ofNat 32 k, BitVec.ofNat 32 j)) :
    (k + 1 < w.toNat ∧
        (step i s).train = (.calPulseHold, BitVec.ofNat 32 (k + 1), BitVec.ofNat 32 j)) ∨
      (k + 1 = w.toNat ∧ j + 1 < n.toNat ∧
        (step i s).train = (.calPulseWait, 0#32, BitVec.ofNat 32 (j + 1))) ∨
      (k + 1 = w.toNat ∧ j + 1 = n.toNat ∧ (step i s).currentState = .idle) := by
  have hnext := train_of_hold (i := i) h
  rw [hwidth, hnPulses, ofNat_succ, ofNat_succ] at hnext
  by_cases hlast : k + 1 = w.toNat
  · rw [if_pos ((ofNat_ge_sub_one_iff hw hk).mpr hlast)] at hnext
    by_cases hall : j + 1 = n.toNat
    · rw [if_pos ((ofNat_ge_sub_one_iff hn hj).mpr hall)] at hnext
      exact .inr (.inr ⟨hlast, hall, congrArg Prod.fst hnext⟩)
    · rw [if_neg (mt (ofNat_ge_sub_one_iff hn hj).mp hall)] at hnext
      exact .inr (.inl ⟨hlast, by omega, hnext⟩)
  · rw [if_neg (mt (ofNat_ge_sub_one_iff hw hk).mp hlast)] at hnext
    exact .inl ⟨by omega, hnext⟩

/-- Cycle `k` of a gap is followed by the next one or by a pulse. -/
lemma wait_next {c : BitVec 32} (hwait : i.pulseWait = p) (hp : p ≠ 0#32) (hk : k < p.toNat)
    (h : s.train = (.calPulseWait, BitVec.ofNat 32 k, c)) :
    (k + 1 < p.toNat ∧ (step i s).train = (.calPulseWait, BitVec.ofNat 32 (k + 1), c)) ∨
      (k + 1 = p.toNat ∧ (step i s).train = (.calPulseHold, 0#32, c)) := by
  have hnext := train_of_wait (i := i) h
  rw [hwait, ofNat_succ] at hnext
  by_cases hlast : k + 1 = p.toNat
  · rw [if_pos ((ofNat_ge_sub_one_iff hp hk).mpr hlast)] at hnext
    exact .inr ⟨hlast, hnext⟩
  · rw [if_neg (mt (ofNat_ge_sub_one_iff hp hk).mp hlast)] at hnext
    exact .inl ⟨by omega, hnext⟩

end Next

section Step

variable (hheld : r.Held w p n a e)
include hheld

lemma Held.out_iff (hat : a ≤ t) (hte : t ≤ e) :
    r.out t = true ↔ r.state t = .calPulseHold ∨ r.state t = .infCalPulseHold := by
  rw [Run.out_iff, hheld.ena t hat hte]
  simp

/-- A pulse of a train ends where the state is left. -/
lemma Held.pulses_succ (hat : a ≤ t) (hte : t < e)
    (hnext : r.state (t + 1) ≠ .infCalPulseHold) :
    r.pulses a (t + 1) = r.pulses a t +
      if r.state t = .calPulseHold ∧ r.state (t + 1) ≠ .calPulseHold then 1 else 0 := by
  have hends : r.PulseEnds t ↔ r.state t = .calPulseHold ∧ r.state (t + 1) ≠ .calPulseHold := by
    have hnow := hheld.out_iff hat hte.le
    have hthen := hheld.out_iff (t := t + 1) (by omega) hte
    unfold PulseEnds
    rw [← Bool.not_eq_true, hnow, hthen]
    constructor
    · rintro ⟨hstate, -, hno⟩
      exact ⟨hstate, fun h => hno (.inl h)⟩
    · rintro ⟨hstate, hno⟩
      exact ⟨hstate, .inl hstate, fun h => h.elim hno hnext⟩
  rw [Run.pulses_succ hat]
  simp only [hends]

variable (hw : w ≠ 0#32) (hp : p ≠ 0#32) (hn : n ≠ 0#32)
include hw hp hn

/-- What one cycle does to a train. -/
lemma Place.succ (hat : a ≤ t) (hte : t < e) (h : r.Place w p n a t) :
    r.Place w p n a (t + 1) := by
  have hwidth := hheld.width t hat hte.le
  have hwait := hheld.wait t hat hte.le
  have hnPulses := hheld.nPulses t hat hte.le
  have hcount : ∀ {s s' : State}, r.state t = s → r.state (t + 1) = s' →
      s' ≠ .infCalPulseHold → r.pulses a (t + 1) =
        r.pulses a t + if s = .calPulseHold ∧ s' ≠ .calPulseHold then 1 else 0 := by
    rintro s s' rfl rfl hne
    exact hheld.pulses_succ hat hte hne
  cases h with
  | hold j k htrain hk hj ht hpulses =>
      have hstate : r.state t = .calPulseHold := state_of_train htrain
      have hnext := hold_next hwidth hnPulses hw hn hk hj htrain
      rw [← r.regs_succ t] at hnext
      rcases hnext with ⟨hmore, hnext⟩ | ⟨hlast, hmore, hnext⟩ | ⟨hlast, hall, hnext⟩
      · refine .hold j (k + 1) hnext hmore hj (by omega) ?_
        rw [hcount hstate (state_of_train hnext) (by decide), hpulses, if_neg (by decide),
          Nat.add_zero]
      · refine .wait j 0 hnext (toNat_pos hp) hmore (by omega) ?_
        rw [hcount hstate (state_of_train hnext) (by decide), hpulses, if_pos (by decide)]
      · refine .passed hnext ?_ ?_
        · rw [show n.toNat - 1 = j by omega]
          omega
        · rw [hcount hstate hnext (by decide), hpulses, if_pos (by decide), hall]
  | wait j k htrain hk hj ht hpulses =>
      have hstate : r.state t = .calPulseWait := state_of_train htrain
      have hnext := wait_next hwait hp hk htrain
      rw [← r.regs_succ t] at hnext
      rcases hnext with ⟨hmore, hnext⟩ | ⟨hlast, hnext⟩
      · refine .wait j (k + 1) hnext hmore hj (by omega) ?_
        rw [hcount hstate (state_of_train hnext) (by decide), hpulses, if_neg (by decide),
          Nat.add_zero]
      · refine .hold (j + 1) 0 hnext (toNat_pos hw) hj ?_ ?_
        · rw [Nat.succ_mul]
          omega
        · rw [hcount hstate (state_of_train hnext) (by decide), hpulses, if_neg (by decide),
            Nat.add_zero]
  | passed hstate ht hpulses =>
      have hstate' : r.state (t + 1) = .idle := idle_succ hstate (hheld.start t hat hte.le)
      refine .passed hstate' (by omega) ?_
      rw [hcount hstate hstate' (by decide), hpulses, if_neg (by decide), Nat.add_zero]

/-- A train stays on its way. -/
lemma place_of_train (hbegin : (r.regs a).train = (.calPulseHold, 0#32, 0#32)) (hat : a ≤ t)
    (hte : t ≤ e) : r.Place w p n a t :=
  Clocked.invariant_between (P := fun t => r.Place w p n a t) (b := e)
    (.hold 0 0 hbegin (toNat_pos hw) (toNat_pos hn) (by omega) pulses_self)
    (fun _ hau hue hplace => hplace.succ hheld hw hp hn hau hue) hat hte

/-- **All the pulses.**  When a train is over, it has sent its pulses. -/
lemma pulses_of_train (hbegin : (r.regs a).train = (.calPulseHold, 0#32, 0#32)) (hat : a ≤ t)
    (hte : t ≤ e) (hover : ¬ r.Running t) : r.pulses a t = n.toNat := by
  cases place_of_train hheld hw hp hn hbegin hat hte with
  | hold j k htrain => exact absurd (.inl (state_of_train htrain)) hover
  | wait j k htrain => exact absurd (.inr (state_of_train htrain)) hover
  | passed hstate ht hpulses => exact hpulses

/-- A train ends. -/
lemma not_running_of_late (hbegin : (r.regs a).train = (.calPulseHold, 0#32, 0#32))
    (hlate : a + (n.toNat - 1) * (w.toNat + p.toNat) + w.toNat ≤ t) (hte : t ≤ e) :
    ¬ r.Running t := by
  have hbound : ∀ j, j + 1 ≤ n.toNat →
      j * (w.toNat + p.toNat) ≤ (n.toNat - 1) * (w.toNat + p.toNat) := fun j hj =>
    Nat.mul_le_mul_right _ (by omega)
  cases place_of_train hheld hw hp hn hbegin (by omega) hte with
  | hold j k htrain hk hj ht =>
      have hjle := hbound j hj
      omega
  | wait j k htrain hk hj ht =>
      have hjle := hbound (j + 1) hj
      rw [Nat.succ_mul] at hjle
      omega
  | passed hstate =>
      rintro (h | h)
      · exact absurd (hstate.symm.trans h) (by decide)
      · exact absurd (hstate.symm.trans h) (by decide)

end Step

end TrackerFpga.Cal.Run
