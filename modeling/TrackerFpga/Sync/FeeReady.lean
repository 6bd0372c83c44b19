import TrackerFpga.Vata.DeadTime
import TrackerFpga.Sync.Distn
import TrackerFpga.Sync.StayHigh

/-!
# `FEE_ready` announces the end of a dead time

The distributor tells the trigger module by `FEE_busy` that some enabled core is busy, and stretches
the end of it to a pulse of five cycles on `FEE_ready`.  The stretcher does not see an edge that
comes while its pulse lasts.  No such edge comes: a core that is back in `IDLE` was busy for ten
cycles, so two ends of `FEE_busy` are more than ten cycles apart (`busy_before_fall`), and each is
announced once (`feeReady_announces`).
-/

namespace TrackerFpga.Sync.Run

open Clocked Vata

variable {N : ℕ} {r : Run N} {mask : BitVec 32} {t f x : ℕ}

/-- `FEE_busy` in cycle `t`. -/
def feeBusy (r : Run N) (t : ℕ) : Bool := Sync.feeBusy (r.inp t) (r.regs t)

/-- `FEE_ready`, which `fee_ready_stay_high_inst` makes with `N_CYCLES = 5` and
`N_CYCLES_WIDTH = 4` of `not FEE_busy`. -/
def feeReady (r : Run N) : ℕ → Bool := StayHigh.out 4 5 fun t => !r.feeBusy t

/-- The register `disable_hits` holds one mask, and a port without a core is tied low. -/
structure Wired (r : Run N) (mask : BitVec 32) : Prop where
  disableHits : ∀ t, (r.inp t).disableHits = mask
  openPorts : ∀ t n, N ≤ n.val → (r.inp t).openPorts n = 0#2

/-- `FEE_ready` announces the end of every dead time: it rises once from one fall of `FEE_busy` to
the next; a pulse lasts for five cycles; and one begins in the second cycle after a fall and after
the reset, and at no other time. -/
structure Announces (r : Run N) : Prop where
  once : ∀ f f', Falls r.feeBusy f → Falls r.feeBusy f' → f < f' →
    (∀ u, f < u → u < f' → ¬ Falls r.feeBusy u) → ∃! x, f < x ∧ x < f' ∧ Rises r.feeReady x
  lasts : ∀ x, Rises r.feeReady x →
    (∀ k < 5, r.feeReady (x + k) = true) ∧ r.feeReady (x + 5) = false
  begins : ∀ x, Rises r.feeReady x ↔ x = 2 ∨ ∃ f, Falls r.feeBusy f ∧ x = f + 2

/-! ## The cores by themselves -/

/-- Core `n` as a run of its own interface. -/
def core (r : Run N) (n : Fin N) : Vata.Run where
  start := r.start.cores n
  inp t := coreInput (r.inp t) (r.regs t) n

lemma core_regs (r : Run N) (n : Fin N) (t : ℕ) : (r.core n).regs t = (r.regs t).cores n := by
  induction t with
  | zero => rfl
  | succ t ih =>
      rw [Vata.Run.regs_succ, ih]
      rfl

lemma core_idle_iff {n : Fin N} : (r.core n).Idle t ↔ r.state n t = .idle := by
  rw [Vata.Run.Idle, core_regs, state]

lemma core_idle_zero (hr : r.FromReset) (n : Fin N) : (r.core n).Idle 0 :=
  core_idle_iff.mpr (state_zero hr n)

/-! ## The dead time -/

/-- `FEE_busy` is high while an enabled core is not in `IDLE`. -/
lemma feeBusy_iff (hw : r.Wired mask) : r.feeBusy t = true ↔
    ∃ n : Fin N, n.val < 12 ∧ mask.getLsbD n = false ∧ ¬ (r.core n).Idle t := by
  have hline : ∀ m : Fin 12, Sync.vataBusy (r.inp t) (r.regs t) m = true ↔
      ∃ n : Fin N, n.val = m.val ∧ mask.getLsbD n = false ∧ ¬ (r.core n).Idle t := by
    intro m
    rw [Sync.vataBusy, hw.disableHits]
    by_cases hm : m.val < N
    · have hport := vataHitBusy_busy (r.inp t) (r.regs t) (n := ⟨m.val, hm⟩) m.isLt
      have hbusy : Vata.vataBusy ((r.regs t).cores ⟨m.val, hm⟩) = true ↔
          ¬ (r.core ⟨m.val, hm⟩).Idle t := by
        rw [core_idle_iff, state, Vata.vataBusy]
        simp
      rw [hport, Bool.and_eq_true, hbusy, Bool.not_eq_true', and_comm]
      refine ⟨fun h => ⟨⟨m.val, hm⟩, rfl, h⟩, ?_⟩
      rintro ⟨n, hn, h⟩
      obtain rfl : n = ⟨m.val, hm⟩ := Fin.ext hn
      exact h
    · have hlow : (vataHitBusy (r.inp t) (r.regs t) m).getLsbD 0 = false := by
        rw [vataHitBusy, dif_neg hm, hw.openPorts t m (by omega)]
        decide
      rw [hlow, Bool.false_and]
      refine ⟨fun h => absurd h (by decide), ?_⟩
      rintro ⟨n, hn, -⟩
      have hlt := n.isLt
      omega
  rw [feeBusy, Sync.feeBusy, List.any_eq_true]
  constructor
  · rintro ⟨m, -, hm⟩
    obtain ⟨n, hn, h⟩ := (hline m).mp hm
    exact ⟨n, hn ▸ m.isLt, h⟩
  · rintro ⟨n, hn, h⟩
    exact ⟨⟨n, hn⟩, List.mem_finRange _, (hline ⟨n, hn⟩).mpr ⟨n, rfl, h⟩⟩

/-- **A dead time lasts.**  Where `FEE_busy` falls it was high for ten cycles. -/
lemma busy_before_fall (hr : r.FromReset) (hw : r.Wired mask) (hf : Falls r.feeBusy f) :
    ∀ j, 0 < j → j ≤ 10 → j ≤ f ∧ r.feeBusy (f - j) = true := by
  intro j hpos hj
  obtain ⟨hlow, hf0, hhigh⟩ := hf
  obtain ⟨t, rfl⟩ : ∃ t, f = t + 1 := ⟨f - 1, by omega⟩
  obtain ⟨n, hn, hena, hbusy⟩ := (feeBusy_iff hw).mp hhigh
  -- the core that was busy until now is in `IDLE`
  have hidle : (r.core n).Idle (t + 1) := by
    by_contra hnext
    rw [(feeBusy_iff hw).mpr ⟨n, hn, hena, hnext⟩] at hlow
    exact absurd hlow (by decide)
  obtain ⟨i, rfl⟩ : ∃ i, j = i + 1 := ⟨j - 1, by omega⟩
  obtain ⟨hi, hbefore⟩ :=
    Vata.Run.not_idle_before (core_idle_zero hr n) hbusy hidle i (by omega)
  refine ⟨by omega, ?_⟩
  rw [Nat.add_sub_add_right]
  exact (feeBusy_iff hw).mpr ⟨n, hn, hena, hbefore⟩

lemma feeBusy_zero (hr : r.FromReset) (hw : r.Wired mask) : r.feeBusy 0 = false := by
  rw [← Bool.not_eq_true, feeBusy_iff hw]
  rintro ⟨n, -, -, hbusy⟩
  exact hbusy (core_idle_zero hr n)

/-- What the stretcher takes for an edge is the end of a dead time, or of the reset. -/
lemma rises_not_feeBusy (hr : r.FromReset) (hw : r.Wired mask) :
    Rises (fun t => !r.feeBusy t) f ↔ f = 0 ∨ Falls r.feeBusy f := by
  rw [rises_not_iff, and_iff_left (feeBusy_zero hr hw)]

/-- No edge comes while the pulse of another one lasts. -/
lemma edges_apart (hr : r.FromReset) (hw : r.Wired mask) : ∀ f f',
    Rises (fun t => !r.feeBusy t) f → Rises (fun t => !r.feeBusy t) f' → f < f' → f + 5 < f' := by
  intro f f' hf hf' hlt
  have hlow : r.feeBusy f = false := by simpa using hf.1
  rcases (rises_not_feeBusy hr hw).mp hf' with rfl | hfall
  · omega
  · by_contra hnear
    have hbusy := (busy_before_fall hr hw hfall (f' - f) (by omega) (by omega)).2
    rw [Nat.sub_sub_self hlt.le, hlow] at hbusy
    exact absurd hbusy (by decide)

lemma rises_feeReady_iff (hr : r.FromReset) (hw : r.Wired mask) :
    Rises r.feeReady x ↔ x = 2 ∨ ∃ f, Falls r.feeBusy f ∧ x = f + 2 := by
  refine (StayHigh.rises_out_iff (by decide) (by decide) (edges_apart hr hw)).trans ?_
  simp only [rises_not_feeBusy hr hw, or_and_right, exists_or, exists_eq_left, zero_add]

/-- **`FEE_ready`.**  In every run from reset, whatever its cores do and whatever the mask, each
dead time ends with one pulse on `FEE_ready`. -/
theorem feeReady_announces (hr : r.FromReset) (hw : r.Wired mask) : r.Announces where
  once f f' hf hf' hlt hnone := by
    have hfar := edges_apart hr hw f f' ((rises_not_feeBusy hr hw).mpr (.inr hf))
      ((rises_not_feeBusy hr hw).mpr (.inr hf')) hlt
    refine ⟨f + 2, ⟨by omega, by omega, (rises_feeReady_iff hr hw).mpr (.inr ⟨f, hf, rfl⟩)⟩, ?_⟩
    rintro x ⟨hfx, hxf, hx⟩
    rcases (rises_feeReady_iff hr hw).mp hx with rfl | ⟨g, hg, rfl⟩
    · -- the pulse after reset is over before `FEE_busy` falls first
      have hlate := (busy_before_fall hr hw hf 10 (by decide) le_rfl).1
      omega
    · have hle : g ≤ f := Nat.not_lt.mp fun hlt => hnone g hlt (by omega) hg
      rcases hle.lt_or_eq with hbefore | rfl
      · have hapart := edges_apart hr hw g f ((rises_not_feeBusy hr hw).mpr (.inr hg))
          ((rises_not_feeBusy hr hw).mpr (.inr hf)) hbefore
        omega
      · rfl
  lasts x hx := StayHigh.out_of_rises (by decide) (by decide) hx
  begins x := rises_feeReady_iff hr hw

/-- One core that is given a configuration command in the cycles `3` and `40` and forced back to
`IDLE` both times. -/
def commandsForced : Run 1 where
  start := { cores := fun _ => Regs.reset 0#12 0#520, control := .reset }
  inp t :=
    { cores := fun _ =>
        { Input.quiet with setConfig := decide (t = 3 ∨ t = 40), forceFsmIdle := true }
      openPorts := fun _ => 0#2
      disableHits := 0#32
      globalHitEna := true
      axiAwaddr := 0#5
      axiWdata := 0#32
      axiWready := false }

/-- The dead time of the first command ends in cycle `25`, and is announced in cycle `27`. -/
theorem commandsForced_ready : Rises commandsForced.feeReady 27 := by
  have hr : commandsForced.FromReset := ⟨⟨0#12, fun _ => ⟨0#520, rfl⟩⟩, rfl⟩
  have hw : commandsForced.Wired 0#32 := ⟨fun _ => rfl, fun _ _ _ => rfl⟩
  have hfall : Falls commandsForced.feeBusy 25 :=
    ⟨by decide +kernel, by decide, by decide +kernel⟩
  exact ((feeReady_announces hr hw).begins 27).mpr (.inr ⟨25, hfall, rfl⟩)

end TrackerFpga.Sync.Run
