import TrackerFpga.Lib.Clocked

/-!
# `stay_high_n_cycles`

The pulse stretcher of the distributor, translated from `stay_high_n_cycles.vhd` with its generics
`N_CYCLES` and `N_CYCLES_WIDTH`.  It makes a pulse of `N_CYCLES` cycles out of a rising edge, which
it sees one cycle later, and only when no pulse is under way (`stretches`).  So when its edges are
more than `N_CYCLES` cycles apart, each of them makes a pulse (`rises_out_iff`).
-/

namespace TrackerFpga.Sync

open Clocked

/-- The states of `stay_high_n_cycles`. -/
inductive StayHighState
  | idle
  | high
  deriving DecidableEq, Repr

/-- The registers of `stay_high_n_cycles`, with `N_CYCLES_WIDTH = W`. -/
structure StayHigh (W : ℕ) where
  currentState : StayHighState
  counter : BitVec W
  lastDataIn : Bool
  dataInRisingEdge : Bool
  deriving DecidableEq, Repr

variable {W : ℕ}

namespace StayHigh

/-- The registers under `rst_n = '0'`. -/
def reset : StayHigh W where
  currentState := .idle
  counter := 0#W
  lastDataIn := false
  dataInRisingEdge := false

/-- `COUNTER_MAX`, with `N_CYCLES = N`. -/
def counterMax (W N : ℕ) : BitVec W := BitVec.ofNat W (N - 1)

/-- The signals of the next-state process. -/
structure Control where
  nextState : StayHighState
  counterClr : Bool := false
  deriving DecidableEq, Repr

/-- The next-state process. -/
def control (N : ℕ) (s : StayHigh W) : Control :=
  match s.currentState with
  | .idle =>
      if s.dataInRisingEdge then { nextState := .high, counterClr := true }
      else { nextState := .idle }
  | .high =>
      if s.counter ≥ counterMax W N then { nextState := .idle } else { nextState := .high }

/-- `counter_ena`. -/
def counterEna (s : StayHigh W) : Bool :=
  match s.currentState with
  | .idle => false
  | .high => true

/-- `data_out`. -/
def dataOut (s : StayHigh W) : Bool :=
  match s.currentState with
  | .idle => false
  | .high => true

/-- One clock cycle. -/
def step (N : ℕ) (dataIn : Bool) (s : StayHigh W) : StayHigh W :=
  let c := control N s
  { currentState := c.nextState
    counter :=
      if c.counterClr then 0#W else if s.counterEna then s.counter + 1#W else s.counter
    lastDataIn := dataIn
    dataInRisingEdge := !s.lastDataIn && dataIn }

section Step

variable {N : ℕ} {dataIn : Bool} {s : StayHigh W}

lemma step_of_idle (h : s.currentState = .idle) : step N dataIn s =
    { currentState := if s.dataInRisingEdge then .high else .idle
      counter := if s.dataInRisingEdge then 0#W else s.counter
      lastDataIn := dataIn
      dataInRisingEdge := !s.lastDataIn && dataIn } := by
  unfold step control counterEna
  rw [h]
  cases s.dataInRisingEdge <;> rfl

lemma step_of_high (h : s.currentState = .high) : step N dataIn s =
    { currentState := if s.counter ≥ counterMax W N then .idle else .high
      counter := s.counter + 1#W
      lastDataIn := dataIn
      dataInRisingEdge := !s.lastDataIn && dataIn } := by
  unfold step control counterEna
  rw [h]
  by_cases hmax : s.counter ≥ counterMax W N
  · simp [hmax]
  · simp [hmax]

end Step

/-! ## Runs -/

/-- The registers in cycle `t` of a run from reset. -/
def regs (W N : ℕ) (dataIn : ℕ → Bool) (t : ℕ) : StayHigh W := run (step N) reset dataIn t

/-- `data_out` in a run from reset. -/
def out (W N : ℕ) (dataIn : ℕ → Bool) (t : ℕ) : Bool := (regs W N dataIn t).dataOut

/-- What the stretcher makes of an input: a sequence of runs of exactly `N` high cycles with low
cycles between them.  An edge that is seen in `IDLE` starts a run in the next cycle, one that is
seen while the output is high starts none, and no run starts without an edge. -/
structure Stretches (W N : ℕ) (dataIn : ℕ → Bool) : Prop where
  lasts : ∀ x, Rises (out W N dataIn) x →
    (∀ k < N, out W N dataIn (x + k) = true) ∧ out W N dataIn (x + N) = false
  inRun : ∀ t, out W N dataIn t = true → ∃ x k, Rises (out W N dataIn) x ∧ k < N ∧ t = x + k
  starts : ∀ f, Rises dataIn f → (regs W N dataIn (f + 1)).currentState = .idle →
    Rises (out W N dataIn) (f + 2)
  ignored : ∀ f, Rises dataIn f → out W N dataIn (f + 1) = true →
    ¬ Rises (out W N dataIn) (f + 2)
  startsOnly : ∀ x, Rises (out W N dataIn) x →
    ∃ f, Rises dataIn f ∧ (regs W N dataIn (f + 1)).currentState = .idle ∧ x = f + 2

section Run

variable {N : ℕ} {dataIn : ℕ → Bool} {t x : ℕ}

lemma regs_succ (t : ℕ) : regs W N dataIn (t + 1) = step N (dataIn t) (regs W N dataIn t) :=
  run_succ ..

/-- An edge is seen one cycle later. -/
lemma dataInRisingEdge_succ :
    (regs W N dataIn (t + 1)).dataInRisingEdge = true ↔ Rises dataIn t := by
  have hlast : (regs W N dataIn t).lastDataIn = true ↔ t ≠ 0 ∧ dataIn (t - 1) = true := by
    cases t with
    | zero => simp [regs, reset]
    | succ t =>
        rw [regs_succ]
        simp [step]
  have hnext : (regs W N dataIn (t + 1)).dataInRisingEdge =
      (!(regs W N dataIn t).lastDataIn && dataIn t) := by
    rw [regs_succ]
    rfl
  rw [hnext, Bool.and_eq_true, Bool.not_eq_true', ← Bool.not_eq_true, hlast, Rises, and_comm]
  refine and_congr_right fun _ => ?_
  rw [not_and_or, not_not, Bool.not_eq_true]

lemma out_iff_state : out W N dataIn t = true ↔ (regs W N dataIn t).currentState = .high := by
  unfold out dataOut
  cases (regs W N dataIn t).currentState <;> simp

lemma not_out_iff_state : out W N dataIn t = false ↔ (regs W N dataIn t).currentState = .idle := by
  unfold out dataOut
  cases (regs W N dataIn t).currentState <;> simp

/-- **Begin.**  A run begins in the second cycle after an edge that is seen in `IDLE`. -/
lemma rises_out_succ : Rises (out W N dataIn) (t + 1) ↔
    (regs W N dataIn t).currentState = .idle ∧ (regs W N dataIn t).dataInRisingEdge = true := by
  rw [rises_succ, out_iff_state, not_out_iff_state, and_comm]
  refine and_congr_right fun hidle => ?_
  rw [regs_succ, step_of_idle hidle]
  cases (regs W N dataIn t).dataInRisingEdge <;> simp

lemma not_rises_out_zero : ¬ Rises (out W N dataIn) 0 := fun h => Bool.false_ne_true h.1

lemma exists_of_rises_out (h : Rises (out W N dataIn) x) :
    ∃ f, Rises dataIn f ∧ (regs W N dataIn (f + 1)).currentState = .idle ∧ x = f + 2 := by
  cases x with
  | zero => exact absurd h not_rises_out_zero
  | succ y =>
      obtain ⟨hidle, hedge⟩ := rises_out_succ.mp h
      cases y with
      | zero => simp [regs, reset] at hedge
      | succ f => exact ⟨f, dataInRisingEdge_succ.mp hedge, hidle, rfl⟩

section Counted

variable (hN : 0 < N) (hW : N - 1 < 2 ^ W)
include hN hW

/-- **Step.**  A run that is at its cycle `k` goes on until it has lasted for `N` cycles. -/
lemma step_of_counter {k : ℕ} (hk : k < N) (hhigh : (regs W N dataIn t).currentState = .high)
    (hcounter : (regs W N dataIn t).counter = BitVec.ofNat W k) :
    (regs W N dataIn (t + 1)).currentState = (if k + 1 < N then .high else .idle) ∧
      (regs W N dataIn (t + 1)).counter = BitVec.ofNat W (k + 1) := by
  have hvalue : (BitVec.ofNat W k).toNat = k := Nat.mod_eq_of_lt (by omega)
  have hmax : (counterMax W N).toNat = N - 1 := Nat.mod_eq_of_lt hW
  have hlast : BitVec.ofNat W k ≥ counterMax W N ↔ ¬ k + 1 < N := by
    rw [ge_iff_le, BitVec.le_def, hvalue, hmax]
    omega
  rw [regs_succ, step_of_high hhigh, hcounter]
  refine ⟨?_, (BitVec.ofNat_add k 1).symm⟩
  simp only [hlast, ite_not]

/-- A run counts its cycles. -/
lemma counter_of_rises (h : Rises (out W N dataIn) x) {k : ℕ} (hk : k < N) :
    (regs W N dataIn (x + k)).currentState = .high ∧
      (regs W N dataIn (x + k)).counter = BitVec.ofNat W k := by
  induction k with
  | zero =>
      refine ⟨out_iff_state.mp h.1, ?_⟩
      cases x with
      | zero => exact absurd h not_rises_out_zero
      | succ y =>
          obtain ⟨hidle, hedge⟩ := rises_out_succ.mp h
          rw [Nat.add_zero, regs_succ, step_of_idle hidle]
          exact if_pos hedge
  | succ k ih =>
      obtain ⟨hhigh, hcounter⟩ := ih (by omega)
      obtain ⟨hstate, hnext⟩ := step_of_counter hN hW (by omega) hhigh hcounter
      rw [if_pos hk] at hstate
      exact ⟨hstate, hnext⟩

/-- A run lasts for `N` cycles. -/
lemma out_of_rises (h : Rises (out W N dataIn) x) :
    (∀ k < N, out W N dataIn (x + k) = true) ∧ out W N dataIn (x + N) = false := by
  refine ⟨fun k hk => out_iff_state.mpr (counter_of_rises hN hW h hk).1, ?_⟩
  obtain ⟨hhigh, hcounter⟩ := counter_of_rises hN hW h (k := N - 1) (by omega)
  have hend := (step_of_counter hN hW (by omega) hhigh hcounter).1
  rw [if_neg (by omega), show x + (N - 1) + 1 = x + N by omega] at hend
  exact not_out_iff_state.mpr hend

/-- Every cycle in which the output is high is one of a run that began with an edge of it. -/
lemma exists_run_of_out (h : out W N dataIn t = true) :
    ∃ x k, Rises (out W N dataIn) x ∧ k < N ∧ t = x + k := by
  induction t with
  | zero => exact absurd h Bool.false_ne_true
  | succ t ih =>
      by_cases hbefore : out W N dataIn t = true
      · obtain ⟨x, k, hx, hk, rfl⟩ := ih hbefore
        refine ⟨x, k + 1, hx, ?_, rfl⟩
        by_contra hlong
        obtain rfl : k + 1 = N := by omega
        rw [Nat.add_assoc, (out_of_rises hN hW hx).2] at h
        exact Bool.false_ne_true h
      · exact ⟨t + 1, 0, rises_succ.mpr ⟨h, Bool.not_eq_true _ ▸ hbefore⟩, hN, rfl⟩

/-- **The pulse stretcher.**  Its output is a sequence of runs of `N` cycles with low cycles between
them, and the edges that are seen in `IDLE` are those that begin one. -/
theorem stretches : Stretches W N dataIn where
  lasts x hx := out_of_rises hN hW hx
  inRun t ht := exists_run_of_out hN hW ht
  starts f hf hidle := rises_out_succ.mpr ⟨hidle, dataInRisingEdge_succ.mpr hf⟩
  ignored f hf hhigh := by
    rw [rises_out_succ, ← not_out_iff_state, hhigh]
    exact fun h => Bool.false_ne_true h.1.symm
  startsOnly x hx := exists_of_rises_out hx

end Counted

/-- Two edges that are four cycles apart, with `N_CYCLES = 5`, and a third one. -/
def threeEdges (t : ℕ) : Bool := decide (t = 1 ∨ t = 5 ∨ t = 20)

/-- The second edge comes while the run of the first lasts, and starts none. -/
theorem threeEdges_stretches : Stretches 4 5 threeEdges ∧
    Rises (out 4 5 threeEdges) 3 ∧ ¬ Rises (out 4 5 threeEdges) 7 ∧
    Rises (out 4 5 threeEdges) 22 := by
  have h : Stretches 4 5 threeEdges := stretches (by decide) (by decide)
  refine ⟨h, h.starts 1 ?_ ?_, h.ignored 5 ?_ ?_, h.starts 20 ?_ ?_⟩
  all_goals first | rfl | exact ⟨rfl, .inr rfl⟩

/-- When the edges are more than `N` cycles apart, each of them makes a run. -/
lemma rises_out_iff (hN : 0 < N) (hW : N - 1 < 2 ^ W)
    (hapart : ∀ f f', Rises dataIn f → Rises dataIn f' → f < f' → f + N < f') :
    Rises (out W N dataIn) x ↔ ∃ f, Rises dataIn f ∧ x = f + 2 := by
  constructor
  · intro hx
    obtain ⟨f, hf, -, rfl⟩ := exists_of_rises_out hx
    exact ⟨f, hf, rfl⟩
  · rintro ⟨f, hf, rfl⟩
    refine rises_out_succ.mpr ⟨?_, dataInRisingEdge_succ.mpr hf⟩
    rw [← not_out_iff_state, ← Bool.not_eq_true]
    intro hhigh
    -- the run that is under way began with an edge that is too near
    obtain ⟨y, k, hy, hk, hfy⟩ := exists_run_of_out hN hW hhigh
    obtain ⟨f', hf', -, rfl⟩ := exists_of_rises_out hy
    have hfar := hapart f' f hf' hf (by omega)
    omega

end Run

end StayHigh

end TrackerFpga.Sync
