import TrackerFpga.Vata.Phase

/-!
# How long a dead time lasts at least

The interface comes back to `IDLE` from four states only, each of which latches the mode `M3`.  They
are entered with the state counter cleared, and `IDLE` is entered from them when it has reached `9`.
So before an interface is in `IDLE` again it was not for ten cycles (`not_idle_before`), whatever
took it out of `IDLE` and however it came back.

`State.KeepsCounter` lists the edges that do not clear the counter.
-/

namespace TrackerFpga.Vata

/-- The states that latch the mode `M3` at the end of a dead time. -/
def State.LatchesM3 (s : State) : Prop :=
  s = .scLatchModeM3 ∨ s = .gcLatchModeM3 ∨ s = .roLatchModeM3 ∨ s = .abortLatchModeM3

instance : DecidablePred State.LatchesM3 :=
  fun _ => inferInstanceAs (Decidable (_ ∨ _))

/-- The edges on which the state counter goes on. -/
inductive State.KeepsCounter : State → State → Prop
  | stay (q : State) : KeepsCounter q q
  | getConfig : KeepsCounter .idle .gcSetModeM2
  | xferData : KeepsCounter .gcXferData .gcSetModeM3
  | scDone : KeepsCounter .scLatchModeM3 .idle
  | gcDone : KeepsCounter .gcLatchModeM3 .idle
  | abortDone : KeepsCounter .abortLatchModeM3 .idle
  | firstWord : KeepsCounter .roShiftData (.roWfifo 0)
  | nextWord (k : Fin 19) (h : k.val + 1 < 19) : KeepsCounter (.roWfifo k) (.roWfifo ⟨k.val + 1, h⟩)

section Step

variable {i : Input} {s : Regs}

/-- `IDLE` is entered from a latch state, when the counter has reached `9`. -/
lemma latchesM3_of_idle (h : (step i s).currentState = .idle) (hbusy : s.currentState ≠ .idle) :
    s.currentState.LatchesM3 ∧ s.stateCounter ≥ 9#16 := by
  have hnext : (control i s).nextState = .idle := h
  unfold control at hnext
  cases hs : s.currentState
  case idle => exact absurd hs hbusy
  case abortWfifo =>
    rw [hs] at hnext
    have habort : State.abortSetModeM3 = .idle := hnext
    exact absurd habort (by decide)
  all_goals
    rw [hs] at hnext
    simp only [onForce, onAbort, onCount] at hnext
    split_ifs at hnext <;> first | exact ⟨by decide, ‹_›⟩ | simp_all

/-- A step clears the counter, or goes along one of the other edges and counts. -/
lemma counter_step (i : Input) (s : Regs) : (step i s).stateCounter = 0#16 ∨
    s.currentState.KeepsCounter (step i s).currentState ∧
      (step i s).stateCounter = s.stateCounter + 1#16 := by
  have hclr : (control i s).stateCounterClr = true ∨
      s.currentState.KeepsCounter (control i s).nextState := by
    unfold control
    cases hs : s.currentState
    case idle =>
      simp only
      split_ifs
      · exact .inl rfl
      · exact .inl rfl
      · exact .inr .getConfig
      · exact .inr (.stay _)
    case roWfifo k =>
      simp only [onForce]
      split_ifs
      · exact .inl rfl
      · exact .inr (.nextWord ..)
      · exact .inl rfl
      · exact .inl rfl
    case abortWfifo => exact .inl rfl
    all_goals
      simp only [hs, onForce, onAbort, onCount]
      split_ifs
      all_goals first
        | exact .inl rfl
        | exact .inr (.stay _)
        | exact .inr (by constructor)
  rw [step_stateCounter, step_currentState]
  split_ifs with hif
  · exact .inl rfl
  · exact .inr ⟨hclr.resolve_left hif, rfl⟩

/-- A latch state is entered with the counter cleared, and the counter runs in it. -/
lemma counter_of_latchesM3 (h : (step i s).currentState.LatchesM3) :
    (step i s).stateCounter = 0#16 ∨
      s.currentState.LatchesM3 ∧ (step i s).stateCounter = s.stateCounter + 1#16 := by
  rcases counter_step i s with hzero | ⟨hkeeps, hcount⟩
  · exact .inl hzero
  · refine .inr ⟨?_, hcount⟩
    generalize (step i s).currentState = q at hkeeps h
    generalize s.currentState = q₀ at hkeeps ⊢
    cases hkeeps with
    | stay => exact h
    | nextWord => exact absurd h (by simp [State.LatchesM3])
    | _ => exact absurd h (by decide)

end Step

namespace Run

variable {r : Run} {t : ℕ}

/-- In states that are entered with the counter cleared, and in which it runs, the counter says
for how long the machine has been in them. -/
lemma dwelt_of_counter {P : State → Prop}
    (hP : ∀ i s, P (step i s).currentState → (step i s).stateCounter = 0#16 ∨
      P s.currentState ∧ (step i s).stateCounter = s.stateCounter + 1#16)
    (h0 : P (r.regs 0).currentState → (r.regs 0).stateCounter = 0#16)
    (h : P (r.regs t).currentState) :
    ∀ j ≤ (r.regs t).stateCounter.toNat, j ≤ t ∧ P (r.regs (t - j)).currentState := by
  induction t with
  | zero =>
      intro j hj
      rw [h0 h] at hj
      obtain rfl : j = 0 := Nat.le_zero.mp hj
      exact ⟨le_rfl, h⟩
  | succ t ih =>
      intro j hj
      cases j with
      | zero => exact ⟨Nat.zero_le _, h⟩
      | succ j =>
          have hstep := r.regs_succ t
          rw [hstep] at h hj
          rcases hP _ _ h with hzero | ⟨hprev, hcount⟩
          · rw [hzero] at hj
            exact absurd hj (by simp)
          · rw [hcount, BitVec.toNat_add] at hj
            have hle := hj.trans (Nat.mod_le _ _)
            have hone : (1#16).toNat = 1 := rfl
            obtain ⟨hjt, hdwelt⟩ := ih hprev j (by omega)
            exact ⟨by omega, by rwa [Nat.add_sub_add_right]⟩

/-- In a latch state the counter says for how long the interface has not been in `IDLE`. -/
lemma not_idle_of_counter (h : (r.regs t).currentState.LatchesM3) (h0 : r.Idle 0) :
    ∀ j ≤ (r.regs t).stateCounter.toNat, j ≤ t ∧ ¬ r.Idle (t - j) := by
  have hbusy : ∀ {t}, (r.regs t).currentState.LatchesM3 → ¬ r.Idle t := fun hlatch hidle => by
    have hstate : (r.regs _).currentState = .idle := hidle
    rw [hstate] at hlatch
    exact absurd hlatch (by decide)
  intro j hj
  obtain ⟨hjt, hdwelt⟩ := dwelt_of_counter (fun _ _ => counter_of_latchesM3)
    (fun hlatch => absurd h0 (hbusy hlatch)) h j hj
  exact ⟨hjt, hbusy hdwelt⟩

/-- **A dead time lasts.**  Before an interface is in `IDLE` again, it was not for ten cycles. -/
theorem not_idle_before (h0 : r.Idle 0) (hbusy : ¬ r.Idle t) (hidle : r.Idle (t + 1)) :
    ∀ j ≤ 9, j ≤ t ∧ ¬ r.Idle (t - j) := by
  intro j hj
  have hnext : (step (r.inp t) (r.regs t)).currentState = .idle := by
    rw [← r.regs_succ]
    exact hidle
  obtain ⟨hlatch, hcount⟩ := latchesM3_of_idle hnext hbusy
  exact not_idle_of_counter hlatch h0 j (hj.trans hcount)

end Run

end TrackerFpga.Vata
