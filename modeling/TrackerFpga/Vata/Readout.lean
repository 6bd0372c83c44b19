import Mathlib.Tactic.IntervalCases
import TrackerFpga.Vata.Config
import TrackerFpga.Vata.Packets
import TrackerFpga.Vata.Timeout

/-!
# The data bits of a packet

Every readout clock writes `not vata_o6` to bit 378 of `reg_from_vata` and shifts the register to
the right; when `vata_o5` says that the last bit was read, a loop without clocks makes up for the
shifts that are missing.  Seen from the register, what was sampled is a tape that is written from
position 378 on, over whatever the register held when the readout began, and the register shows a
stretch of it (`Regs.Readout`).  After 378 shifts the stretch starts at position 378, so bit `i`
is sample `i + 1`, and behind the samples comes what was in the register before: nothing clears
it at the start of an acquisition (`data_exact_iff`).
-/

namespace TrackerFpga.Vata

open SerialRegister Clocked

/-- A bit of `vata_o6` is taken in. -/
def readsO6 (i : Input) (s : Regs) : Bool := (control i s).readO6

/-- The last cycle of a readout clock, in which `vata_o5` is looked at. -/
def endsReadoutClock (s : Regs) : Bool :=
  decide (s.currentState = .roClkLo) && decide (s.stateCounter ≥ 32#16)

/-- The readout clocks so far: each takes one sample, into `bs`, and `vata_o5` was `os` at their
ends; the first high level is the last one. -/
def Regs.Clocks (bs os : List Bool) (s : Regs) : Prop :=
  match s.currentState with
  | .roClkLo => bs.length = os.length + 1 ∧ os = List.replicate os.length false
  | .roShiftData | .roWfifo _ => ∃ k, bs.length = k + 1 ∧ os = List.replicate k false ++ [true]
  | _ => bs.length = os.length ∧ os = List.replicate os.length false

/-- The register so far: it shows the tape of the samples `bs` over its old content `x`. -/
def Regs.Readout (x : BitVec 520) (bs : List Bool) (s : Regs) : Prop :=
  match s.currentState with
  | .roClkHi | .roReadO6 =>
      s.regIndx = BitVec.ofNat 10 bs.length ∧ Shows s.regFromVata (tape x 378 bs) bs.length
  | .roClkLo =>
      ∃ k, bs.length = k + 1 ∧ s.regIndx = BitVec.ofNat 10 (k + 1) ∧
        Shows s.regFromVata (tape x 378 bs) k
  | .roShiftData =>
      ∃ m, bs.length ≤ m ∧ m ≤ 378 ∧ s.regIndx = BitVec.ofNat 10 (m + 1) ∧
        Shows s.regFromVata (tape x 378 bs) m
  | .roWfifo _ => Shows s.regFromVata (tape x 378 bs) 378
  | _ => bs = [] ∧ s.regFromVata = x

/-- The states of a readout clock. -/
def State.ClocksReadout (s : State) : Prop := s = .roClkHi ∨ s = .roReadO6 ∨ s = .roClkLo

instance : DecidablePred State.ClocksReadout :=
  fun _ => inferInstanceAs (Decidable (_ ∨ _))

/-- The count that a state of the readout clock waits for. -/
def State.readoutCount : State → BitVec 16
  | .roClkHi => 24#16
  | .roReadO6 => 7#16
  | _ => 32#16

/-- What a cycle of a readout does that nothing stops: a state of the readout clock waits for its
count; with `vata_o5` low the clock goes on, with it high the shifts that are missing are made up
for, up to the index `379`. -/
inductive ReadoutCycle (i : Input) (s : Regs) : Control → Prop
  | waits : s.currentState.ClocksReadout → ¬ s.stateCounter ≥ s.currentState.readoutCount →
      ReadoutCycle i s { nextState := s.currentState }
  | falls : s.currentState = .roClkHi →
      ReadoutCycle i s { nextState := .roReadO6, stateCounterClr := true }
  | reads : s.currentState = .roReadO6 → s.stateCounter ≥ 7#16 →
      ReadoutCycle i s
        { nextState := .roClkLo, stateCounterClr := true, readO6 := true, incRegIndx := true }
  | goesOn : s.currentState = .roClkLo → s.stateCounter ≥ 32#16 → i.vataO5 = false →
      ReadoutCycle i s { nextState := .roClkHi, stateCounterClr := true, shiftRegRight1 := true }
  | stopsFull : s.currentState = .roClkLo → s.stateCounter ≥ 32#16 → i.vataO5 = true →
      s.regIndx = 379#10 → ReadoutCycle i s { nextState := .roWfifo 0, stateCounterClr := true }
  | stops : s.currentState = .roClkLo → s.stateCounter ≥ 32#16 → i.vataO5 = true →
      s.regIndx ≠ 379#10 →
      ReadoutCycle i s
        { nextState := .roShiftData, stateCounterClr := true, incRegIndx := true,
          shiftRegRight1 := true }
  | shifts : s.currentState = .roShiftData → ¬ s.regIndx ≥ 379#10 →
      ReadoutCycle i s { nextState := .roShiftData, incRegIndx := true, shiftRegRight1 := true }
  | shifted : s.currentState = .roShiftData → s.regIndx ≥ 379#10 →
      ReadoutCycle i s { nextState := .roWfifo 0, incRegIndx := true }

section Step

variable {i : Input} {s : Regs} {x : BitVec 520} {bs os : List Bool}

/-- The samples after a cycle. -/
def nextBits (i : Input) (s : Regs) (bs : List Bool) : List Bool :=
  if readsO6 i s then bs ++ [!i.vataO6] else bs

/-- The levels of `vata_o5` after a cycle. -/
def nextLevels (i : Input) (s : Regs) (os : List Bool) : List Bool :=
  if endsReadoutClock s then os ++ [i.vataO5] else os

lemma readsO6_eq_false (h : s.currentState ≠ .roReadO6) : readsO6 i s = false := by
  unfold readsO6
  cases hs : s.currentState
  case roReadO6 => exact absurd hs h
  case abortWfifo => simp [control, hs]
  all_goals
    simp only [control, hs, onForce, onAbort, onCount]
    split_ifs <;> rfl

lemma nextBits_of_ne (h : s.currentState ≠ .roReadO6) : nextBits i s bs = bs := by
  simp [nextBits, readsO6_eq_false h]

lemma nextLevels_of_ne (h : s.currentState ≠ .roClkLo) : nextLevels i s os = os := by
  simp [nextLevels, endsReadoutClock, h]

lemma nextLevels_of_ends (h : s.currentState = .roClkLo) (hcount : s.stateCounter ≥ 32#16) :
    nextLevels i s os = os ++ [i.vataO5] := by
  simp [nextLevels, endsReadoutClock, h, hcount]

/-- The readout as one of these cycles. -/
lemma readoutCycle_control (hs : s.currentState.ClocksReadout ∨ s.currentState = .roShiftData)
    (hforce : i.forceFsmIdle = false) (habort : abortDaq s = false) :
    ReadoutCycle i s (control i s) := by
  have hwait : ∀ {n : BitVec 16} {c : Control}, s.currentState.ClocksReadout →
      s.currentState.readoutCount = n → (s.stateCounter ≥ n → ReadoutCycle i s c) →
      ReadoutCycle i s (onCount n s c) := by
    intro n c hclocks hn hleave
    rw [onCount]
    split_ifs with hcount
    · exact hleave hcount
    · exact .waits hclocks (hn ▸ hcount)
  rcases hs with (hs | hs | hs) | hs
  · simp only [control, hs, onForce, onAbort, hforce, habort, Bool.false_eq_true, if_false]
    exact hwait (.inl hs) (by rw [hs]; rfl) fun _ => .falls hs
  · simp only [control, hs, onForce, onAbort, hforce, habort, Bool.false_eq_true, if_false]
    exact hwait (.inr (.inl hs)) (by rw [hs]; rfl) (.reads hs)
  · simp only [control, hs, onForce, onAbort, hforce, habort, Bool.false_eq_true, if_false]
    refine hwait (.inr (.inr hs)) (by rw [hs]; rfl) fun hcount => ?_
    split_ifs with ho5 hlast
    · exact .stopsFull hs hcount ho5 hlast
    · exact .stops hs hcount ho5 hlast
    · exact .goesOn hs hcount (Bool.eq_false_of_not_eq_true ho5)
  · simp only [control, hs, onForce, onAbort, hforce, habort, Bool.false_eq_true, if_false]
    split_ifs with hlast
    · exact .shifted hs hlast
    · exact .shifts hs hlast

/-- A cycle of the readout keeps the clocks and the samples in step. -/
lemma clocks_of_cycle (h : s.Clocks bs os) (hcycle : ReadoutCycle i s (control i s)) :
    (step i s).Clocks (nextBits i s bs) (nextLevels i s os) := by
  have hnext : (step i s).currentState = (control i s).nextState := rfl
  have hreads : readsO6 i s = (control i s).readO6 := rfl
  rw [nextBits, hreads]
  generalize control i s = c at hcycle hnext
  cases hcycle with
  | waits _ hcount =>
      have hlevels : nextLevels i s os = os := by
        rw [nextLevels, endsReadoutClock]
        by_cases hs : s.currentState = .roClkLo
        · have h32 : ¬ s.stateCounter ≥ 32#16 := by rwa [hs] at hcount
          simp [h32]
        · simp [hs]
      rw [hlevels, Regs.Clocks, hnext]
      exact h
  | falls hs =>
      simp only [Regs.Clocks, hs] at h
      rw [nextLevels_of_ne (by simp [hs]), Regs.Clocks, hnext]
      exact h
  | reads hs _ =>
      simp only [Regs.Clocks, hs] at h
      rw [nextLevels_of_ne (by simp [hs]), Regs.Clocks, hnext, if_pos rfl, List.length_append,
        List.length_singleton]
      exact ⟨by rw [h.1], h.2⟩
  | goesOn hs hcount ho5 =>
      simp only [Regs.Clocks, hs] at h
      rw [nextLevels_of_ends hs hcount, ho5, Regs.Clocks, hnext]
      refine ⟨h.1.trans (by simp), ?_⟩
      rw [List.length_append, List.length_singleton, List.replicate_succ', ← h.2]
  | stopsFull hs hcount ho5 _ | stops hs hcount ho5 _ =>
      simp only [Regs.Clocks, hs] at h
      rw [nextLevels_of_ends hs hcount, ho5, Regs.Clocks, hnext]
      exact ⟨os.length, h.1, by rw [← h.2]⟩
  | shifts hs _ | shifted hs _ =>
      simp only [Regs.Clocks, hs] at h
      rw [nextLevels_of_ne (by simp [hs]), Regs.Clocks, hnext]
      exact h

lemma clocks_step (h : s.Clocks bs os) (hphase : s.phase = .acquiring)
    (hforce : i.forceFsmIdle = false) (habort : abortDaq s = false) :
    (step i s).Clocks (nextBits i s bs) (nextLevels i s os) := by
  unfold Regs.phase at hphase
  cases hs : s.currentState <;> simp only [hs, State.phase, reduceCtorEq] at hphase
  case roClkHi | roReadO6 | roClkLo | roShiftData =>
    refine clocks_of_cycle h (readoutCycle_control ?_ hforce habort)
    rw [hs]
    decide
  all_goals
    simp only [Regs.Clocks, hs] at h
    rw [nextBits_of_ne (by simp [hs]), nextLevels_of_ne (by simp [hs])]
    simp only [Regs.Clocks, step_currentState, control, hs, onForce, onAbort, onCount, hforce,
      habort, Bool.false_eq_true, if_false]
    try split_ifs
    all_goals exact h

/-- A readout clock that goes on for another cycle changes nothing. -/
lemma readout_of_waiting (h : s.Readout x bs)
    (hc : control i s = { nextState := s.currentState }) :
    (step i s).Readout x (nextBits i s bs) := by
  simpa only [nextBits, readsO6, hc, Regs.Readout, step_currentState, step_regIndx,
    step_regFromVata, nextRegIndx, nextRegFromVata, Bool.false_eq_true, if_false] using h

/-- A cycle of the readout keeps the invariant, up to 379 samples. -/
lemma readout_of_cycle (h : s.Readout x bs) (hcycle : ReadoutCycle i s (control i s))
    (hlen : (nextBits i s bs).length ≤ 379) : (step i s).Readout x (nextBits i s bs) := by
  generalize hc : control i s = c at hcycle
  cases hcycle with
  | waits _ _ => exact readout_of_waiting h hc
  | falls hs =>
      rw [nextBits_of_ne (by simp [hs])]
      simpa only [Regs.Readout, step_currentState, step_regIndx, step_regFromVata, hc, hs,
        nextRegIndx, nextRegFromVata, Bool.false_eq_true, if_false] using h
  | reads hs _ =>
      simp only [Regs.Readout, hs] at h
      obtain ⟨hindx, hshows⟩ := h
      simp only [nextBits, readsO6, hc, Regs.Readout, step_currentState, step_regIndx,
        step_regFromVata, nextRegIndx, nextRegFromVata, Bool.false_eq_true, if_false, if_true]
      refine ⟨bs.length, by simp, ?_, hshows.sample _⟩
      rw [hindx, BitVec.ofNat_add]
  | goesOn hs _ _ =>
      simp only [Regs.Readout, hs] at h
      obtain ⟨k, hk, hindx, hshows⟩ := h
      rw [nextBits_of_ne (by simp [hs])] at hlen ⊢
      simp only [hc, Regs.Readout, step_currentState, step_regIndx, step_regFromVata,
        nextRegIndx, nextRegFromVata, Bool.false_eq_true, if_false, if_true]
      rw [hk]
      exact ⟨hindx, hshows.shift (tape_eq_false (by omega) (by omega))⟩
  | stopsFull hs _ _ hlast =>
      simp only [Regs.Readout, hs] at h
      obtain ⟨k, hk, hindx, hshows⟩ := h
      rw [nextBits_of_ne (by simp [hs])] at hlen ⊢
      obtain rfl : k = 378 := by
        rw [hindx] at hlast
        bv_omega
      simp only [hc, Regs.Readout, step_currentState, step_regFromVata, nextRegFromVata,
        Bool.false_eq_true, if_false]
      exact hshows
  | stops hs _ _ hlast =>
      simp only [Regs.Readout, hs] at h
      obtain ⟨k, hk, hindx, hshows⟩ := h
      rw [nextBits_of_ne (by simp [hs])] at hlen ⊢
      have hk378 : k + 1 ≤ 378 := by
        rw [hindx] at hlast
        bv_omega
      simp only [hc, Regs.Readout, step_currentState, step_regIndx, step_regFromVata,
        nextRegIndx, nextRegFromVata, Bool.false_eq_true, if_false, if_true]
      exact ⟨k + 1, hk.le, hk378, by rw [hindx, BitVec.ofNat_add (k + 1) 1],
        hshows.shift (tape_eq_false (by omega) (by omega))⟩
  | shifted hs hlast =>
      simp only [Regs.Readout, hs] at h
      obtain ⟨m, hlm, hm, hindx, hshows⟩ := h
      rw [nextBits_of_ne (by simp [hs])]
      obtain rfl : m = 378 := by
        rw [hindx] at hlast
        bv_omega
      simp only [hc, Regs.Readout, step_currentState, step_regFromVata, nextRegFromVata,
        Bool.false_eq_true, if_false]
      exact hshows
  | shifts hs hlast =>
      simp only [Regs.Readout, hs] at h
      obtain ⟨m, hlm, hm, hindx, hshows⟩ := h
      rw [nextBits_of_ne (by simp [hs])]
      have hm378 : m + 1 ≤ 378 := by
        rw [hindx] at hlast
        bv_omega
      simp only [hc, Regs.Readout, step_currentState, step_regIndx, step_regFromVata,
        nextRegIndx, nextRegFromVata, Bool.false_eq_true, if_false, if_true]
      exact ⟨m + 1, by omega, hm378, by rw [hindx, BitVec.ofNat_add (m + 1) 1],
        hshows.shift (tape_eq_false (by omega) (by omega))⟩

/-- A cycle of an acquisition that nothing stops keeps the invariant, up to 379 samples. -/
lemma readout_step (h : s.Readout x bs) (hphase : s.phase = .acquiring)
    (hforce : i.forceFsmIdle = false) (habort : abortDaq s = false)
    (hlen : (nextBits i s bs).length ≤ 379) : (step i s).Readout x (nextBits i s bs) := by
  unfold Regs.phase at hphase
  cases hs : s.currentState <;> simp only [hs, State.phase, reduceCtorEq] at hphase
  case roClkHi | roReadO6 | roClkLo | roShiftData =>
    refine readout_of_cycle h (readoutCycle_control ?_ hforce habort) hlen
    rw [hs]
    decide
  -- before the first readout clock the register keeps its content
  all_goals
    rw [nextBits_of_ne (by simp [hs])]
    simp only [Regs.Readout, hs] at h
    obtain ⟨rfl, rfl⟩ := h
    simp only [Regs.Readout, step_currentState, step_regIndx, step_regFromVata, control, hs,
      onForce, onAbort, onCount, hforce, habort, Bool.false_eq_true, if_false]
    try split_ifs
    all_goals simp [nextRegFromVata, nextRegIndx, shows_tape_nil]

end Step

/-! ## The data words -/

/-- Data bit `32 m + b` is bit `b` of word `7 + m`; the five bits above bit 378 are low. -/
lemma getLsbD_wfifoWord (s : Regs) {m b : ℕ} (hm : 7 + m < 19) (hb : b < 32) :
    (wfifoWord s ⟨7 + m, hm⟩).getLsbD b =
      (decide (32 * m + b < 379) && s.regFromVata.getLsbD (32 * m + b)) := by
  by_cases hlast : m = 11
  · subst hlast
    have hword : wfifoWord s ⟨7 + 11, hm⟩ = (s.regFromVata.extractLsb' 352 27).setWidth 32 := rfl
    have hlt : (352 + b < 379) ↔ b < 27 := by omega
    rw [hword, BitVec.getLsbD_setWidth, BitVec.getLsbD_extractLsb']
    simp [hb, hlt]
  · have hword : wfifoWord s ⟨7 + m, hm⟩ = s.regFromVata.extractLsb' (32 * m) 32 := by
      have hm11 : m < 11 := by omega
      interval_cases m <;> rfl
    have hlt : 32 * m + b < 379 := by omega
    rw [hword, BitVec.getLsbD_extractLsb']
    simp [hb, hlt]

/-- The register does not move while the packet is sent. -/
lemma regFromVata_of_sending (i : Input) {s : Regs} {k : ℕ} (h : s.phase = .sending k) :
    (step i s).regFromVata = s.regFromVata := by
  obtain ⟨hk, hs⟩ := phase_eq_sending_iff.mp h
  simp only [step_regFromVata, control, hs, onForce]
  split_ifs <;> rfl

namespace Run

variable {r : Run} {a t w k n : ℕ}

/-- The bits `not vata_o6` sampled since the acquisition was accepted in cycle `a`. -/
def o6Bits (r : Run) (a t : ℕ) : List Bool :=
  sampled (fun u => readsO6 (r.inp u) (r.regs u)) (fun u => !(r.inp u).vataO6) (a + 1) t

/-- The levels of `vata_o5` at the ends of the readout clocks since then. -/
def o5Levels (r : Run) (a t : ℕ) : List Bool :=
  sampled (fun u => endsReadoutClock (r.regs u)) (fun u => (r.inp u).vataO5) (a + 1) t

/-- Bit `j` of the 379 data bits in words 7 to 18 of the packet sent from cycle `w` on. -/
def dataBit (r : Run) (w j : ℕ) : Bool :=
  (r.out (w + (7 + j / 32))).dataTdata.getLsbD (j % 32)

/-- Nothing stops an acquisition that reaches its first word. -/
lemma SendingSince.not_stopped (h : r.SendingSince a w k) (hat : a < t) (htw : t < w) :
    (r.inp t).forceFsmIdle = false ∧ abortDaq (r.regs t) = false := by
  have hacq := h.acquiring t hat htw
  rcases Nat.eq_or_lt_of_le (Nat.succ_le_of_lt htw) with heq | hlt
  · have hnext : (step (r.inp t) (r.regs t)).phase = .sending 0 := by
      have hfirst := h.sending 0 (Nat.zero_le k)
      rw [Nat.add_zero, ← heq] at hfirst
      exact hfirst
    exact (sending_zero_of_step hnext).2
  · have hnext : (step (r.inp t) (r.regs t)).phase = .acquiring :=
      h.acquiring (t + 1) (Nat.lt_succ_of_lt hat) hlt
    rcases acquiring_of_step hnext with ⟨hidle, -⟩ | ⟨-, hgo⟩
    · exact absurd (hacq.symm.trans hidle) (by decide)
    · exact hgo

lemma o6Bits_succ (hat : a < t) :
    r.o6Bits a (t + 1) = nextBits (r.inp t) (r.regs t) (r.o6Bits a t) := sampled_succ _ _ hat

lemma o5Levels_succ (hat : a < t) :
    r.o5Levels a (t + 1) = nextLevels (r.inp t) (r.regs t) (r.o5Levels a t) :=
  sampled_succ _ _ hat

/-- At the first word, every readout clock has taken one sample, and only the last one has ended
with `vata_o5` high. -/
lemma clocks_firstWord (h : r.SendingSince a w k) :
    ∃ m, (r.o6Bits a w).length = m + 1 ∧ r.o5Levels a w = List.replicate m false ++ [true] := by
  have hw : (r.regs w).Clocks (r.o6Bits a w) (r.o5Levels a w) := by
    refine invariant_between (P := fun t => (r.regs t).Clocks (r.o6Bits a t) (r.o5Levels a t))
      (a := a + 1) ?_ (fun t hat htw ih => ?_) h.lt le_rfl
    · have hidle : (r.regs a).currentState = .idle := h.accepts.1
      simp [Regs.Clocks, o6Bits, o5Levels, regs_succ, control, hidle, h.accepts.2]
    · obtain ⟨hforce, habort⟩ := h.not_stopped hat htw
      rw [o6Bits_succ hat, o5Levels_succ hat]
      exact clocks_step ih (h.acquiring t hat htw) hforce habort
  obtain ⟨_, hstate⟩ := phase_eq_sending_iff.mp (h.sending 0 (Nat.zero_le k))
  rw [Nat.add_zero] at hstate
  rw [Regs.Clocks, hstate] at hw
  exact hw

/-- The invariant holds from the acceptance up to the first word. -/
lemma readout_acquiring (h : r.SendingSince a w k) (hlen : (r.o6Bits a w).length ≤ 379)
    (hat : a < t) (htw : t ≤ w) :
    (r.regs t).Readout (r.regs a).regFromVata (r.o6Bits a t) := by
  refine invariant_between
    (P := fun u => (r.regs u).Readout (r.regs a).regFromVata (r.o6Bits a u)) (a := a + 1) ?_
    (fun u hau huw ih => ?_) hat htw
  · have hidle : (r.regs a).currentState = .idle := h.accepts.1
    simp [Regs.Readout, o6Bits, regs_succ, control, hidle, h.accepts.2, nextRegFromVata]
  · obtain ⟨hforce, habort⟩ := h.not_stopped hau huw
    have hle : (r.o6Bits a (u + 1)).length ≤ (r.o6Bits a w).length :=
      length_sampled_mono (by omega) huw
    rw [o6Bits_succ hau] at hle ⊢
    exact readout_step ih (h.acquiring u hau huw) hforce habort (hle.trans hlen)

lemma regFromVata_sendingSince (h : r.SendingSince a w k) {j : ℕ} (hj : j ≤ k) :
    (r.regs (w + j)).regFromVata = (r.regs w).regFromVata := by
  induction j with
  | zero => rfl
  | succ j ih =>
      rw [← ih (by omega), ← Nat.add_assoc, regs_succ]
      exact regFromVata_of_sending _ (h.sending j (by omega))

lemma dataTdata_sendingSince (h : r.SendingSince a w 18) {m b : ℕ} (hm : 7 + m < 19)
    (hb : b < 32) :
    (r.out (w + (7 + m))).dataTdata.getLsbD b =
      (decide (32 * m + b < 379) && (r.regs w).regFromVata.getLsbD (32 * m + b)) := by
  obtain ⟨_, hout⟩ := out_of_sending (h.sending (7 + m) (by omega))
  rw [hout, getLsbD_wfifoWord _ hm hb, regFromVata_sendingSince h (by omega)]

/-- With `n` readout clocks, the data bits are the samples, and behind them what the register
held 378 bits further up when the acquisition was accepted. -/
lemma dataBit_eq (h : r.SendingSince a w 18) (hn : n ≤ 379)
    (hlen : (r.o6Bits a w).length = n) {j : ℕ} (hj : j < 379) :
    r.dataBit w j =
      if j < n then (r.o6Bits a w).getD j false
      else (r.regs a).regFromVata.getLsbD (378 + j) := by
  have hbit : r.dataBit w j = (r.regs w).regFromVata.getLsbD j := by
    have hidx : 32 * (j / 32) + j % 32 = j := Nat.div_add_mod j 32
    rw [dataBit, dataTdata_sendingSince h (by omega) (Nat.mod_lt j (by decide)), hidx]
    simp [hj]
  have hinv := readout_acquiring h (hlen.trans_le hn) h.lt le_rfl
  obtain ⟨_, hstate⟩ := phase_eq_sending_iff.mp (h.sending 0 (by decide))
  rw [Nat.add_zero] at hstate
  rw [Regs.Readout, hstate] at hinv
  rw [hbit, hinv j (by omega), tape, hlen]
  by_cases hjn : j < n
  · rw [if_pos (by omega), if_pos hjn, Nat.add_sub_cancel]
  · rw [if_neg (by omega), if_neg hjn, Nat.add_comm]

/-- What the data words of a packet of `n` readout clocks should be: the `n` samples, and zeros
behind them. -/
structure DataExact (r : Run) (a w n : ℕ) : Prop where
  samples : (r.o6Bits a w).length = n
  data : ∀ j < n, r.dataBit w j = (r.o6Bits a w).getD j false
  empty : ∀ j, n ≤ j → j < 379 → r.dataBit w j = false
  unused : ∀ b, 27 ≤ b → b < 32 → (r.out (w + 18)).dataTdata.getLsbD b = false

/-- **Sparse data readout.**  Where the ASIC holds `vata_o5` low at the end of the first `n - 1`
readout clocks and high at the end of the `n`-th, the data words of the packet are the samples
and zeros exactly when `reg_from_vata` was clear from bit `378 + n` up in the cycle in which the
acquisition was accepted. -/
theorem data_exact_iff (h : r.SendingSince a w 18) (h1 : 1 ≤ n) (hn : n ≤ 379)
    (ho5 : r.o5Levels a w = List.replicate (n - 1) false ++ [true]) :
    r.DataExact a w n ↔
      ∀ j, 378 + n ≤ j → j < 520 → (r.regs a).regFromVata.getLsbD j = false := by
  have hlen : (r.o6Bits a w).length = n := by
    obtain ⟨m, hm, hlevels⟩ := clocks_firstWord h
    have hsame := congrArg List.length (ho5.symm.trans hlevels)
    simp only [List.length_append, List.length_replicate, List.length_singleton] at hsame
    omega
  constructor
  · intro hexact j hj hj520
    obtain ⟨i, rfl⟩ := Nat.exists_eq_add_of_le (show 378 ≤ j by omega)
    have hbit := dataBit_eq h hn hlen (show i < 379 by omega)
    rw [if_neg (by omega)] at hbit
    rw [← hbit]
    exact hexact.empty i (by omega) (by omega)
  · intro hclear
    refine ⟨hlen, fun j hj => ?_, fun j hj hj379 => ?_, fun b hb hb32 => ?_⟩
    · rw [dataBit_eq h hn hlen (by omega), if_pos hj]
    · rw [dataBit_eq h hn hlen hj379, if_neg (by omega)]
      by_cases hj520 : 378 + j < 520
      · exact hclear _ (by omega) hj520
      · exact BitVec.getLsbD_of_ge _ _ (by omega)
    · rw [dataTdata_sendingSince h (m := 11) (by decide) hb32]
      simp
      omega

/-- The packet of `singleEvent` is that of a readout of one clock. -/
theorem singleEvent_dataExact : singleEvent.DataExact 0 560 1 := by
  have hwhole := singleEvent_sendingSince.complete fun _ _ _ => rfl
  exact (data_exact_iff hwhole (by decide) (by decide)
    (by decide +kernel)).mpr (by decide +kernel)

/-- The configuration of an ASIC that holds ones is read back in cycle `0`; after that a forced
trigger is always on, and the ASIC answers with a readout of one clock. -/
def readBackThenEvent : Run := closedLoop (Regs.reset 0#12 0#520)
  { Asic.blank with shiftReg := BitVec.allOnes 520 } fun t =>
    { Input.quiet with
      getConfig := decide (t = 0), forceTrigger := decide (t ≠ 0), forceTriggerEna := true,
      vataO5 := true }

/-- The bits of the configuration stand behind the sample of the event. -/
theorem readBackThenEvent_stale : ¬ ∀ r : Run, r.FromReset →
    (∀ t, (r.inp t).forceFsmIdle = false) → ∀ a w n, r.SendingSince a w 18 → 1 ≤ n → n ≤ 379 →
      r.o5Levels a w = List.replicate (n - 1) false ++ [true] → r.DataExact a w n := by
  intro hclaim
  have h0 : readBackThenEvent.Idle 0 := (fromReset_ofReset _).idle_zero
  obtain ⟨T, hT, -, -, hreg, -⟩ := exists_get_config (r := readBackThenEvent) (t := 0)
    (fun _ _ => rfl) (wired_closedLoop _ _ _) h0 (by decide) (by decide) (by decide)
  have hones : (readBackThenEvent.regs T).regFromVata = BitVec.allOnes 520 :=
    hreg.trans (by decide +kernel)
  -- back in `IDLE` the trigger is accepted, and nothing stops the acquisition
  have haccepts : readBackThenEvent.Accepts T := by
    have hne : T ≠ 0 := hT.lt.ne'
    refine ⟨hT.idle, ?_⟩
    simp [triggerAcq, readBackThenEvent, closedLoop, drive, hne]
  have ho5 : ∀ u, readBackThenEvent.phase u = .acquiring →
      (readBackThenEvent.inp u).vataO5 = true := by
    intro u hu
    rw [readBackThenEvent, closedLoop_inp]
    exact if_neg (not_configuring_of_acquiring h0 rfl hu)
  have hnext : readBackThenEvent.phase (T + 1) = .acquiring :=
    step_of_idle (idle_iff.mp hT.idle) haccepts.2
  obtain ⟨w, hw, hfirst, hacquiring⟩ := exists_firstWord hnext fun u _ hu =>
    ⟨ho5 u hu, rfl, abortDaq_eq_false_of_timeout_zero ⟨0#12, 0#520, rfl⟩ (fun _ => rfl) u⟩
  have hsince : readBackThenEvent.SendingSince T w 0 :=
    .of_first haccepts (Nat.lt_of_succ_lt hw) hacquiring hfirst
  have hwhole := hsince.complete fun _ _ _ => rfl
  -- `vata_o5` is high at the end of the first readout clock
  obtain ⟨m, hm, hlevels⟩ := clocks_firstWord hsince
  obtain rfl : m = 0 := by
    by_contra hne
    have hmem : false ∈ readBackThenEvent.o5Levels T w := by
      rw [hlevels]
      simp [hne]
    obtain ⟨u, hu, huw, -, hlow⟩ := exists_of_mem_sampled hmem
    rw [ho5 u (hacquiring u hu huw)] at hlow
    simp at hlow
  have hexact := hclaim readBackThenEvent ⟨0#12, 0#520, rfl⟩ (fun _ => rfl) T w 1 hwhole le_rfl
    (by decide) hlevels
  have hbit := dataBit_eq hwhole (by decide) hm (show 1 < 379 by decide)
  rw [hexact.empty 1 le_rfl (by decide), hones] at hbit
  simp at hbit

end Run

end TrackerFpga.Vata
