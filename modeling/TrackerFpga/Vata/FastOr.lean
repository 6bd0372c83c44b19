import TrackerFpga.Vata.IfaceFsm

/-!
# What `disable_fast_or_trigger` disables

Two runs that differ in the line `fast_or_trigger` alone, with `disable_fast_or_trigger` high all
the time.  No process of the interface reads `disable_fast_or_trigger`, so the fast-or line is cut
off where it cannot matter anyway: where `fast_or_trigger_ena` is low, where another trigger fires
in the same cycle, or where neither the main machine nor the timeout machine waits for a trigger
(`Run.Shielded`).  The runs are told apart by their states exactly where one cycle is not shielded
(`undisturbed_iff`).
-/

namespace TrackerFpga.Vata

open Clocked

/-- The inputs of a cycle agree, but for `fast_or_trigger`. -/
def Input.AgreeButFastOr (i j : Input) : Prop := j = { i with fastOrTrigger := j.fastOrTrigger }

/-- Some trigger source other than the fast-or fires that is enabled. -/
def otherTriggerAcq (i : Input) (s : Regs) : Bool :=
  triggerAcq { i with fastOrTrigger := false } s

/-- The registers agree, but for the bit of the fast-or in the packet header. -/
structure Regs.AgreeButFastOr (s s' : Regs) : Prop where
  eq : s' = { s with pktEventTriggers := s'.pktEventTriggers }
  bits : ∀ n ≠ 12, s'.pktEventTriggers.getLsbD n = s.pktEventTriggers.getLsbD n

namespace Run

variable {r r' : Run} {t : ℕ}

/-- Two runs from one state whose inputs agree but for `fast_or_trigger`, with
`disable_fast_or_trigger` high. -/
structure DifferInFastOr (r r' : Run) : Prop where
  start : r'.start = r.start
  inputs : ∀ t, (r.inp t).AgreeButFastOr (r'.inp t)
  disabled : ∀ t, (r.inp t).disableFastOrTrigger = true

/-- The state of the timeout machine in cycle `t`. -/
def timeoutState (r : Run) (t : ℕ) : TimeoutState := (r.regs t).triggerAckTimeout.currentState

/-- Both runs send the same word in cycle `t`, but for bit 12 of word 2 of a packet. -/
structure SameWord (r r' : Run) (t : ℕ) : Prop where
  tvalid : (r'.out t).dataTvalid = (r.out t).dataTvalid
  tlast : (r'.out t).dataTlast = (r.out t).dataTlast
  tdata : ∀ n, ¬ ((r.regs t).currentState = .roWfifo 2 ∧ n = 12) →
    (r'.out t).dataTdata.getLsbD n = (r.out t).dataTdata.getLsbD n

/-- Both runs pass through the same states in the same cycles and send the same words. -/
structure Undisturbed (r r' : Run) : Prop where
  state : ∀ t, (r'.regs t).currentState = (r.regs t).currentState
  timeout : ∀ t, r'.timeoutState t = r.timeoutState t
  word : ∀ t, r.SameWord r' t

/-- In cycle `t` a difference in the fast-or line is of no effect: there is none, the fast-or is
not enabled, another trigger fires, or neither machine waits for a trigger. -/
def Shielded (r r' : Run) (t : ℕ) : Prop :=
  (r'.inp t).fastOrTrigger ≠ (r.inp t).fastOrTrigger →
    (r.inp t).fastOrTriggerEna = true →
    otherTriggerAcq (r.inp t) (r.regs t) = false →
    ¬ r.Idle t ∧ ¬ (r.timeoutState t = .idle ∧ 0#32 < (r.inp t).triggerAckTimeout)

end Run

/-! ## One cycle -/

section Step

variable {i j : Input} {s s' : Regs}

lemma triggerAcq_eq_or (i : Input) (s : Regs) :
    triggerAcq i s = (i.fastOrTrigger && i.fastOrTriggerEna || otherTriggerAcq i s) := by
  simp only [triggerAcq, otherTriggerAcq, Bool.false_and, Bool.or_false]
  cases i.fastOrTrigger && i.fastOrTriggerEna <;> simp

lemma otherTriggerAcq_eq (hi : i.AgreeButFastOr j) (hs : s.AgreeButFastOr s') :
    otherTriggerAcq j s' = otherTriggerAcq i s := by
  rw [hi, hs.eq]
  rfl

/-- Where the line cannot matter both runs see the same trigger. -/
lemma triggerAcq_eq_of_shielded (hi : i.AgreeButFastOr j) (hs : s.AgreeButFastOr s')
    (h : j.fastOrTrigger ≠ i.fastOrTrigger → i.fastOrTriggerEna = true →
      otherTriggerAcq i s = true) : triggerAcq j s' = triggerAcq i s := by
  have hena : j.fastOrTriggerEna = i.fastOrTriggerEna := by rw [hi]
  rw [triggerAcq_eq_or, triggerAcq_eq_or, otherTriggerAcq_eq hi hs, hena]
  by_cases heq : j.fastOrTrigger = i.fastOrTrigger
  · rw [heq]
  · cases hon : i.fastOrTriggerEna
    · simp
    · simp [h heq hon]

/-- Where it can, one run sees a trigger and the other does not. -/
lemma triggerAcq_ne (hi : i.AgreeButFastOr j) (hs : s.AgreeButFastOr s')
    (hline : j.fastOrTrigger ≠ i.fastOrTrigger) (hena : i.fastOrTriggerEna = true)
    (hother : otherTriggerAcq i s = false) : triggerAcq j s' ≠ triggerAcq i s := by
  have hena' : j.fastOrTriggerEna = true := by rw [hi, hena]
  rw [triggerAcq_eq_or, triggerAcq_eq_or, otherTriggerAcq_eq hi hs, hother, hena, hena']
  simpa using hline

/-- The next-state process sees the line through `trigger_acq` in `IDLE` only. -/
lemma control_eq (hi : i.AgreeButFastOr j) (hs : s.AgreeButFastOr s')
    (h : s.currentState = .idle → triggerAcq j s' = triggerAcq i s) :
    control j s' = control i s := by
  by_cases hidle : s.currentState = .idle
  · have hidle' : s'.currentState = .idle := by rw [hs.eq, hidle]
    have htrig := h hidle
    rw [hi] at htrig ⊢
    simp only [control, hidle, hidle', htrig]
  · have hcontrol : ∀ b, control { i with fastOrTrigger := b } s = control i s := by
      intro b
      unfold control
      cases hstate : s.currentState
      case idle => exact absurd hstate hidle
      all_goals rfl
    rw [hi, hs.eq]
    exact hcontrol _

lemma step_timeout_eq (hi : i.AgreeButFastOr j) (hs : s.AgreeButFastOr s')
    (h : s.triggerAckTimeout.currentState = .idle → 0#32 < i.triggerAckTimeout →
      triggerAcq j s' = triggerAcq i s) :
    (step j s').triggerAckTimeout = (step i s).triggerAckTimeout := by
  have hack : j.triggerAck = i.triggerAck := by rw [hi]
  have hlimit : j.triggerAckTimeout = i.triggerAckTimeout := by rw [hi]
  have hmachine : s'.triggerAckTimeout = s.triggerAckTimeout := by rw [hs.eq]
  simp only [step_triggerAckTimeout, hack, hlimit, hmachine]
  by_cases hwaits : s.triggerAckTimeout.currentState = .idle ∧ 0#32 < i.triggerAckTimeout
  · rw [h hwaits.1 hwaits.2]
  · -- the machine is busy, or a timeout of 0 switches it off
    cases hstate : s.triggerAckTimeout.currentState
    case idle =>
        have hzero : ¬ i.triggerAckTimeout > 0#32 := fun hpos => hwaits ⟨hstate, hpos⟩
        simp only [TriggerAckTimeout.step, TriggerAckTimeout.nextState,
          TriggerAckTimeout.counterClr, hstate, decide_eq_false hzero, Bool.and_false]
    all_goals simp only [TriggerAckTimeout.step, TriggerAckTimeout.nextState,
      TriggerAckTimeout.counterClr, hstate]

/-- The trigger bits of the header agree but for the bit of the line. -/
lemma getLsbD_eventTriggers (hi : i.AgreeButFastOr j) (hs : s.AgreeButFastOr s') {n : ℕ}
    (hn : n ≠ 12) : (eventTriggers j s').getLsbD n = (eventTriggers i s).getLsbD n := by
  have hedges : vataHitsRisingEdge s' = vataHitsRisingEdge s := by
    rw [hs.eq]
    rfl
  rw [hi]
  simp only [eventTriggers, hedges, BitVec.getLsbD_append]
  rcases Nat.lt_or_ge n 12 with hlt | hge
  · simp [hlt]
  · have hne : n - 12 ≠ 0 := by omega
    simp [hge.not_gt, hne]

/-- So do the words of the packet. -/
lemma getLsbD_wfifoWord_of_agree (hs : s.AgreeButFastOr s') {k : Fin 19} {n : ℕ}
    (h : ¬ (k = 2 ∧ n = 12)) :
    (wfifoWord s' k).getLsbD n = (wfifoWord s k).getLsbD n := by
  by_cases hk : k = 2
  · subst hk
    have hbits := hs.bits n fun hn => h ⟨rfl, hn⟩
    show (s'.pktEventTriggers.setWidth 32).getLsbD n = (s.pktEventTriggers.setWidth 32).getLsbD n
    rw [BitVec.getLsbD_setWidth, BitVec.getLsbD_setWidth, hbits]
  · rw [hs.eq]
    unfold wfifoWord
    split <;> first | rfl | exact absurd rfl hk

/-- A shielded cycle keeps the registers in agreement. -/
lemma agree_step (hi : i.AgreeButFastOr j) (hs : s.AgreeButFastOr s')
    (hmain : s.currentState = .idle → triggerAcq j s' = triggerAcq i s)
    (htimeout : s.triggerAckTimeout.currentState = .idle → 0#32 < i.triggerAckTimeout →
      triggerAcq j s' = triggerAcq i s) :
    (step i s).AgreeButFastOr (step j s') := by
  have hcontrol := control_eq hi hs hmain
  have hnext := step_timeout_eq hi hs htimeout
  simp only [step_triggerAckTimeout] at hnext
  refine ⟨?_, fun n hn => ?_⟩
  · have hregs : nextRegFromVata j (control i s) s'.regFromVata =
        nextRegFromVata i (control i s) s.regFromVata := by
      rw [hi, hs.eq]
      rfl
    have hclr : (outputs j s').eventIdClr = (outputs i s).eventIdClr := by
      rw [hi, hs.eq]
      unfold outputs
      cases s.currentState <;> rfl
    simp only [step, hcontrol, hnext, hregs, hclr]
    rw [hi, hs.eq]
    rfl
  · show BitVec.getLsbD (if (control j s').setPktData then _ else _) n =
      BitVec.getLsbD (if (control i s).setPktData then _ else _) n
    rw [hcontrol]
    split_ifs
    · exact getLsbD_eventTriggers hi hs hn
    · exact hs.bits n hn

end Step

namespace Run

variable {r r' : Run} {t : ℕ}

/-- Registers in agreement send the same word. -/
lemma sameWord_of_agree (hs : (r.regs t).AgreeButFastOr (r'.regs t)) : r.SameWord r' t := by
  have hstate : (r'.regs t).currentState = (r.regs t).currentState := by rw [hs.eq]
  constructor
  · simp only [out, outputs, hstate]
    cases (r.regs t).currentState <;> rfl
  · simp only [out, outputs, hstate]
    cases (r.regs t).currentState <;> rfl
  · intro n hn
    simp only [out, outputs, hstate]
    cases hst : (r.regs t).currentState
    case roWfifo k =>
        show (wfifoWord (r'.regs t) k).getLsbD n = (wfifoWord (r.regs t) k).getLsbD n
        refine getLsbD_wfifoWord_of_agree hs fun hbit => hn ⟨?_, hbit.2⟩
        rw [hst, hbit.1]
    all_goals rfl

section Pair

variable (h : r.DifferInFastOr r')
include h

/-- Registers in agreement see the same trigger where the cycle is shielded. -/
lemma triggerAcq_eq (hs : (r.regs t).AgreeButFastOr (r'.regs t)) (hshield : r.Shielded r' t)
    (hwaits : r.Idle t ∨ r.timeoutState t = .idle ∧ 0#32 < (r.inp t).triggerAckTimeout) :
    triggerAcq (r'.inp t) (r'.regs t) = triggerAcq (r.inp t) (r.regs t) := by
  refine triggerAcq_eq_of_shielded (h.inputs t) hs fun hline hena => ?_
  by_contra hother
  obtain ⟨hbusy, hoff⟩ := hshield hline hena (Bool.eq_false_of_not_eq_true hother)
  rcases hwaits with hidle | hidle
  · exact hbusy hidle
  · exact hoff hidle

/-- While all cycles were shielded the registers agree. -/
lemma agree_of_shielded (hshield : ∀ u < t, r.Shielded r' u) :
    (r.regs t).AgreeButFastOr (r'.regs t) := by
  induction t with
  | zero =>
      have hzero : r'.regs 0 = r.regs 0 := h.start
      rw [hzero]
      exact ⟨rfl, fun _ _ => rfl⟩
  | succ t ih =>
      have hs := ih fun u hu => hshield u (by omega)
      rw [regs_succ, regs_succ]
      exact agree_step (h.inputs t) hs
        (fun hidle => triggerAcq_eq h hs (hshield t (by omega)) (.inl hidle))
        (fun hidle hpos => triggerAcq_eq h hs (hshield t (by omega)) (.inr ⟨hidle, hpos⟩))

/-- A cycle that is not shielded shows in the states of the next one. -/
lemma states_ne_of_not_shielded (hs : (r.regs t).AgreeButFastOr (r'.regs t))
    (hopen : ¬ r.Shielded r' t) :
    (r'.regs (t + 1)).currentState ≠ (r.regs (t + 1)).currentState ∨
      r'.timeoutState (t + 1) ≠ r.timeoutState (t + 1) := by
  simp only [Shielded, Classical.not_imp] at hopen
  obtain ⟨hline, hena, hother, hwaits⟩ := hopen
  have hne := triggerAcq_ne (h.inputs t) hs hline hena hother
  by_cases hidle : r.Idle t
  · left
    have hstate : (r.regs t).currentState = .idle := hidle
    have hstate' : (r'.regs t).currentState = .idle := by rw [hs.eq, hstate]
    simp only [regs_succ, step_currentState, control, hstate, hstate']
    cases htrig : triggerAcq (r.inp t) (r.regs t) <;>
      cases htrig' : triggerAcq (r'.inp t) (r'.regs t)
    · exact absurd (htrig'.trans htrig.symm) hne
    · simp only [Bool.false_eq_true, if_false, if_true]
      split_ifs <;> simp
    · simp only [Bool.false_eq_true, if_false, if_true]
      split_ifs <;> simp
    · exact absurd (htrig'.trans htrig.symm) hne
  · right
    obtain ⟨htimeout, hpos⟩ : r.timeoutState t = .idle ∧ 0#32 < (r.inp t).triggerAckTimeout := by
      by_contra hoff
      exact hwaits ⟨hidle, hoff⟩
    have hlimit : (r'.inp t).triggerAckTimeout = (r.inp t).triggerAckTimeout := by
      rw [h.inputs t]
    have hmachine : (r.regs t).triggerAckTimeout.currentState = .idle := htimeout
    have hmachine' : (r'.regs t).triggerAckTimeout.currentState = .idle := by
      rw [hs.eq, hmachine]
    have hpos' : (r.inp t).triggerAckTimeout > 0#32 := hpos
    simp only [timeoutState, regs_succ, step_triggerAckTimeout, TriggerAckTimeout.step,
      TriggerAckTimeout.nextState, hmachine, hmachine', hlimit, decide_eq_true hpos',
      Bool.and_true]
    cases htrig : triggerAcq (r.inp t) (r.regs t) <;>
      cases htrig' : triggerAcq (r'.inp t) (r'.regs t)
    · exact absurd (htrig'.trans htrig.symm) hne
    · simp
    · simp
    · exact absurd (htrig'.trans htrig.symm) hne

/-- **What the disable protects from.**  Two runs with the fast-or disabled that differ in
`fast_or_trigger` alone pass through the same states and send the same words, but for bit 12 of
word 2, exactly when every cycle is shielded. -/
theorem undisturbed_iff : r.Undisturbed r' ↔ ∀ t, r.Shielded r' t := by
  constructor
  · intro hsame t
    induction t using Nat.strong_induction_on with
    | _ t ih =>
        by_contra hopen
        rcases states_ne_of_not_shielded h (agree_of_shielded h ih) hopen with hne | hne
        · exact hne (hsame.state (t + 1))
        · exact hne (hsame.timeout (t + 1))
  · intro hshield
    have hagree : ∀ t, (r.regs t).AgreeButFastOr (r'.regs t) :=
      fun t => agree_of_shielded h fun u _ => hshield u
    refine ⟨fun t => ?_, fun t => ?_, fun t => sameWord_of_agree (hagree t)⟩
    · rw [(hagree t).eq]
    · rw [timeoutState, (hagree t).eq]
      rfl

end Pair

/-- The fast-or is enabled by `fast_or_trigger_ena` and disabled by `disable_fast_or_trigger`;
its line is `line` in cycle `0`. -/
def disabledFastOr (line : Bool) : Run := ofReset fun t =>
  { Input.quiet with
    fastOrTrigger := line && decide (t = 0), fastOrTriggerEna := true,
    disableFastOrTrigger := true }

lemma disabledFastOr_differ : (disabledFastOr false).DifferInFastOr (disabledFastOr true) where
  start := rfl
  inputs _ := rfl
  disabled _ := rfl

/-- The runs of `disabledFastOr` are told apart: one starts an acquisition, in cycle `0`, which
is not shielded. -/
theorem disabledFastOr_not_undisturbed :
    ¬ (disabledFastOr false).Undisturbed (disabledFastOr true) := by
  rw [undisturbed_iff disabledFastOr_differ]
  intro hshield
  exact (hshield 0 (by decide) (by decide) (by decide)).1 (by decide)

/-- The disabled line starts an acquisition. -/
theorem disabledFastOr_disturbed :
    (disabledFastOr false).DifferInFastOr (disabledFastOr true) ∧
      (disabledFastOr false).Idle 1 ∧ (disabledFastOr true).Accepts 0 ∧
      ¬ (disabledFastOr false).Undisturbed (disabledFastOr true) := by
  refine ⟨disabledFastOr_differ, by decide, by decide, fun hsame => ?_⟩
  have hstate := hsame.state 1
  revert hstate
  decide

end Run

end TrackerFpga.Vata
