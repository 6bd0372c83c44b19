import TrackerFpga.Sync.Distn

/-!
# Whether the cores take an event together

A hit that reaches the cores in one cycle is an edge in all of them in the next one, and it
reached them only because no core was busy.  So where an edge shows, the cores were all in
`IDLE` one cycle earlier and are now all in `IDLE` or have all left it: a local trigger is taken
by all cores or by none (`local_event_together`).

The shared `force_trigger` does not pass through the busy gate.  It is taken by the cores that
happen to be in `IDLE` (`force_trigger_together_iff`).
-/

namespace TrackerFpga.Sync

open Vata

namespace Run

variable {N : ℕ} {r : Run N} {mask : BitVec 12} {t : ℕ}

/-! ## Local hits -/

/-- The cores are set up to be triggered by local hits only, with one mask, and no hit is
disabled; no configuration command comes. -/
structure LocalOnly (r : Run N) (mask : BitVec 12) : Prop where
  force : ∀ t n, ((r.inp t).cores n).forceTriggerEna = false
  fastOr : ∀ t n, ((r.inp t).cores n).fastOrTriggerEna = false
  ack : ∀ t n, ((r.inp t).cores n).ackTriggerEna = false
  masks : ∀ t n, ((r.inp t).cores n).localVataTriggerEna = mask
  hits : ∀ t, (r.inp t).disableHits = 0#32
  setConfig : ∀ t n, ((r.inp t).cores n).setConfig = false
  getConfig : ∀ t n, ((r.inp t).cores n).getConfig = false

/-- `vata_hits_rising_edge` of core `n`. -/
def edges (r : Run N) (n : Fin N) (t : ℕ) : RisingEdgeVector :=
  ((r.regs t).cores n).risingEdgeVector

/-- The edge detectors of all cores hold the same. -/
lemma edges_eq (hr : r.FromReset) (m n : Fin N) (t : ℕ) : r.edges m t = r.edges n t := by
  induction t with
  | zero =>
      obtain ⟨⟨edges, hcores⟩, -⟩ := hr
      obtain ⟨_, hm⟩ := hcores m
      obtain ⟨_, hn⟩ := hcores n
      have hm' : (r.regs 0).cores m = _ := hm
      have hn' : (r.regs 0).cores n = _ := hn
      simp [Run.edges, hm', hn', Regs.reset]
  | succ t ih =>
      have hstep : ∀ n, r.edges n (t + 1) =
          (r.edges n t).step (vataHits (r.inp t) (r.regs t)) := fun n => rfl
      rw [hstep, hstep, ih]

/-- With local triggers only, all cores see the trigger or none does. -/
lemma triggerAcq_eq (hr : r.FromReset) (hlocal : r.LocalOnly mask) (m n : Fin N) (t : ℕ) :
    triggerAcq (coreInput (r.inp t) (r.regs t) m) ((r.regs t).cores m) =
      triggerAcq (coreInput (r.inp t) (r.regs t) n) ((r.regs t).cores n) := by
  have hedges : vataHitsRisingEdge ((r.regs t).cores m) = vataHitsRisingEdge ((r.regs t).cores n) :=
    congrArg RisingEdgeVector.risingEdgeOut (edges_eq hr m n t)
  simp only [triggerAcq, coreInput, hlocal.force, hlocal.fastOr, hlocal.ack, hlocal.masks, hedges,
    Bool.and_false, Bool.or_self]

lemma exists_edge_of_triggerAcq (hlocal : r.LocalOnly mask) {n : Fin N}
    (htrig : triggerAcq (coreInput (r.inp t) (r.regs t) n) ((r.regs t).cores n) = true) :
    (r.edges n t).risingEdgeOut ≠ 0#12 := by
  intro hzero
  have hedges : vataHitsRisingEdge ((r.regs t).cores n) = 0#12 := hzero
  simp [triggerAcq, coreInput, hlocal.force, hlocal.fastOr, hlocal.ack, hedges] at htrig

/-- An edge that shows was let through one cycle earlier, when no core was busy. -/
lemma idle_of_edge (hN : N ≤ 12) (hlocal : r.LocalOnly mask) {n : Fin N}
    (hedge : (r.edges n (t + 1)).risingEdgeOut ≠ 0#12) (m : Fin N) : r.state m t = .idle := by
  by_contra hbusy
  have hhits := vataHits_eq_zero_of_busy (i := r.inp t) hN (hlocal.hits t) hbusy
  have hstep : r.edges n (t + 1) = (r.edges n t).step (vataHits (r.inp t) (r.regs t)) := rfl
  rw [hstep, hhits] at hedge
  simp [RisingEdgeVector.step] at hedge

/-- A core that is in `IDLE` leaves it by a trigger only. -/
lemma idle_succ (hlocal : r.LocalOnly mask) {n : Fin N} (hidle : r.state n t = .idle)
    (hno : triggerAcq (coreInput (r.inp t) (r.regs t) n) ((r.regs t).cores n) = false) :
    r.state n (t + 1) = .idle := by
  have hstate : ((r.regs t).cores n).currentState = .idle := hidle
  have hset : (coreInput (r.inp t) (r.regs t) n).setConfig = false := hlocal.setConfig t n
  have hget : (coreInput (r.inp t) (r.regs t) n).getConfig = false := hlocal.getConfig t n
  have hnext : r.state n (t + 1) =
      (Vata.control (coreInput (r.inp t) (r.regs t) n) ((r.regs t).cores n)).nextState := rfl
  rw [hnext, Vata.control, hstate]
  simp [hno, hset, hget]

/-- Where a trigger fires the cores are all in `IDLE`, or none is. -/
lemma idle_together (hN : N ≤ 12) (hr : r.FromReset) (hlocal : r.LocalOnly mask) {n : Fin N}
    (htrig : triggerAcq (coreInput (r.inp t) (r.regs t) n) ((r.regs t).cores n) = true) :
    (∀ m, r.state m t = .idle) ∨ ∀ m, r.state m t ≠ .idle := by
  cases t with
  | zero => exact .inl (state_zero hr)
  | succ t =>
      have hbefore := idle_of_edge hN hlocal (exists_edge_of_triggerAcq hlocal htrig)
      cases hprev : triggerAcq (coreInput (r.inp t) (r.regs t) n) ((r.regs t).cores n)
      · refine .inl fun m => idle_succ hlocal (hbefore m) ?_
        rw [triggerAcq_eq hr hlocal m n, hprev]
      · refine .inr fun m => ?_
        have hstarts := (r.starts_iff m t).mpr
          ⟨hbefore m, by rw [triggerAcq_eq hr hlocal m n, hprev]⟩
        rw [hstarts.2]
        simp

/-- **A local event is taken by all cores.**  From reset, with local triggers only, whenever one
core starts an acquisition all cores start one in the same cycle. -/
theorem local_event_together (hN : N ≤ 12) (hr : r.FromReset) (hlocal : r.LocalOnly mask) :
    ∀ t n, r.Starts n t → ∀ m, r.Starts m t := by
  intro t n hn m
  obtain ⟨hidle, htrig⟩ := (r.starts_iff n t).mp hn
  refine (r.starts_iff m t).mpr ⟨?_, by rw [triggerAcq_eq hr hlocal m n, htrig]⟩
  rcases idle_together hN hr hlocal htrig with hall | hnone
  · exact hall m
  · exact absurd hidle (hnone n)

/-- Two cores of which the first sees a hit from cycle `0` on. -/
def twoCoresHit : Run 2 where
  start := { cores := fun _ => Regs.reset 0#12 0#520, control := .reset }
  inp _ :=
    { cores := fun n => { Input.quiet with vataO6 := decide (n = 1), localVataTriggerEna := 1#12 }
      openPorts := fun _ => 0#2
      disableHits := 0#32
      globalHitEna := true
      axiAwaddr := 0#5
      axiWdata := 0#32
      axiWready := false }

/-- The first core of `twoCoresHit` starts in cycle `1`, and so does the second. -/
theorem twoCoresHit_together : twoCoresHit.Starts 1 1 :=
  local_event_together (by decide) ⟨⟨0#12, fun _ => ⟨0#520, rfl⟩⟩, rfl⟩
    ⟨fun _ _ => rfl, fun _ _ => rfl, fun _ _ => rfl, fun _ _ => rfl, fun _ => rfl,
      fun _ _ => rfl, fun _ _ => rfl⟩ 1 0 ⟨by decide +kernel, by decide +kernel⟩ 1

/-! ## The forced trigger -/

/-- The line `force_trigger` is high in cycle `t`. -/
def ForceTriggered (r : Run N) (t : ℕ) : Prop := forceTrigger (r.regs t) = true

instance (r : Run N) : DecidablePred r.ForceTriggered :=
  fun _ => inferInstanceAs (Decidable (_ = true))

/-- A line that is high was raised by a write in the cycle before. -/
lemma wready_of_forceTriggered (h : r.ForceTriggered (t + 1)) :
    (r.inp t).axiWready = true ∧ (r.regs t).control.lastAxiWready = false := by
  refine ControlRegisterTriggers.wready_of_triggers (r.inp t).axiAwaddr (r.inp t).axiWdata
    fun hzero => ?_
  have hcontrol : (r.regs (t + 1)).control.triggers = 0#2 := hzero
  simp [ForceTriggered, forceTrigger, hcontrol] at h

/-- The line is high for one cycle at a time. -/
lemma forceTriggered_one_cycle (hr : r.FromReset) (h : r.ForceTriggered t) :
    ¬ r.ForceTriggered (t + 1) := by
  intro hnext
  cases t with
  | zero =>
      have hreset : (r.regs 0).control = .reset := hr.2
      simp [ForceTriggered, forceTrigger, hreset, ControlRegisterTriggers.reset] at h
  | succ t =>
      have hlast : (r.regs (t + 1)).control.lastAxiWready = (r.inp t).axiWready := rfl
      rw [(wready_of_forceTriggered hnext).2, (wready_of_forceTriggered h).1] at hlast
      simp at hlast

/-- A forced trigger is taken by the cores in `IDLE`. -/
lemma starts_iff_idle_of_forced (hena : ∀ t n, ((r.inp t).cores n).forceTriggerEna = true)
    (ht : r.ForceTriggered t) (n : Fin N) : r.Starts n t ↔ r.state n t = .idle := by
  have hline : forceTrigger (r.regs t) = true := ht
  have htrig : triggerAcq (coreInput (r.inp t) (r.regs t) n) ((r.regs t).cores n) = true := by
    simp [triggerAcq, coreInput, hline, hena]
  exact (r.starts_iff n t).trans (and_iff_left htrig)

/-- **The forced trigger.**  With `force_trigger_ena` set in all cores, `force_trigger` is raised
for one cycle at a time, and a pulse starts an acquisition in all cores or in none exactly when it
meets all of them in `IDLE` or none of them. -/
theorem force_trigger_together_iff (hr : r.FromReset)
    (hena : ∀ t n, ((r.inp t).cores n).forceTriggerEna = true) :
    ∀ t, r.ForceTriggered t → ¬ r.ForceTriggered (t + 1) ∧
      (((∀ n, r.Starts n t) ∨ ∀ n, ¬ r.Starts n t) ↔
        (∀ n, r.state n t = .idle) ∨ ∀ n, r.state n t ≠ .idle) := by
  intro t ht
  refine ⟨forceTriggered_one_cycle hr ht, ?_⟩
  simp only [starts_iff_idle_of_forced hena ht, ne_eq]

/-- Two cores that are forced in the cycles `2` and `612`; the ASIC of the first answers with a
readout of one clock, that of the second does not end its conversion. -/
def twoCoresForced : Run 2 where
  start := { cores := fun _ => Regs.reset 0#12 0#520, control := .reset }
  inp t :=
    { cores := fun n => { Input.quiet with vataO5 := decide (n = 0), forceTriggerEna := true }
      openPorts := fun _ => 0#2
      disableHits := 0#32
      globalHitEna := true
      axiAwaddr := 0#5
      axiWdata := 1#32
      axiWready := decide (t = 1 ∨ t = 611) }

/-- The first pulse meets both cores in `IDLE` and is taken by both. -/
theorem twoCoresForced_first :
    (∀ n, twoCoresForced.Starts n 2) ∨ ∀ n, ¬ twoCoresForced.Starts n 2 :=
  (force_trigger_together_iff ⟨⟨0#12, fun _ => ⟨0#520, rfl⟩⟩, rfl⟩ (fun _ _ => rfl) 2
    (by decide)).2.mpr (.inl (by decide +kernel))

/-- The second pulse meets the first core in `IDLE` again and the second still busy. -/
theorem twoCoresForced_apart : ¬ ∀ (N : ℕ) (r : Run N), 1 ≤ N → N ≤ 12 → r.FromReset →
    (∀ t n, ((r.inp t).cores n).forceTriggerEna = true) →
      ∀ t, r.ForceTriggered t → (∀ n, r.Starts n t) ∨ ∀ n, ¬ r.Starts n t := by
  intro hclaim
  obtain ⟨hidle, hbusy, hpulse⟩ : twoCoresForced.state 0 612 = .idle ∧
      twoCoresForced.state 1 612 ≠ .idle ∧ twoCoresForced.ForceTriggered 612 := by
    decide +kernel
  have hstarts := starts_iff_idle_of_forced (r := twoCoresForced) (fun _ _ => rfl) hpulse
  rcases hclaim 2 twoCoresForced (by decide) (by decide) ⟨⟨0#12, fun _ => ⟨0#520, rfl⟩⟩, rfl⟩
    (fun _ _ => rfl) 612 hpulse with hall | hnone
  · exact hbusy ((hstarts 1).mp (hall 1))
  · exact hnone 0 ((hstarts 0).mpr hidle)

end Run

end TrackerFpga.Sync
