import TrackerFpga.System.EventIds

/-!
# A disabled core is not seen

The mask `disable_hits` switches the hits and the busy line of a core off in `sync_vata_distn`.  The
cores have no other way to each other and to the trigger module: in two runs that differ in disabled
cores only, in whatever way, the other cores do the same in every cycle, and so do the lines to the
trigger module and the event ids (`disabled_invisible`).
-/

namespace TrackerFpga.Sync

variable {N : ℕ} {D : Set (Fin N)} {i i' : Input N} {s s' : State N}

/-! ## One cycle -/

/-- The states differ in the cores of `D` only. -/
structure State.SameOutside (D : Set (Fin N)) (s s' : State N) : Prop where
  cores : ∀ n, n ∉ D → s.cores n = s'.cores n
  control : s.control = s'.control

/-- The inputs differ in those of the cores of `D` only. -/
structure Input.SameOutside (D : Set (Fin N)) (i i' : Input N) : Prop where
  cores : ∀ n, n ∉ D → i.cores n = i'.cores n
  openPorts : i.openPorts = i'.openPorts
  disableHits : i.disableHits = i'.disableHits
  globalHitEna : i.globalHitEna = i'.globalHitEna
  axiAwaddr : i.axiAwaddr = i'.axiAwaddr
  axiWdata : i.axiWdata = i'.axiWdata
  axiWready : i.axiWready = i'.axiWready

/-- The cores of `D` are disabled. -/
def Input.Disables (i : Input N) (D : Set (Fin N)) : Prop :=
  ∀ n ∈ D, i.disableHits.getLsbD n = true

section Cycle

variable (hdis : i.Disables D) (hi : i.SameOutside D i') (hs : s.SameOutside D s')
include hdis hi hs

/-- The two lines of a port are the same, or the mask switches them off. -/
lemma disabled_or_same (m : Fin 12) : i.disableHits.getLsbD m = true ∨
    vataHitBusy i s m = vataHitBusy i' s' m := by
  by_cases hm : m.val < N
  · by_cases hD : (⟨m.val, hm⟩ : Fin N) ∈ D
    · exact .inl (hdis _ hD)
    · refine .inr ?_
      rw [vataHitBusy, vataHitBusy, dif_pos hm, dif_pos hm, hi.cores _ hD, hs.cores _ hD]
  · refine .inr ?_
    rw [vataHitBusy, vataHitBusy, dif_neg hm, dif_neg hm, hi.openPorts]

lemma vataHit_same (m : Fin 12) : vataHit i s m = vataHit i' s' m := by
  rcases disabled_or_same hdis hi hs m with hoff | hsame
  · rw [vataHit, vataHit, ← hi.disableHits, hoff]
    simp
  · rw [vataHit, vataHit, hsame, hi.disableHits, hi.globalHitEna]

lemma vataBusy_same (m : Fin 12) : vataBusy i s m = vataBusy i' s' m := by
  rcases disabled_or_same hdis hi hs m with hoff | hsame
  · rw [vataBusy, vataBusy, ← hi.disableHits, hoff]
    simp
  · rw [vataBusy, vataBusy, hsame, hi.disableHits]

lemma feeBusy_same : feeBusy i s = feeBusy i' s' := by
  rw [feeBusy, feeBusy, funext (vataBusy_same hdis hi hs)]

lemma vataHits_same : vataHits i s = vataHits i' s' := by
  rw [vataHits, vataHits, funext (vataHit_same hdis hi hs), feeBusy_same hdis hi hs]

lemma coreInput_same {n : Fin N} (hn : n ∉ D) : coreInput i s n = coreInput i' s' n := by
  rw [coreInput, coreInput, hi.cores n hn, vataHits_same hdis hi hs, forceTrigger, forceTrigger,
    hs.control]

lemma State.SameOutside.step : (step i s).SameOutside D (step i' s') where
  cores n hn := by
    rw [Sync.step, Sync.step]
    simp only [coreInput_same hdis hi hs hn, hs.cores n hn]
  control := by
    rw [Sync.step, Sync.step]
    simp only [hs.control, hi.axiAwaddr, hi.axiWdata, hi.axiWready]

end Cycle

/-! ## The lines to the trigger module -/

namespace Run

/-- `FEE_sideA_hit`, which `fee_hit_sideA_stay_high_inst` makes of the hits of the first six
cores. -/
def feeSideAHit (r : Run N) : ℕ → Bool :=
  StayHigh.out 4 5 fun t => ([0, 1, 2, 3, 4, 5] : List (Fin 12)).any (vataHit (r.inp t) (r.regs t))

/-- `FEE_sideB_hit`, of the other six. -/
def feeSideBHit (r : Run N) : ℕ → Bool :=
  StayHigh.out 4 5 fun t =>
    ([6, 7, 8, 9, 10, 11] : List (Fin 12)).any (vataHit (r.inp t) (r.regs t))

end Run

end TrackerFpga.Sync

namespace TrackerFpga.System

variable {N R : ℕ} {D : Set (Fin N)}

/-- The designs differ in the cores of `D` only. -/
structure State.SameOutside (D : Set (Fin N)) (s s' : State N) : Prop where
  sync : s.sync.SameOutside D s'.sync
  feeReadyStayHigh : s.feeReadyStayHigh = s'.feeReadyStayHigh
  genEventIdGo : s.genEventIdGo = s'.genEventIdGo
  eventIdGen : s.eventIdGen = s'.eventIdGen

/-- Their inputs do. -/
structure Input.SameOutside (D : Set (Fin N)) (i i' : Input N) : Prop where
  sync : i.sync.SameOutside D i'.sync
  updateEventId : i.updateEventId = i'.updateEventId
  newEventId : i.newEventId = i'.newEventId

section Cycle

variable {i i' : Input N} {s s' : State N}

/-- The event id lines are the same too. -/
lemma wire_same (hi : i.SameOutside D i') (hs : s.SameOutside D s') :
    (wire i s).SameOutside D (wire i' s') where
  cores n hn := by
    simp only [wire, hi.sync.cores n hn, hs.eventIdGen]
  openPorts := hi.sync.openPorts
  disableHits := hi.sync.disableHits
  globalHitEna := hi.sync.globalHitEna
  axiAwaddr := hi.sync.axiAwaddr
  axiWdata := hi.sync.axiWdata
  axiWready := hi.sync.axiWready

lemma State.SameOutside.step (hdis : i.sync.Disables D) (hi : i.SameOutside D i')
    (hs : s.SameOutside D s') : (System.step R i s).SameOutside D (System.step R i' s') := by
  have hdis' : (wire i s).Disables D := hdis
  have hwire := wire_same hi hs
  have hbusy := Sync.feeBusy_same hdis' hwire hs.sync
  refine ⟨Sync.State.SameOutside.step hdis' hwire hs.sync, ?_, ?_, ?_⟩
  · simp only [System.step, hbusy, hs.feeReadyStayHigh]
  · simp only [System.step, hbusy, hs.feeReadyStayHigh, hs.genEventIdGo]
  · simp only [System.step, genInput, hs.genEventIdGo, hs.eventIdGen, hi.updateEventId,
      hi.newEventId]

end Cycle

namespace Run

variable {r r' : Run N R}

/-- What the trigger module and the cores outside `D` show in cycle `t` is the same in both runs. -/
structure LooksSame (D : Set (Fin N)) (r r' : Run N R) (t : ℕ) : Prop where
  feeBusy : r.sync.feeBusy t = r'.sync.feeBusy t
  feeReady : r.sync.feeReady t = r'.sync.feeReady t
  feeSideAHit : r.sync.feeSideAHit t = r'.sync.feeSideAHit t
  feeSideBHit : r.sync.feeSideBHit t = r'.sync.feeSideBHit t
  eventIdGen : (r.regs t).eventIdGen = (r'.regs t).eventIdGen
  cores : ∀ n, n ∉ D → (r.sync.core n).regs t = (r'.sync.core n).regs t ∧
    (r.sync.core n).out t = (r'.sync.core n).out t

section Disabled

variable (hdis : ∀ t, (r.inp t).sync.Disables D) (hstart : r.start.SameOutside D r'.start)
  (hinp : ∀ t, (r.inp t).SameOutside D (r'.inp t))
include hdis hstart hinp

lemma regs_same (t : ℕ) : (r.regs t).SameOutside D (r'.regs t) := by
  induction t with
  | zero => exact hstart
  | succ t ih =>
      rw [regs_succ, regs_succ]
      exact ih.step (hdis t) (hinp t)

lemma sync_regs_same (t : ℕ) : (r.sync.regs t).SameOutside D (r'.sync.regs t) := by
  rw [sync_regs, sync_regs]
  exact (regs_same hdis hstart hinp t).sync

lemma sync_inp_same (t : ℕ) : (r.sync.inp t).SameOutside D (r'.sync.inp t) :=
  wire_same (hinp t) (regs_same hdis hstart hinp t)

/-- **A disabled core is not seen**: neither by the other cores nor by the trigger module. -/
theorem disabled_invisible : ∀ t, LooksSame D r r' t := by
  have hdis' : ∀ t, (r.sync.inp t).Disables D := hdis
  have hinp' := sync_inp_same hdis hstart hinp
  have hregs := sync_regs_same hdis hstart hinp
  have hbusy : r.sync.feeBusy = r'.sync.feeBusy :=
    funext fun t => Sync.feeBusy_same (hdis' t) (hinp' t) (hregs t)
  have hhit : ∀ t, Sync.vataHit (r.sync.inp t) (r.sync.regs t) =
      Sync.vataHit (r'.sync.inp t) (r'.sync.regs t) :=
    fun t => funext (Sync.vataHit_same (hdis' t) (hinp' t) (hregs t))
  intro t
  refine ⟨by rw [hbusy], ?_, ?_, ?_, (regs_same hdis hstart hinp t).eventIdGen, fun n hn => ?_⟩
  · rw [Sync.Run.feeReady, Sync.Run.feeReady, hbusy]
  · simp only [Sync.Run.feeSideAHit, hhit]
  · simp only [Sync.Run.feeSideBHit, hhit]
  · have hcore : (r.sync.core n).regs t = (r'.sync.core n).regs t := by
      rw [Sync.Run.core_regs, Sync.Run.core_regs, (hregs t).cores n hn]
    have hinput : (r.sync.core n).inp t = (r'.sync.core n).inp t :=
      Sync.coreInput_same (hdis' t) (hinp' t) (hregs t) hn
    exact ⟨hcore, by rw [Vata.Run.out, Vata.Run.out, hcore, hinput]⟩

end Disabled

/-- Two cores of which the second is disabled, and sees a hit where `noisy` is high. -/
def oneDisabled (noisy : ℕ → Bool) : Run 2 2 where
  start :=
    { sync := { cores := fun _ => Vata.Regs.reset 0#12 0#520, control := .reset }
      feeReadyStayHigh := .reset
      genEventIdGo := .reset
      eventIdGen := .reset }
  inp t :=
    { sync :=
        { cores := fun n =>
            { Vata.Input.quiet with
              vataO6 := if n.val = 1 then !noisy t else decide (t ≠ 0)
              localVataTriggerEna := 3#12 }
          openPorts := fun _ => 0#2
          disableHits := 2#32
          globalHitEna := true
          axiAwaddr := 0#5
          axiWdata := 0#32
          axiWready := false }
      updateEventId := false
      newEventId := 0#32 }

/-- In cycle `0` it shows a hit or does not, and nothing has seen it in cycle `4`. -/
theorem oneDisabled_invisible :
    Sync.vataHitBusy ((oneDisabled fun _ => true).sync.inp 0)
        ((oneDisabled fun _ => true).sync.regs 0) 1 ≠
      Sync.vataHitBusy ((oneDisabled fun _ => false).sync.inp 0)
        ((oneDisabled fun _ => false).sync.regs 0) 1 ∧
      LooksSame {1} (oneDisabled fun _ => true) (oneDisabled fun _ => false) 4 := by
  have hother : ∀ n : Fin 2, n ∉ ({1} : Set (Fin 2)) → n = 0 := by
    intro n hn
    have hne : n ≠ 1 := hn
    omega
  have hinvisible :
      ∀ t, LooksSame {1} (oneDisabled fun _ => true) (oneDisabled fun _ => false) t := by
    refine disabled_invisible (fun t n hn => ?_) ⟨⟨fun n _ => rfl, rfl⟩, rfl, rfl, rfl⟩
      fun t => ⟨⟨fun n hn => ?_, rfl, rfl, rfl, rfl, rfl, rfl⟩, rfl, rfl⟩
    · obtain rfl : n = 1 := hn
      show (2#32).getLsbD 1 = true
      decide
    · obtain rfl := hother n hn
      rfl
  exact ⟨by decide +kernel, hinvisible 4⟩

end Run

end TrackerFpga.System
