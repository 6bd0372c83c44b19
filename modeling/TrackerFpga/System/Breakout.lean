import TrackerFpga.EventId.DeadTimes
import TrackerFpga.Sync.FeeReady

/-!
# The design with its own event ids

In the breakout design (`breakout_bd.tcl`) the trigger module is inside: `sync_vata_distn` drives
`FEE_busy` and `FEE_ready` into `event_id_gen`, and the two serial lines of that core go back to
every VATA interface.  Here all of it is one machine on one clock; `wire` are the nets from the
id generator to the cores.  A run of the machine is a run of each of its parts (`sync_regs`,
`gen_regs`, `go_regs`), and the lines between the distributor and the generator keep the handshake
that the generator relies on (`handshake`).
-/

namespace TrackerFpga.System

open Clocked EventId

variable {N R : ℕ}

/-- What a cycle brings from outside: the inputs of the cores and of the distributor, of which the
event id lines are driven inside, and the two outputs of the id generator's register file. -/
structure Input (N : ℕ) where
  sync : Sync.Input N
  updateEventId : Bool
  newEventId : BitVec 32

/-- What the cores, the distributor and the id generator hold. -/
structure State (N : ℕ) where
  sync : Sync.State N
  feeReadyStayHigh : Sync.StayHigh 4
  genEventIdGo : GenEventIdGo
  eventIdGen : Gen.Regs

/-- The inputs of the cores and the distributor: `event_id_data` and `event_id_latch` come from the
id generator. -/
def wire (i : Input N) (s : State N) : Sync.Input N :=
  { i.sync with
    cores := fun n =>
      { i.sync.cores n with
        eventIdData := s.eventIdGen.p2s.eventIdOut
        eventIdLatch := s.eventIdGen.p2s.eventIdLatch } }

/-- The inputs of the id generator. -/
def genInput (i : Input N) (s : State N) : Gen.Input where
  eventIdGo := s.genEventIdGo.eventIdGo
  updateEventId := i.updateEventId
  newEventId := i.newEventId

/-- One clock cycle, with `EVENT_ID_CLK_RATIO = R`. -/
def step (R : ℕ) (i : Input N) (s : State N) : State N :=
  let feeBusy := Sync.feeBusy (wire i s) s.sync
  { sync := Sync.step (wire i s) s.sync
    feeReadyStayHigh := s.feeReadyStayHigh.step 5 (!feeBusy)
    genEventIdGo := s.genEventIdGo.step feeBusy s.feeReadyStayHigh.dataOut
    eventIdGen := Gen.step R (genInput i s) s.eventIdGen }

/-- A run of the design. -/
structure Run (N R : ℕ) where
  start : State N
  inp : ℕ → Input N

namespace Run

variable (r : Run N R)

/-- What is held in cycle `t`. -/
def regs (t : ℕ) : State N := run (step R) r.start r.inp t

lemma regs_succ (t : ℕ) : r.regs (t + 1) = step R (r.inp t) (r.regs t) := run_succ ..

/-! ## The parts -/

/-- The cores and the distributor. -/
def sync : Sync.Run N where
  start := r.start.sync
  inp t := wire (r.inp t) (r.regs t)

/-- The id generator behind its register file and `gen_event_id_go`. -/
def gen : Gen.Run R where
  start := r.start.eventIdGen
  inp t := genInput (r.inp t) (r.regs t)

/-- The run starts when the reset is released. -/
structure FromReset : Prop where
  sync : r.sync.FromReset
  ready : r.start.feeReadyStayHigh = .reset
  go : r.start.genEventIdGo = .reset
  gen : r.start.eventIdGen = .reset

variable {r} {mask : BitVec 32} {t : ℕ}

lemma sync_regs (t : ℕ) : r.sync.regs t = (r.regs t).sync := by
  induction t with
  | zero => rfl
  | succ t ih =>
      have hnext : r.sync.regs (t + 1) = Sync.step (r.sync.inp t) (r.sync.regs t) := run_succ ..
      rw [hnext, ih, regs_succ]
      rfl

lemma gen_regs (t : ℕ) : r.gen.regs t = (r.regs t).eventIdGen := by
  induction t with
  | zero => rfl
  | succ t ih =>
      rw [Gen.Run.regs_succ, ih, regs_succ]
      rfl

lemma feeBusy_eq (t : ℕ) :
    r.sync.feeBusy t = Sync.feeBusy (wire (r.inp t) (r.regs t)) (r.regs t).sync := by
  rw [Sync.Run.feeBusy, sync_regs]
  rfl

lemma ready_regs (hr : r.FromReset) (t : ℕ) : (r.regs t).feeReadyStayHigh =
    Sync.StayHigh.regs 4 5 (fun u => !r.sync.feeBusy u) t := by
  induction t with
  | zero => exact hr.ready
  | succ t ih =>
      have hnext : Sync.StayHigh.regs 4 5 (fun u => !r.sync.feeBusy u) (t + 1) =
          (Sync.StayHigh.regs 4 5 (fun u => !r.sync.feeBusy u) t).step 5 (!r.sync.feeBusy t) :=
        run_succ ..
      rw [hnext, ← ih, regs_succ, feeBusy_eq]
      rfl

lemma go_regs (hr : r.FromReset) (t : ℕ) :
    (r.regs t).genEventIdGo = GenEventIdGo.regs r.sync.feeBusy r.sync.feeReady t := by
  induction t with
  | zero => exact hr.go
  | succ t ih =>
      have hready : r.sync.feeReady t = (r.regs t).feeReadyStayHigh.dataOut := by
        rw [ready_regs hr]
        rfl
      rw [GenEventIdGo.regs_succ, ← ih, regs_succ, feeBusy_eq, hready]
      rfl

/-- The generator is wired to `gen_event_id_go`. -/
lemma gen_wired (hr : r.FromReset) (hnone : ∀ t, (r.inp t).updateEventId = false) :
    r.gen.Wired r.sync.feeBusy r.sync.feeReady where
  start := hr.gen
  go t := by
    rw [GenEventIdGo.go, ← go_regs hr]
    rfl
  noUpdate t hupdate := by
    have hhigh : (r.inp t).updateEventId = true := hupdate
    simp [hnone t] at hhigh

end Run

end TrackerFpga.System

namespace TrackerFpga.Sync.Run

open Clocked

variable {N : ℕ} {r : Run N} {mask : BitVec 32} {t x : ℕ}

/-! ## The handshake -/

/-- A dead time lasts for ten cycles from its beginning. -/
lemma busy_after_rise (hr : r.FromReset) (hw : r.Wired mask) (hx : Rises r.feeBusy x) {j : ℕ}
    (hj : j < 10) : r.feeBusy (x + j) = true := by
  have hpos : 0 < x := by
    rcases Nat.eq_zero_or_pos x with rfl | hpos
    · exact absurd (hx.1.symm.trans (feeBusy_zero hr hw)) (by decide)
    · exact hpos
  have hlow : r.feeBusy (x - 1) = false := hx.2.resolve_left (by omega)
  induction j with
  | zero => exact hx.1
  | succ j ih =>
      by_contra hend
      have hfall : Falls r.feeBusy (x + j + 1) :=
        falls_succ.mpr ⟨Bool.eq_false_of_not_eq_true hend, ih (by omega)⟩
      have hbefore := (busy_before_fall hr hw hfall (j + 2) (by omega) (by omega)).2
      rw [show x + j + 1 - (j + 2) = x - 1 by omega, hlow] at hbefore
      exact absurd hbefore Bool.false_ne_true

/-- `FEE_ready` is high from the second to the sixth cycle after a dead time, and after reset. -/
lemma feeReady_iff (hr : r.FromReset) (hw : r.Wired mask) : r.feeReady t = true ↔
    ∃ f, (f = 0 ∨ Falls r.feeBusy f) ∧ f + 2 ≤ t ∧ t ≤ f + 6 := by
  have hrises : ∀ f, Rises r.feeReady (f + 2) ↔ f = 0 ∨ Falls r.feeBusy f := by
    intro f
    rw [rises_feeReady_iff hr hw]
    simp
  constructor
  · intro hready
    obtain ⟨x, hx, hxt, hall⟩ := exists_rise hready
    obtain ⟨f, hf, rfl⟩ : ∃ f, (f = 0 ∨ Falls r.feeBusy f) ∧ x = f + 2 := by
      rcases (rises_feeReady_iff hr hw).mp hx with rfl | ⟨f, hf, rfl⟩
      · exact ⟨0, .inl rfl, rfl⟩
      · exact ⟨f, .inr hf, rfl⟩
    refine ⟨f, hf, hxt, ?_⟩
    by_contra hlate
    have hlow := (Sync.StayHigh.out_of_rises (by decide) (by decide) hx).2
    rw [← feeReady] at hlow
    rw [hall _ (by omega) (by omega)] at hlow
    exact absurd hlow (by decide)
  · rintro ⟨f, hf, hft, htf⟩
    have hhigh := (Sync.StayHigh.out_of_rises (by decide) (by decide) ((hrises f).mpr hf)).1
      (t - (f + 2)) (by omega)
    rwa [Nat.add_sub_cancel' hft] at hhigh

/-- **The handshake** of the distributor with the id generator. -/
lemma handshake (hr : r.FromReset) (hw : r.Wired mask) :
    EventId.GenEventIdGo.Handshake r.feeBusy r.feeReady where
  busy_zero := feeBusy_zero hr hw
  lasts _ hx _ hj := busy_after_rise hr hw hx hj
  ready_iff _ := feeReady_iff hr hw

end TrackerFpga.Sync.Run
