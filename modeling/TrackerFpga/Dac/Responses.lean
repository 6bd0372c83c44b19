import TrackerFpga.Lib.WriteResponses
import TrackerFpga.Dac.Core

/-!
# The responses of the DAC core

The AXI slave of the DAC core is an older template.  Its comments expect no outstanding
transactions, but its `aw_en` is never cleared, as the other cores clear it, so that a write can be
accepted while the response of the last one is pending; the response of the second one is then lost.
A master that waits for the response before it shows the next write gets one response for each
(`oneResponse_iff_never_overtakes`), and a master that does not wait loses one
(`hastyRun_loses_response`).
-/

namespace TrackerFpga.Dac.Core.Run

open AxiLite Clocked

variable {r : Run} {t : ℕ}

/-- The handshake in cycle `t`. -/
def axi (r : Run) (t : ℕ) : Slave 4 := (r.file t).axi

lemma axi_succ : r.axi (t + 1) = slaveStep (r.master t) (r.axi t) := by
  rw [axi, file_succ]
  rfl

lemma axi_zero (hr : r.FromReset) : r.axi 0 = .reset := by
  have hstart : r.start = .reset := hr
  simp [axi, file, regs, hstart, Regs.reset, RegisterFile.reset]

/-- But for `aw_en` the handshake is that of the template. -/
lemma responds_axi (hr : r.FromReset) : Responds r.axi r.master where
  start := by
    rw [axi_zero hr]
    exact ⟨rfl, rfl, rfl⟩
  awready t := by
    rw [axi_succ]
    rfl
  wready t := by
    rw [axi_succ]
    rfl
  bvalid t := by
    rw [axi_succ]
    rfl

/-- `aw_en` is never cleared. -/
lemma awEn_axi (hr : r.FromReset) (t : ℕ) : (r.axi t).awEn = true := by
  induction t with
  | zero =>
      rw [axi_zero hr]
      rfl
  | succ t ih =>
      rw [axi_succ]
      simp [slaveStep, ih]

/-- The master shows a write in a cycle in which it leaves a response. -/
def Overtakes (r : Run) (t : ℕ) : Prop :=
  (r.axi t).bvalid = true ∧ (r.master t).bready = false ∧
    (r.master t).awvalid = true ∧ (r.master t).wvalid = true

/-- A write that is shown while a response is left is accepted before the response is taken. -/
lemma accepts_of_overtakes (hr : r.FromReset) (hm : KeepsWrites r.axi r.master)
    (h : r.Overtakes t) :
    ∃ u, Accepts r.axi r.master u ∧ (r.axi u).bvalid = true := by
  obtain ⟨hpending, hleft, hawvalid, hwvalid⟩ := h
  have hs := responds_axi hr
  by_cases hready : (r.axi t).awready = true
  · refine ⟨t, ?_, hpending⟩
    simp [Accepts, Slave.wren, hready, ← hs.awready_eq, hawvalid, hwvalid]
  · have htakes : (r.axi t).takes (r.master t) = true := by
      simp [Slave.takes, hawvalid, hwvalid, awEn_axi hr t]
    refine ⟨t + 1, hs.accepts_of_takes hm (Bool.not_eq_true _ ▸ hready) htakes, ?_⟩
    rw [hs.bvalid_of_pending hpending, hleft]
    rfl

/-- **One response.**  Whatever the delays of the handshakes, the DAC core gives one response for
each write exactly when the master never shows a write while it leaves a response. -/
theorem oneResponse_iff_never_overtakes (hr : r.FromReset) (hm : KeepsWrites r.axi r.master) :
    OneResponse r.axi r.master ↔ ∀ t, ¬ r.Overtakes t := by
  have hs := responds_axi hr
  rw [hs.oneResponse_iff]
  constructor
  · intro hnone t hovertakes
    obtain ⟨u, hacc, hpending⟩ := accepts_of_overtakes hr hm hovertakes
    rw [hnone u hacc] at hpending
    exact Bool.false_ne_true hpending
  · intro hnever t hacc
    cases t with
    | zero => exact absurd hacc hs.not_accepts_zero
    | succ t =>
        rw [← Bool.not_eq_true]
        intro hhigh
        -- the write was taken one cycle before, with the response already there
        obtain ⟨hpending, hleft⟩ := hs.pending_of_accepts hacc hhigh
        have htakes := (hs.takes_of_accepts hacc).2
        simp only [Slave.takes, Bool.and_eq_true] at htakes
        exact hnever t ⟨hpending, hleft, htakes.1⟩

/-! ## Two masters -/

/-- The core from reset with this master. -/
def ofMaster (m : ℕ → Master 4) : Run where
  start := .reset
  master := m

lemma axi_ofMaster (m : ℕ → Master 4) (t : ℕ) :
    (ofMaster m).axi t = run slaveStep .reset m t := by
  induction t with
  | zero => rfl
  | succ t ih => rw [axi_succ, ih, run_succ, ofMaster]

/-- A master that writes twice to the delay register, takes the response of the first write in
cycle `5`, shows the second write in cycle `8`, and takes its response in cycle `13`. -/
def patientMaster (t : ℕ) : Master 4 :=
  { Master.quiet with
    awaddr := 4#4
    awvalid := decide (t < 2 ∨ t = 8 ∨ t = 9)
    wdata := if t < 2 then 1#32 else 2#32
    wstrb := 15#4
    wvalid := decide (t < 2 ∨ t = 8 ∨ t = 9)
    bready := decide (t = 5 ∨ t = 13) }

/-- A master that does so without waiting: it shows the second write as soon as the first one is
accepted, and takes responses from cycle `5` on. -/
def hastyMaster (t : ℕ) : Master 4 :=
  { Master.quiet with
    awaddr := 4#4
    awvalid := decide (t < 4)
    wdata := if t < 2 then 1#32 else 2#32
    wstrb := 15#4
    wvalid := decide (t < 4)
    bready := decide (5 ≤ t) }

/-- The core with the patient master. -/
def patientRun : Run := ofMaster patientMaster

/-- The core with the hasty one. -/
def hastyRun : Run := ofMaster hastyMaster

/-- A master that leaves all but `bready` as it is where the slave makes it wait. -/
lemma keepsWrites_ofMaster {m : ℕ → Master 4} (hshown : ∀ t, (m t).wvalid = (m t).awvalid)
    (hkept : ∀ t, (m t).awvalid = true → (run slaveStep .reset m t).awready = false →
      m (t + 1) = { m t with bready := (m (t + 1)).bready }) :
    KeepsWrites (ofMaster m).axi (ofMaster m).master := by
  have hs : Responds (ofMaster m).axi (ofMaster m).master := responds_axi rfl
  refine ⟨fun t hvalid hlow => ?_, fun t hvalid hlow => ?_⟩
  · rw [axi_ofMaster] at hlow
    have hnext := hkept t hvalid hlow
    show (m (t + 1)).awvalid = true ∧ (m (t + 1)).awaddr = (m t).awaddr
    rw [hnext]
    exact ⟨hvalid, rfl⟩
  · rw [← hs.awready_eq, axi_ofMaster] at hlow
    have hnext := hkept t ((hshown t).symm.trans hvalid) hlow
    show (m (t + 1)).wvalid = true ∧ (m (t + 1)).wdata = (m t).wdata ∧
      (m (t + 1)).wstrb = (m t).wstrb
    rw [hnext]
    exact ⟨hvalid, rfl, rfl⟩

lemma keepsWrites_patientRun : KeepsWrites patientRun.axi patientRun.master := by
  refine keepsWrites_ofMaster (fun _ => rfl) fun t hvalid hlow => ?_
  have hwaits : ∀ t < 10, (run slaveStep .reset patientMaster t).awready = false →
      t < 2 ∨ t = 8 ∨ t = 9 → t = 0 ∨ t = 8 := by
    decide
  have hwrite : t < 2 ∨ t = 8 ∨ t = 9 := of_decide_eq_true hvalid
  obtain rfl | rfl := hwaits t (by omega) hlow hwrite
  · rfl
  · rfl

/-- It shows no write while a response is pending. -/
lemma not_overtakes_patientRun (t : ℕ) : ¬ patientRun.Overtakes t := by
  rintro ⟨hpending, -, hvalid, -⟩
  have hnone : ∀ t < 10, t < 2 ∨ t = 8 ∨ t = 9 →
      (run slaveStep .reset patientMaster t).bvalid = false := by
    decide
  have hwrite : t < 2 ∨ t = 8 ∨ t = 9 := of_decide_eq_true hvalid
  rw [patientRun, axi_ofMaster, hnone t (by omega) hwrite] at hpending
  exact Bool.false_ne_true hpending

/-- Both writes of the patient master get their responses. -/
theorem patientRun_oneResponse : OneResponse patientRun.axi patientRun.master ∧
    Nat.count (TakesResponse patientRun.axi patientRun.master) 14 = 2 := by
  have haxi : patientRun.axi = run slaveStep .reset patientMaster :=
    funext (axi_ofMaster patientMaster)
  refine ⟨(oneResponse_iff_never_overtakes (r := patientRun) rfl keepsWrites_patientRun).mpr
    not_overtakes_patientRun, ?_⟩
  rw [haxi]
  decide

/-- The slave makes the hasty master wait in two cycles, and it does. -/
lemma keepsWrites_hastyRun : KeepsWrites hastyRun.axi hastyRun.master := by
  refine keepsWrites_ofMaster (fun _ => rfl) fun t hvalid hlow => ?_
  have hwaits : ∀ t < 4, (run slaveStep .reset hastyMaster t).awready = false → t = 0 ∨ t = 2 := by
    decide
  obtain rfl | rfl := hwaits t (of_decide_eq_true hvalid) hlow
  · rfl
  · rfl

/-- Two writes are accepted and one response is given: the second write is accepted in cycle `3`,
while the response of the first one is pending. -/
theorem hastyRun_loses_response : hastyRun.FromReset ∧
    KeepsWrites hastyRun.axi hastyRun.master ∧
    (hastyRun.axi 6).bvalid = false ∧ Nat.count (Accepts hastyRun.axi hastyRun.master) 6 = 2 ∧
    Nat.count (TakesResponse hastyRun.axi hastyRun.master) 6 = 1 ∧
    ¬ OneResponse hastyRun.axi hastyRun.master := by
  have haxi : hastyRun.axi = run slaveStep .reset hastyMaster := funext (axi_ofMaster hastyMaster)
  have hdone : (hastyRun.axi 6).bvalid = false := by
    rw [haxi]
    decide
  have haccepted : Nat.count (Accepts hastyRun.axi hastyRun.master) 6 = 2 := by
    rw [haxi]
    decide
  have htaken : Nat.count (TakesResponse hastyRun.axi hastyRun.master) 6 = 1 := by
    rw [haxi]
    decide
  refine ⟨rfl, keepsWrites_hastyRun, hdone, haccepted, htaken, fun hone => ?_⟩
  have hcounts := hone.counts 6 hdone
  omega

end TrackerFpga.Dac.Core.Run
