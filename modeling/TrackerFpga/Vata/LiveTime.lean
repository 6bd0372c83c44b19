import TrackerFpga.Vata.ConfigTime
import TrackerFpga.Vata.Latency
import TrackerFpga.Vata.Packets

/-!
# The dead time in the headers

A header holds two counters as they were when the acquisition was accepted: the running counter,
which counts all cycles, and the live counter, which counts those in `IDLE`.  From one packet to
another the two differ by the cycles that the interface was busy (`deadTime_eq`).  An acquisition
is followed by the nineteen words and by twenty cycles that latch the mode `M3`
(`idle_after`), so if nothing else happened before the next packet its header tells how long
the acquisition before it took (`dead_time_exact`).
-/

namespace TrackerFpga.Vata

namespace Run

variable {r : Run} {n n' a a' w w' h d : ℕ}

/-! ## The return to `IDLE` -/

/-- A state that waits for the count `9`, entered with the counter cleared, lasts for ten cycles. -/
lemma ten_cycles {q q' : State} {x : ℕ}
    (hq : ∀ i s, s.currentState = q → i.forceFsmIdle = false →
      control i s = onCount 9#16 s { nextState := q', stateCounterClr := true })
    (hstate : (r.regs x).currentState = q) (hcount : (r.regs x).stateCounter = 0#16)
    (hforce : ∀ u, x ≤ u → u < x + 10 → (r.inp u).forceFsmIdle = false) :
    (∀ d < 10, (r.regs (x + d)).currentState = q) ∧ (r.regs (x + 10)).currentState = q' ∧
      (r.regs (x + 10)).stateCounter = 0#16 := by
  have hwait : ∀ d < 10, (r.regs (x + d)).currentState = q ∧
      (r.regs (x + d)).stateCounter = BitVec.ofNat 16 d := by
    intro d hd
    induction d with
    | zero => exact ⟨hstate, hcount⟩
    | succ d ih =>
        obtain ⟨hq', hd'⟩ := ih (by omega)
        have hstay : ¬ (r.regs (x + d)).stateCounter ≥ 9#16 := by
          rw [hd']
          bv_omega
        have hcontrol : control (r.inp (x + d)) (r.regs (x + d)) = { nextState := q } := by
          rw [hq _ _ hq' (hforce (x + d) (by omega) (by omega)), onCount, if_neg hstay, hq']
        rw [← Nat.add_assoc, regs_succ, step_currentState, step_stateCounter, hcontrol, hd',
          BitVec.ofNat_add]
        exact ⟨rfl, rfl⟩
  obtain ⟨hq', hnine⟩ := hwait 9 (by decide)
  have hcontrol : control (r.inp (x + 9)) (r.regs (x + 9)) =
      { nextState := q', stateCounterClr := true } := by
    rw [hq _ _ hq' (hforce (x + 9) (by omega) (by omega)), onCount, if_pos (by rw [hnine]; decide)]
  refine ⟨fun d hd => (hwait d hd).1, ?_⟩
  rw [regs_succ, step_currentState, step_stateCounter, hcontrol]
  exact ⟨rfl, rfl⟩

/-- After its last word the interface sets the mode `M3` for ten cycles and latches it for ten; then
it is in `IDLE`. -/
lemma idle_after (hs : r.SendingSince a w 18)
    (hforce : ∀ u, w + 18 ≤ u → u < w + 39 → (r.inp u).forceFsmIdle = false) :
    (∀ u, a < u → u < w + 39 → ¬ r.Idle u) ∧ r.Idle (w + 39) := by
  obtain ⟨_, hword⟩ := phase_eq_sending_iff.mp (hs.sending 18 le_rfl)
  have hcontrol : control (r.inp (w + 18)) (r.regs (w + 18)) =
      { nextState := .roSetModeM3, stateCounterClr := true, incEventCounter := true } := by
    simp [control, hword, onForce, hforce (w + 18) le_rfl (by omega)]
  have hstart : (r.regs (w + 19)).currentState = .roSetModeM3 ∧
      (r.regs (w + 19)).stateCounter = 0#16 := by
    rw [regs_succ, step_currentState, step_stateCounter, hcontrol]
    exact ⟨rfl, rfl⟩
  have hsets : ∀ i s, s.currentState = .roSetModeM3 → i.forceFsmIdle = false → control i s =
      onCount 9#16 s { nextState := .roLatchModeM3, stateCounterClr := true } := by
    intro i s hs hi
    simp [control, hs, onForce, hi]
  have hlatches : ∀ i s, s.currentState = .roLatchModeM3 → i.forceFsmIdle = false → control i s =
      onCount 9#16 s { nextState := .idle, stateCounterClr := true } := by
    intro i s hs hi
    simp [control, hs, onForce, hi]
  obtain ⟨hset, hlatch, hzero⟩ := ten_cycles hsets hstart.1 hstart.2
    fun u hwu hu => hforce u (by omega) (by omega)
  obtain ⟨hlatched, hidle, -⟩ := ten_cycles hlatches hlatch hzero
    fun u hwu hu => hforce u (by omega) (by omega)
  refine ⟨fun u hau hu hbusy => ?_, hidle⟩
  have hstate : (r.regs u).currentState = .idle := hbusy
  rcases Nat.lt_or_ge u (w + 19) with hlt | hge
  · exact hs.not_idle hau (by omega) hbusy
  rcases Nat.lt_or_ge u (w + 29) with hlt | hge'
  · obtain ⟨d, rfl⟩ := Nat.exists_eq_add_of_le hge
    simp [hset d (by omega)] at hstate
  · obtain ⟨d, rfl⟩ := Nat.exists_eq_add_of_le hge'
    simp [hlatched d (by omega)] at hstate

/-- An acquisition that is not stopped sends its packet before the interface is in `IDLE` again. -/
lemma exists_sendingSince_of_idle (ha : r.Accepts a) (haa : a < a') (hidle : r.Idle a')
    (hgo : ∀ u, a < u → u < a' → (r.inp u).forceFsmIdle = false ∧ abortDaq (r.regs u) = false) :
    ∃ w, r.SendingSince a w 0 ∧ w < a' := by
  have hfirst : r.phase (a + 1) = .acquiring := step_of_idle (idle_iff.mp ha.1) ha.2
  have hleaves : ∃ d, r.phase (a + 1 + d) ≠ .acquiring := by
    refine ⟨a' - (a + 1), fun hacq => ?_⟩
    rw [Nat.add_sub_cancel' haa, idle_iff.mp hidle] at hacq
    exact absurd hacq (by decide)
  classical
  have hacq : ∀ d < Nat.find hleaves, r.phase (a + 1 + d) = .acquiring := fun d hd =>
    not_not.mp (Nat.find_min hleaves hd)
  obtain ⟨e, he⟩ : ∃ e, Nat.find hleaves = e + 1 :=
    Nat.exists_eq_succ_of_ne_zero fun hzero => Nat.find_spec hleaves (by rw [hzero]; exact hfirst)
  have hea : a + 1 + e < a' := by
    by_contra hlate
    have hd := hacq (a' - (a + 1)) (by omega)
    rw [Nat.add_sub_cancel' haa, idle_iff.mp hidle] at hd
    exact absurd hd (by decide)
  obtain ⟨hforce, habort⟩ := hgo (a + 1 + e) (by omega) hea
  have hsending : r.phase (a + 1 + e + 1) = .sending 0 := by
    refine (step_of_acquiring (hacq e (by omega)) hforce habort).resolve_left fun hon => ?_
    have hspec := Nat.find_spec hleaves
    rw [he, ← Nat.add_assoc] at hspec
    exact hspec hon
  refine ⟨a + 1 + e + 1, .of_first ha (by omega) (fun u hau hu => ?_) hsending, ?_⟩
  · obtain ⟨d, rfl⟩ := Nat.exists_eq_add_of_le (Nat.succ_le_of_lt hau)
    exact hacq d (by omega)
  · refine Nat.lt_of_le_of_ne hea fun heq => ?_
    rw [heq, idle_iff.mp hidle] at hsending
    exact absurd hsending (by decide)

/-- **Acquisitions keep apart**: by `599` cycles and the hold time. -/
lemma accepts_apart (hforce : ∀ t, (r.inp t).forceFsmIdle = false)
    (habort : ∀ t, abortDaq (r.regs t) = false) (hhold : ∀ t, (r.inp t).holdTime.toNat = h)
    (ha : r.Accepts a) (ha' : r.Accepts a') (haa : a < a') : a + (h + 599) ≤ a' := by
  obtain ⟨w, hs, -⟩ := exists_sendingSince_of_idle ha haa ha'.1
    fun u _ _ => ⟨hforce u, habort u⟩
  have hlong : a + 559 + h < w := by
    by_contra hearly
    have hacq := acquiring_of_accepts ha le_rfl (fun u _ _ => ⟨hforce u, habort u, hhold u⟩) hs.lt
      (Nat.not_lt.mp hearly)
    have hfirst := hs.sending 0 le_rfl
    rw [Nat.add_zero, hacq] at hfirst
    exact absurd hfirst (by decide)
  have hbusy := (idle_after (hs.complete fun _ _ _ => hforce _) fun u _ _ => hforce u).1
  by_contra hnear
  exact hbusy a' haa (by omega) ha'.1

/-! ## The counters of two packets -/

/-- The running counter in the header of the packet that is sent from cycle `w` on. -/
def runningTime (r : Run) (w : ℕ) : BitVec 64 :=
  (r.out (w + 4)).dataTdata ++ (r.out (w + 3)).dataTdata

/-- The live counter in it. -/
def liveTime (r : Run) (w : ℕ) : BitVec 64 :=
  (r.out (w + 6)).dataTdata ++ (r.out (w + 5)).dataTdata

/-- The dead time from one packet to another, by their headers. -/
def deadTime (r : Run) (w w' : ℕ) : BitVec 64 :=
  (r.runningTime w' - r.runningTime w) - (r.liveTime w' - r.liveTime w)

/-- The running counter of the run counts the cycles. -/
def Counted (r : Run) : Prop :=
  ∀ t, (r.inp (t + 1)).runningCounter = (r.inp t).runningCounter + 1#64

lemma Counted.add (hc : r.Counted) (t d : ℕ) :
    (r.inp (t + d)).runningCounter = (r.inp t).runningCounter + BitVec.ofNat 64 d := by
  induction d with
  | zero => simp
  | succ d ih => rw [← Nat.add_assoc, hc, ih, BitVec.ofNat_add, BitVec.add_assoc]

lemma Counted.sub (hc : r.Counted) (haa : a ≤ a') :
    (r.inp a').runningCounter - (r.inp a).runningCounter = BitVec.ofNat 64 (a' - a) := by
  obtain ⟨d, rfl⟩ := Nat.exists_eq_add_of_le haa
  rw [hc.add, Nat.add_sub_cancel_left, BitVec.add_comm, BitVec.add_sub_cancel]

/-- The cycles from `a` on and before `a'` in which the interface is not in `IDLE`. -/
def busyCycles (r : Run) (a a' : ℕ) : ℕ := ((Finset.Ico a a').filter fun u => ¬ r.Idle u).card

/-- The cycles between are busy or counted as live. -/
lemma count_idle_add_busyCycles (haa : a ≤ a') :
    Nat.count r.Idle a' + r.busyCycles a a' = Nat.count r.Idle a + (a' - a) := by
  induction a', haa using Nat.le_induction with
  | base => simp [busyCycles]
  | succ u hau ih =>
      have hbusy : r.busyCycles a (u + 1) = r.busyCycles a u + if r.Idle u then 0 else 1 := by
        rw [busyCycles, Nat.Ico_succ_right_eq_insert_Ico hau, Finset.filter_insert]
        by_cases hidle : r.Idle u
        · rw [if_neg (not_not.mpr hidle), if_pos hidle, busyCycles, Nat.add_zero]
        · rw [if_pos hidle, if_neg hidle, Finset.card_insert_of_notMem (by simp), busyCycles]
      rw [Nat.count_succ, hbusy]
      split_ifs <;> omega

/-- **The dead time** between two packets is the time that the interface was busy. -/
lemma deadTime_eq (hc : r.Counted) (hp : r.PacketAt n a w) (hp' : r.PacketAt n' a' w')
    (haa : a ≤ a') : r.deadTime w w' = BitVec.ofNat 64 (r.busyCycles a a') := by
  have hrunning : r.runningTime w' - r.runningTime w = BitVec.ofNat 64 (a' - a) := by
    rw [runningTime, runningTime, hp.running, hp'.running, hc.sub haa]
  have hcycles := count_idle_add_busyCycles (r := r) haa
  rw [deadTime, hrunning, liveTime, liveTime, hp.live, hp'.live, hp.liveIsIdleCount,
    hp'.liveIsIdleCount]
  have hsum : BitVec.ofNat 64 (Nat.count r.Idle a') + BitVec.ofNat 64 (r.busyCycles a a') =
      BitVec.ofNat 64 (Nat.count r.Idle a) + BitVec.ofNat 64 (a' - a) := by
    rw [← BitVec.ofNat_add, ← BitVec.ofNat_add, hcycles]
  bv_omega

/-- If nothing else happens before the next packet, the interface is busy until it has latched the
mode `M3` after this one. -/
lemma busyCycles_eq (hs : r.SendingSince a w 18)
    (hforce : ∀ u, w + 18 ≤ u → u < w + 39 → (r.inp u).forceFsmIdle = false)
    (hwa : w + 39 ≤ a') (hidle : ∀ u, w + 39 ≤ u → u < a' → r.Idle u) :
    r.busyCycles a a' = w + 38 - a := by
  have hbusy : (Finset.Ico a a').filter (fun u => ¬ r.Idle u) = Finset.Ico (a + 1) (w + 39) := by
    ext u
    simp only [Finset.mem_filter, Finset.mem_Ico]
    constructor
    · rintro ⟨⟨hau, hua⟩, hu⟩
      refine ⟨Nat.lt_of_le_of_ne hau ?_, ?_⟩
      · rintro rfl
        exact hu hs.accepts.1
      · by_contra hlate
        exact hu (hidle u (by omega) hua)
    · rintro ⟨hau, hu⟩
      exact ⟨⟨by omega, by omega⟩, (idle_after hs hforce).1 u hau hu⟩
  rw [busyCycles, hbusy, Nat.card_Ico]
  omega

/-- **The length of an acquisition, read off the next header.**  If neither an acquisition nor a
command comes between two packets, their headers differ in dead time by exactly `598` cycles, the
hold time, ten cycles for each further clock of the conversion of the first and sixty-five for each
further clock of its readout. -/
theorem dead_time_exact (hr : r.FromReset) (hready : ∀ t, (r.inp t).dataTready = true)
    (hforce : ∀ t, (r.inp t).forceFsmIdle = false) (hc : r.Counted)
    (hp : r.PacketAt n a w) (hp' : r.PacketAt n' a' w') (haa : a < a')
    (hnext : ∀ u, a < u → u < a' → ¬ r.Accepts u ∧ r.NoCommand u)
    (hhold : ∀ u, a < u → u < w → (r.inp u).holdTime.toNat = h)
    (hlast : ∀ u, a < u → u < w → (r.regs u).currentState = .roClkLo →
      (r.regs u).regIndx = 379#10 → (r.inp u).vataO5 = true) :
    r.deadTime w w' = BitVec.ofNat 64 (598 + h +
      10 * ((Finset.Ico (a + 1) w).filter r.ConvertsOn).card +
        65 * ((Finset.Ico (a + 1) w).filter r.ReadsOn).card) := by
  have hs := hp.sendingSince hr hready hforce
  obtain ⟨hbusy, hfree⟩ := idle_after hs fun u _ _ => hforce u
  have hwa : w + 39 ≤ a' := by
    by_contra hearly
    exact hbusy a' haa (Nat.not_le.mp hearly) hp'.accepts.1
  -- without a trigger the interface waits for the next packet
  have hidle : ∀ u, w + 39 ≤ u → u ≤ a' → r.Idle u := by
    intro u hwu hua
    have haw := hs.lt
    refine Clocked.invariant_between (P := r.Idle) hfree (fun v hwv hva hv => ?_) hwu hua
    obtain ⟨hnone, hcommand⟩ := hnext v (by omega) hva
    have htrig : triggerAcq (r.inp v) (r.regs v) = false :=
      Bool.eq_false_of_not_eq_true fun htrig => hnone ⟨hv, htrig⟩
    exact idle_of_noCommand hv (Nat.le_succ v)
      (fun x hvx hxv => by obtain rfl : x = v := by omega
                           exact htrig)
      fun x hvx hxv => by obtain rfl : x = v := by omega
                          exact hcommand
  have hfirst := latency_exact (.of_first hs.accepts hs.lt hs.acquiring (hs.sending 0 (by decide)))
    hhold hlast
  rw [deadTime_eq hc hp hp' haa.le, busyCycles_eq hs (fun u _ _ => hforce u) hwa
    fun u hwu hua => hidle u hwu hua.le]
  congr 1
  omega

/-- Forced triggers in the cycles `0` and `700`, answered by an ASIC that reads out one bit. -/
def twoEvents : Run := ofReset fun t =>
  { Input.quiet with
    forceTrigger := decide (t = 0 ∨ t = 700)
    forceTriggerEna := true
    vataO5 := true
    runningCounter := BitVec.ofNat 64 t }

lemma twoEvents_triggerAcq (t : ℕ) :
    triggerAcq (twoEvents.inp t) (twoEvents.regs t) = decide (t = 0 ∨ t = 700) := by
  simp [triggerAcq, twoEvents, ofReset, Input.quiet]

lemma twoEvents_packetAt (ha : twoEvents.Idle a) (hat : a = 0 ∨ a = 700)
    (hw : twoEvents.phase (a + 560) = .sending 0) : ∃ n, twoEvents.PacketAt n a (a + 560) := by
  have hr : twoEvents.FromReset := fromReset_ofReset _
  have haccepts : twoEvents.Accepts a :=
    ⟨ha, (twoEvents_triggerAcq a).trans (decide_eq_true hat)⟩
  have habort : ∀ t, abortDaq (twoEvents.regs t) = false :=
    abortDaq_eq_false_of_timeout_zero hr fun _ => rfl
  have hfirst : twoEvents.SendingSince a (a + 560) 0 :=
    .of_first haccepts (by omega)
      (fun u hau hu => acquiring_of_accepts (h := 0) haccepts le_rfl
        (fun v _ _ => ⟨rfl, habort v, rfl⟩) hau (by omega)) hw
  exact packetAt_of_sending hr (fun _ => rfl) (fun _ => rfl) (fun _ => rfl) (fun _ => rfl)
    (hfirst.complete fun _ _ _ => rfl)

/-- Their headers tell how long the first of them took. -/
theorem twoEvents_deadTime : twoEvents.deadTime 560 1260 = BitVec.ofNat 64 (598 + 0 +
    10 * ((Finset.Ico (0 + 1) 560).filter twoEvents.ConvertsOn).card +
      65 * ((Finset.Ico (0 + 1) 560).filter twoEvents.ReadsOn).card) := by
  obtain ⟨n, hp⟩ := twoEvents_packetAt (a := 0) (by decide) (.inl rfl) (by decide +kernel)
  obtain ⟨n', hp'⟩ := twoEvents_packetAt (a := 700) (by decide +kernel) (.inr rfl)
    (by decide +kernel)
  refine dead_time_exact (fromReset_ofReset _) (fun _ => rfl) (fun _ => rfl) (fun t => ?_) hp hp'
    (by decide) (fun u hu hua => ⟨fun ha => ?_, fun _ => ⟨rfl, rfl⟩⟩) (fun _ _ _ => rfl)
      fun _ _ _ _ _ => rfl
  · exact BitVec.ofNat_add t 1
  · have htrig := (twoEvents_triggerAcq u).symm.trans ha.2
    simp only [decide_eq_true_eq] at htrig
    omega

end Run

end TrackerFpga.Vata
