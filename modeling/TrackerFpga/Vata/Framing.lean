import TrackerFpga.Vata.Packets

/-!
# Framing under forced idles and under back-pressure

A receiver cuts the words on the stream into groups: a group ends with a word that carries
`data_tlast`.  This file says when the groups are the packets that were meant.

Two things can break a group.  A forced idle in `RO_WFIFO_00` to `RO_WFIFO_17` goes to
`ABORT_SET_MODE_M3` and not to `ABORT_WFIFO`, the state with the closing word, so the words
already sent stay open and the next packet is appended to them (`wellFramed_iff`).  And no
process reads `data_tready`, so a word that the receiver does not take is gone
(`handshake_iff`).
-/

namespace TrackerFpga.Vata

namespace Run

variable {r : Run} {a t u w k : ℕ}

/-! ## Groups of words -/

/-- The word sent in cycle `t` ends a group. -/
def Closes (r : Run) (t : ℕ) : Prop := r.Sent t ∧ (r.out t).dataTlast = true

/-- The word of cycle `u` is in the group that the word of cycle `t` ends: no word since has
ended a group. -/
structure InGroup (r : Run) (t u : ℕ) : Prop where
  le : u ≤ t
  sent : r.Sent u
  isOpen : ∀ v, u ≤ v → v < t → r.Sent v → (r.out v).dataTlast = false

/-- The group that ends in cycle `w + 18` is the whole packet of the acquisition accepted in
cycle `a`: the nineteen words of cycles `w` to `w + 18` and no others. -/
structure WholePacket (r : Run) (a w : ℕ) : Prop where
  accepts : r.Accepts a
  lt : a < w
  oneAcquisition : ∀ u, a < u → u ≤ w + 18 → ¬ r.Idle u
  word : ∀ j (hj : j < 19), (r.regs (w + j)).currentState = .roWfifo ⟨j, hj⟩
  group : ∀ u, r.InGroup (w + 18) u ↔ w ≤ u ∧ u ≤ w + 18

/-- The group that ends in cycle `t` is what an acquisition sent before it was closed by the
abort word. -/
structure ClosedByAbort (r : Run) (a t : ℕ) : Prop where
  accepts : r.Accepts a
  lt : a < t
  oneAcquisition : ∀ u, a < u → u ≤ t → ¬ r.Idle u
  abortWord : (r.regs t).currentState = .abortWfifo ∧ (r.out t).dataTdata = BitVec.allOnes 32
  group : ∀ u, r.InGroup t u → a < u

/-- The group that ends in cycle `t` is a whole packet or was closed by the abort word. -/
def WellFramed (r : Run) (t : ℕ) : Prop :=
  (∃ a w, t = w + 18 ∧ r.WholePacket a w) ∨ ∃ a, r.ClosedByAbort a t

lemma offered_iff_roWfifo (h0 : r.Idle 0) :
    r.Offered t ↔ ∃ k, (r.regs t).currentState = .roWfifo k := by
  rw [offered_iff h0]
  constructor
  · rintro ⟨k, hk⟩
    obtain ⟨hk19, hstate⟩ := phase_eq_sending_iff.mp hk
    exact ⟨⟨k, hk19⟩, hstate⟩
  · rintro ⟨k, hstate⟩
    exact ⟨k, phase_eq_sending_iff.mpr ⟨k.isLt, hstate⟩⟩

lemma tlast_of_sending (h : r.phase t = .sending k) : (r.out t).dataTlast = decide (k = 18) := by
  obtain ⟨_, hout⟩ := out_of_sending h
  rw [hout]

lemma phase_of_tlast (h0 : r.Idle 0) (hsent : r.Offered t) (hlast : (r.out t).dataTlast = true) :
    r.phase t = .sending 18 := by
  obtain ⟨k, hk⟩ := (offered_iff h0).mp hsent
  obtain rfl : k = 18 := by simpa [tlast_of_sending hk] using hlast
  exact hk

/-- The cycle before a first word offers no word. -/
lemma SendingSince.pred_not_sending (h : r.SendingSince a w k) (hu : u + 1 = w) (j : ℕ) :
    r.phase u ≠ .sending j := by
  rcases Nat.eq_or_lt_of_le (Nat.lt_succ_iff.mp (hu ▸ h.lt)) with rfl | hlt
  · simp [idle_iff.mp h.accepts.1]
  · simp [h.acquiring u hlt (by omega)]

/-- In a whole packet no word but the last has met a forced idle. -/
lemma WholePacket.calm (h : r.WholePacket a w) {j : ℕ} (hj : j < 18) :
    (r.inp (w + j)).forceFsmIdle = false := by
  have hnow : r.phase (w + j) = .sending j :=
    phase_eq_sending_iff.mpr ⟨by omega, h.word j (by omega)⟩
  have hnext : r.phase (w + j + 1) = .sending (j + 1) :=
    phase_eq_sending_iff.mpr ⟨by omega, h.word (j + 1) (by omega)⟩
  exact (sending_succ_of_step hnext).2.2

/-- In a well framed group no word but the last has met a forced idle. -/
lemma WellFramed.calm (hw : r.WellFramed t) (hphase : r.phase t = .sending 18) {k : Fin 19}
    (hu : r.InGroup t u) (hstate : (r.regs u).currentState = .roWfifo k) (hk : k < 18) :
    (r.inp u).forceFsmIdle = false := by
  obtain ⟨a, w, rfl, hwhole⟩ | ⟨a, habort⟩ := hw
  · obtain ⟨hwu, huw⟩ := (hwhole.group u).mp hu
    obtain ⟨j, rfl⟩ := Nat.exists_eq_add_of_le hwu
    have hj : k.val = j := by
      rw [hwhole.word j (by omega), State.roWfifo.injEq] at hstate
      rw [← hstate]
    exact hwhole.calm (hj ▸ Fin.lt_def.mp hk)
  · exact absurd hphase (by simp [phase, Regs.phase, habort.abortWord.1, State.phase])

section Forced

variable (hr : r.FromReset) (hready : ∀ t, (r.inp t).dataTready = true)
include hr hready

/-- Words that are followed by no forced idle run on to a last word, so a group that no forced
idle has met starts with the first word of its last packet. -/
lemma InGroup.ge_firstWord (hs : r.SendingSince a w 18) (hu : r.InGroup (w + 18) u)
    (hcalm : ∀ v j, r.InGroup (w + 18) v → r.phase v = .sending j → j < 18 →
      (r.inp v).forceFsmIdle = false) : w ≤ u := by
  by_contra hlt
  have hsent : ∀ v j, r.phase v = .sending j → r.Sent v := fun v j hv =>
    (sent_iff_offered fun _ => hready v).mpr ((offered_iff hr.idle_zero).mpr ⟨j, hv⟩)
  obtain ⟨k, hk⟩ := (offered_iff hr.idle_zero).mp hu.sent.1
  -- the words from cycle `u` on, up to the word `18`, all come before cycle `w`
  have hrun : ∀ j, k + j ≤ 18 → u + j < w ∧ r.phase (u + j) = .sending (k + j) := by
    intro j
    induction j with
    | zero => exact fun _ => ⟨by omega, hk⟩
    | succ j ih =>
        intro hj
        obtain ⟨hjw, hphase⟩ := ih (by omega)
        have hne : u + j + 1 ≠ w := fun hw => hs.pred_not_sending hw _ hphase
        have hmem : r.InGroup (w + 18) (u + j) :=
          ⟨by omega, hsent _ _ hphase, fun v hv hvt => hu.isOpen v (by omega) hvt⟩
        have hk18 : k + j < 18 := by omega
        exact ⟨by omega, step_of_sending hphase hk18 (hcalm (u + j) (k + j) hmem hphase hk18)⟩
  obtain ⟨hk19, -⟩ := phase_eq_sending_iff.mp hk
  obtain ⟨hlast, hphase⟩ := hrun (18 - k) (by omega)
  have hopen := hu.isOpen (u + (18 - k)) (by omega) (by omega) (hsent _ _ hphase)
  rw [tlast_of_sending hphase] at hopen
  simp at hopen
  omega

lemma WholePacket.of_calm (hs : r.SendingSince a w 18)
    (hcalm : ∀ v j, r.InGroup (w + 18) v → r.phase v = .sending j → j < 18 →
      (r.inp v).forceFsmIdle = false) : r.WholePacket a w where
  accepts := hs.accepts
  lt := hs.lt
  oneAcquisition _ hu huw := hs.not_idle hu huw
  word j hj := by
    obtain ⟨_, hstate⟩ := phase_eq_sending_iff.mp (hs.sending j (by omega))
    exact hstate
  group u := by
    refine ⟨fun hu => ⟨hu.ge_firstWord hr hready hs hcalm, hu.le⟩, fun ⟨hwu, huw⟩ => ?_⟩
    obtain ⟨j, rfl⟩ := Nat.exists_eq_add_of_le hwu
    refine ⟨huw, (sent_iff_offered fun _ => hready _).mpr
      ((offered_iff hr.idle_zero).mpr ⟨j, hs.sending j (by omega)⟩), fun v hv hvt _ => ?_⟩
    obtain ⟨i, rfl⟩ := Nat.exists_eq_add_of_le (hwu.trans hv)
    rw [tlast_of_sending (hs.sending i (by omega))]
    simp
    omega

/-- **Framing under forced idles.**  In a run from reset whose receiver is always ready, a group
of words is one packet, or closed by the abort word, exactly when none of its words but the last
was on offer in a cycle with `force_fsm_idle` high. -/
theorem wellFramed_iff : ∀ t, r.Closes t →
    (r.WellFramed t ↔ ∀ u k, r.InGroup t u → (r.regs u).currentState = .roWfifo k → k < 18 →
      (r.inp u).forceFsmIdle = false) := by
  intro t ht
  have hphase := phase_of_tlast hr.idle_zero ht.1.1 ht.2
  refine ⟨fun hw u k hu hstate hk => hw.calm hphase hu hstate hk, fun hcalm => ?_⟩
  obtain ⟨a, w, rfl, hs⟩ := exists_sendingSince hr.idle_zero hphase
  refine .inl ⟨a, w, rfl, .of_calm hr hready hs fun v j hv hj hj18 => ?_⟩
  obtain ⟨hj19, hstate⟩ := phase_eq_sending_iff.mp hj
  exact hcalm v ⟨j, hj19⟩ hv hstate (Fin.lt_def.mpr hj18)

end Forced

/-- The packet of `singleEvent` is well framed. -/
theorem singleEvent_wellFramed : singleEvent.WellFramed 578 := by
  have hwhole := singleEvent_sendingSince.complete fun _ _ _ => rfl
  have hlast : singleEvent.phase 578 = .sending 18 := hwhole.sending 18 le_rfl
  have hoffered := (offered_iff (fromReset_ofReset _).idle_zero).mpr ⟨18, hlast⟩
  exact (wellFramed_iff (fromReset_ofReset _) (fun _ => rfl) 578
    ⟨⟨hoffered, rfl⟩, tlast_of_sending hlast⟩).mpr fun _ _ _ _ _ => rfl

/-- Two forced triggers, and a forced idle in the cycle in which the first word is on offer. -/
def forcedInPacket : Run := ofReset fun t =>
  { Input.quiet with
    forceTrigger := decide (t = 0 ∨ t = 600), forceTriggerEna := true, vataO5 := true,
    forceFsmIdle := decide (t = 560) }

/-- The group that ends in cycle `1178` holds a word of the event that the forced idle cut off
and the nineteen words of the next one. -/
theorem forcedInPacket_joins : ¬ ∀ r : Run, r.FromReset → (∀ t, (r.inp t).dataTready = true) →
    ∀ t, r.Closes t → r.WellFramed t := by
  intro hclaim
  obtain ⟨hfirst, hlast, hopen⟩ :
      (forcedInPacket.regs 560).currentState = .roWfifo 0 ∧
      forcedInPacket.phase 1178 = .sending 18 ∧
      ∀ v < 1178, (forcedInPacket.out v).dataTlast = false := by decide +kernel
  have hsent : ∀ t k, forcedInPacket.phase t = .sending k → forcedInPacket.Sent t := fun t k hk =>
    ⟨(offered_iff (fromReset_ofReset _).idle_zero).mpr ⟨k, hk⟩, rfl⟩
  have hframed := hclaim forcedInPacket (fromReset_ofReset _) (fun _ => rfl) 1178
    ⟨hsent _ _ hlast, tlast_of_sending hlast⟩
  have hmem : forcedInPacket.InGroup 1178 560 :=
    ⟨by decide, hsent 560 0 (phase_eq_sending_iff.mpr ⟨by decide, hfirst⟩),
      fun v _ hv _ => hopen v hv⟩
  exact absurd (hframed.calm hlast hmem hfirst (by decide)) (by decide)

/-! ## Back-pressure -/

/-- What an AXI4-Stream sender owes its receiver. -/
structure Handshake (r : Run) : Prop where
  word : ∀ t, r.Sent t →
    ∃ k : Fin 19, (r.regs t).currentState = .roWfifo k ∧ Nat.count r.Sent t % 19 = k
  lastExactly : ∀ t, r.Sent t → ((r.out t).dataTlast = true ↔ Nat.count r.Sent t % 19 = 18)
  oneAcquisition : ∀ t u, r.Sent t → r.Sent u → t < u →
    Nat.count r.Sent t / 19 = Nat.count r.Sent u / 19 → ∀ v, t < v → v ≤ u → ¬ r.Idle v
  held : ∀ t, r.Offered t → (r.inp t).dataTready = false →
    r.Offered (t + 1) ∧ (r.out (t + 1)).dataTdata = (r.out t).dataTdata ∧
      (r.out (t + 1)).dataTlast = (r.out t).dataTlast

/-- A word that was not taken is missing from the count of words sent ever after. -/
lemma count_sent_lt (hoffered : r.Offered t) (hlost : ¬ r.Sent t) (htu : t < u) :
    Nat.count r.Sent u < Nat.count r.Offered u := by
  induction u, Nat.succ_le_of_lt htu using Nat.le_induction with
  | base =>
      rw [Nat.count_succ, Nat.count_succ, if_neg hlost, if_pos hoffered]
      have hle : Nat.count r.Sent t ≤ Nat.count r.Offered t := Nat.count_mono_left fun _ _ h => h.1
      omega
  | succ u htu ih =>
      have hlt := ih (by omega)
      rw [Nat.count_succ, Nat.count_succ]
      by_cases hsent : r.Sent u
      · rw [if_pos hsent, if_pos hsent.1]
        omega
      · rw [if_neg hsent]
        omega

/-- After the last word nothing is on offer, so it cannot wait for the receiver. -/
lemma Handshake.ready_of_last (h : r.Handshake) (h0 : r.Idle 0) (hlast : r.phase t = .sending 18) :
    (r.inp t).dataTready = true := by
  by_contra hnot
  have hoffered : r.Offered t := (offered_iff h0).mpr ⟨18, hlast⟩
  obtain ⟨hnext, -⟩ := h.held t hoffered (Bool.eq_false_of_not_eq_true hnot)
  obtain ⟨k, hk⟩ := (offered_iff h0).mp hnext
  have hreturning : r.phase (t + 1) = .returning := step_of_sending_last hlast
  simp [hreturning] at hk

section Unforced

variable (hr : r.FromReset) (hforce : ∀ t, (r.inp t).forceFsmIdle = false)
include hr hforce

/-- If the handshake is kept, the receiver is ready for every word: were one lost, the last word
of its packet would stand in the wrong place. -/
lemma Handshake.ready (h : r.Handshake) (hoffered : r.Offered t) :
    (r.inp t).dataTready = true := by
  induction t using Nat.strong_induction_on with
  | h t ih =>
      by_contra hnot
      have hlost : ¬ r.Sent t := fun hs => hnot hs.2
      obtain ⟨k, hk⟩ := (offered_iff hr.idle_zero).mp hoffered
      obtain ⟨a, w, rfl, hs⟩ := exists_sendingSince hr.idle_zero hk
      have hwhole := hs.complete fun j _ _ => hforce (w + j)
      have hlast := hwhole.sending 18 le_rfl
      have hk18 : k < 18 := by
        rcases Nat.lt_trichotomy k 18 with hlt | rfl | hgt
        · exact hlt
        · exact absurd (h.ready_of_last hr.idle_zero hk) hnot
        · obtain ⟨hk19, -⟩ := phase_eq_sending_iff.mp hk
          omega
      -- the words sent before the last word: all of the earlier packets, not all of this one
      obtain ⟨n, -, hcount⟩ := count_offered_of_sending hr hforce hk
      obtain ⟨m, -, hcountLast⟩ := count_offered_of_sending hr hforce hlast
      have hge : 19 * n + k ≤ Nat.count r.Sent (w + 18) := by
        rw [← hcount, ← count_sent_eq fun u hu => ih u hu]
        exact Nat.count_monotone r.Sent (by omega)
      have hlt := count_sent_lt hoffered hlost (u := w + 18) (by omega)
      have hadd : Nat.count r.Offered (w + 18) ≤ 19 * n + 18 := by
        obtain ⟨d, hd⟩ := Nat.exists_eq_add_of_le hk18.le
        have hw : w + 18 = w + k + d := by omega
        rw [hw, Nat.count_add, hcount]
        have := Nat.count_le (p := fun j => r.Offered (w + k + j)) (n := d)
        omega
      have hsent : r.Sent (w + 18) :=
        ⟨(offered_iff hr.idle_zero).mpr ⟨18, hlast⟩, h.ready_of_last hr.idle_zero hlast⟩
      have hmod := (h.lastExactly (w + 18) hsent).mp (by rw [tlast_of_sending hlast]; rfl)
      omega

/-- A receiver that is ready for every word gets whole packets. -/
lemma Handshake.of_ready (hready : ∀ t, r.Offered t → (r.inp t).dataTready = true) :
    r.Handshake := by
  have hcount : ∀ t, Nat.count r.Sent t = Nat.count r.Offered t := fun t =>
    count_sent_eq fun u _ => hready u
  have hword : ∀ t, r.Sent t → ∃ n k, ∃ hk : k < 19,
      (r.regs t).currentState = .roWfifo ⟨k, hk⟩ ∧ Nat.count r.Sent t = 19 * n + k := by
    intro t ht
    obtain ⟨k, hk⟩ := (offered_iff hr.idle_zero).mp ht.1
    obtain ⟨hk19, hstate⟩ := phase_eq_sending_iff.mp hk
    obtain ⟨n, -, hn⟩ := count_offered_of_sending hr hforce hk
    exact ⟨n, k, hk19, hstate, (hcount t).trans hn⟩
  refine
    { word := fun t ht => ?word
      lastExactly := fun t ht => ?lastExactly
      oneAcquisition := fun t u ht hu htu hsame v hv hvu => ?oneAcquisition
      held := fun t ht hnot => ?held }
  case word =>
    obtain ⟨n, k, hk, hstate, hn⟩ := hword t ht
    exact ⟨⟨k, hk⟩, hstate, by rw [hn]; simp; omega⟩
  case lastExactly =>
    obtain ⟨n, k, hk, hstate, hn⟩ := hword t ht
    rw [tlast_of_sending (phase_eq_sending_iff.mpr ⟨hk, hstate⟩), hn, decide_eq_true_eq]
    omega
  case oneAcquisition =>
    obtain ⟨k, hk⟩ := (offered_iff hr.idle_zero).mp ht.1
    obtain ⟨a, w, rfl, hs⟩ := exists_sendingSince hr.idle_zero hk
    have hwhole := hs.complete fun j _ _ => hforce (w + j)
    obtain ⟨n, -, hn⟩ := count_offered_of_sending hr hforce hk
    obtain ⟨m, -, hm⟩ := count_offered_of_sending hr hforce (hwhole.sending 18 le_rfl)
    obtain ⟨hk19, -⟩ := phase_eq_sending_iff.mp hk
    -- the later word is no later than the last word of the packet
    have hle : u ≤ w + 18 := by
      by_contra hgt
      have hmono := Nat.count_monotone r.Offered (show w + 18 + 1 ≤ u by omega)
      rw [Nat.count_succ, if_pos ((offered_iff hr.idle_zero).mpr ⟨18, hwhole.sending 18 le_rfl⟩),
        hm] at hmono
      have hmono' := Nat.count_monotone r.Offered (show w + k ≤ w + 18 by omega)
      rw [hcount, hcount, hn] at hsame
      rw [hn, hm] at hmono'
      omega
    exact hwhole.not_idle (by have := hs.lt; omega) (by omega)
  case held => exact absurd (hready t ht) (by simp [hnot])

/-- **Stream handshake.**  In a run from reset without forced idles the handshake is kept exactly
when the receiver is ready in every cycle in which a word is on offer. -/
theorem handshake_iff :
    r.Handshake ↔ ∀ t k, (r.regs t).currentState = .roWfifo k → (r.inp t).dataTready = true := by
  constructor
  · intro h t k hstate
    exact h.ready hr hforce ((offered_iff_roWfifo hr.idle_zero).mpr ⟨k, hstate⟩)
  · intro hready
    refine .of_ready hr hforce fun t ht => ?_
    obtain ⟨k, hstate⟩ := (offered_iff_roWfifo hr.idle_zero).mp ht
    exact hready t k hstate

end Unforced

/-- `singleEvent` keeps the handshake: its receiver is always ready. -/
theorem singleEvent_handshake : singleEvent.Handshake :=
  (handshake_iff (fromReset_ofReset _) fun _ => rfl).mpr fun _ _ _ => rfl

/-- The event of `singleEvent`, with a receiver that does not take the last word. -/
def lastWordRefused : Run := ofReset fun t =>
  { singleEvent.inp t with dataTready := decide (t ≠ 578) }

/-- The last word is offered in cycle `578`, is not taken, and is withdrawn. -/
theorem lastWordRefused_withdrawn :
    ¬ ∀ r : Run, r.FromReset → (∀ t, (r.inp t).forceFsmIdle = false) → r.Handshake := by
  intro hclaim
  obtain ⟨hoffered, hwithdrawn⟩ :
      lastWordRefused.Offered 578 ∧ ¬ lastWordRefused.Offered 579 := by decide +kernel
  have hheld := (hclaim lastWordRefused (fromReset_ofReset _) fun _ => rfl).held 578 hoffered
    (by decide)
  exact hwithdrawn hheld.1

end Run

end TrackerFpga.Vata
