import TrackerFpga.Dac.Core

/-!
# What the chips hold

A chip takes the words that it was told in the windows of its wire (`taken`).  The machine rests in
`IDLE` and in the two states `SYNC_END`, where the chips have the whole frame (`Rests`).  From an
idle cycle to one in which it rests, and as long as the word and the mask stay as they are, the
chips of the mask take the word if there was a trigger, and no chip takes anything else
(`taken_of_trigger`, `taken_of_stable`); what the delay register does meanwhile makes no difference.
With a bound on the delay register there is one on the length of a frame (`idle_of_long`).
-/

namespace TrackerFpga.Dac

open SerialRegister SpiWire

variable {D M : ℕ}

/-- What a DAC121S101 holds after what it was told in the windows: it takes a word at the sixteenth
falling edge, and drops what it was told of a word when its select rises before. -/
def taken (v : BitVec 16) (ws : List (List Bool)) : BitVec 16 :=
  ws.foldl (fun v w => if 16 ≤ w.length then serialIn 0#16 (w.take 16) else v) v

lemma taken_append (v : BitVec 16) (ws ws' : List (List Bool)) :
    taken v (ws ++ ws') = taken (taken v ws) ws' := List.foldl_append ..

/-- A chip of the mask takes the word of a frame, any other chip nothing. -/
lemma taken_frame (word v : BitVec 16) (selected : Bool) :
    taken v (frameWatch word selected 41).windows = if selected then word else v := by
  cases selected with
  | true =>
      have htake : (msbFirst word).take 16 = msbFirst word :=
        List.take_of_length_le (length_msbFirst word).le
      simp [windows_selected, taken, htake, serialIn_msbFirst]
  | false => simp [windows_not_selected, taken]

/-- After the last bit the windows of a frame are complete. -/
lemma windows_of_end (word : BitVec 16) (selected : Bool) {p : ℕ} (hp : 39 ≤ p) (hend : p ≤ 41) :
    (frameWatch word selected p).windows = (frameWatch word selected 41).windows := by
  refine (windows_along_of_sync hend fun j hj hj' => ?_).symm
  obtain rfl | rfl : j = 40 ∨ j = 41 := by omega
  all_goals rfl

/-- In these states all chips are deselected, and have the word of the last frame. -/
def State.Rests (state : State) : Prop :=
  state = .idle ∨ state = .syncEndSet ∨ state = .syncEndClk

instance (state : State) : Decidable state.Rests := inferInstanceAs (Decidable (_ ∨ _))

lemma frameState_rests {p : ℕ} (hp : p ≤ 41) : (frameState p).Rests → p = 0 ∨ 39 ≤ p := by
  revert p
  decide

namespace Run

variable {r : Run D M} {word v : BitVec 16} {mask : BitVec M} {n a b c u : ℕ}

lemma level_of_idle (hn : n < M) (h : r.Idle u) (word : BitVec 16) (selected : Bool) :
    r.level n u = frameLevel word selected 0 := by
  have hstate : (r.regs u).currentState = .idle := h
  rw [Run.level, hstate, level_eq_chipLevel _ _ hn]
  rfl

/-- Without a trigger the machine stays idle. -/
lemma idle_succ (h : r.Idle u) (htrig : (r.inp u).writeTrig = false) : r.Idle (u + 1) := by
  rw [Idle, regs_succ, step_of_idle h, htrig]
  rfl

lemma idle_of_no_trigger (h : r.Idle a) (hab : a ≤ b)
    (htrig : ∀ u, a ≤ u → u < b → (r.inp u).writeTrig = false) : r.Idle b :=
  Clocked.invariant_between (P := r.Idle) h
    (fun u hu hub hidle => idle_succ hidle (htrig u hu hub)) hab le_rfl

/-- The machine is in a state in which it rests. -/
def Rests (r : Run D M) (u : ℕ) : Prop := (r.regs u).currentState.Rests

lemma Idle.rests (h : r.Idle u) : r.Rests u := .inl h

lemma sync_of_rests (hn : n < M) (h : r.Rests u) : (r.level n u).sync = true := by
  rw [Run.level, level_eq_chipLevel _ _ hn]
  rcases h with h | h | h
  all_goals
    rw [h]
    rfl

lemma rests_succ (h : r.Rests u) (htrig : r.Idle u → (r.inp u).writeTrig = false) :
    r.Rests (u + 1) := by
  by_cases hidle : r.Idle u
  · exact (idle_succ hidle (htrig hidle)).rests
  · rw [Rests, regs_succ, step_of_busy hidle]
    rcases h.resolve_left hidle with hset | hclk
    · rw [hset]
      split_ifs
      · exact .inr (.inr rfl)
      · exact .inr (.inl rfl)
    · rw [hclk]
      split_ifs
      · exact .inl rfl
      · exact .inr (.inr rfl)

/-- The machine rests until a trigger finds it idle. -/
lemma rests_of_no_trigger (h : r.Rests a) (hab : a ≤ b)
    (htrig : ∀ u, a ≤ u → u < b → r.Idle u → (r.inp u).writeTrig = false) : r.Rests b :=
  Clocked.invariant_between (P := r.Rests) h
    (fun u hu hub hrests => rests_succ hrests (htrig u hu hub)) hab le_rfl

/-- The last level that a chip has seen. -/
lemma last_along (k : ℕ) :
    (watch.along (.start (r.level n a)) (fun j => r.level n (a + j)) k).last =
      r.level n (a + k) := by
  cases k with
  | zero => rfl
  | succ k => rw [watch.along_succ, last_see]

/-- What a chip writes down can be cut in two where the machine rests. -/
lemma windows_append (hn : n < M) (hab : a ≤ b) (hbc : b ≤ c) (hb : r.Rests b) :
    r.windows n a c = r.windows n a b ++ r.windows n b c := by
  obtain ⟨j, rfl⟩ := Nat.exists_eq_add_of_le hab
  obtain ⟨k, rfl⟩ := Nat.exists_eq_add_of_le hbc
  have hhigh : (r.level n (a + j)).sync = true := sync_of_rests hn hb
  have hlast := r.last_along (n := n) (a := a) j
  rw [← hlast] at hhigh
  have happend := windows_along_append (L := fun i => r.level n (a + j + i)) hhigh k
  rw [hlast] at happend
  unfold windows
  rw [Nat.add_assoc, Nat.add_sub_cancel_left, Nat.add_sub_cancel_left, ← Nat.add_assoc,
    Nat.add_sub_cancel_left, watch.along_add, ← happend]
  simp only [Nat.add_assoc]

/-- Nothing is written down while the machine rests. -/
lemma windows_of_rests (hn : n < M) (hab : a ≤ b) (h : ∀ u, a < u → u ≤ b → r.Rests u) :
    r.windows n a b = [] :=
  windows_along_of_sync (Nat.zero_le _) fun j _ _ =>
    sync_of_rests hn (h (a + j) (by omega) (by omega))

/-- Within a frame the machine is at a place of it, and a chip has seen the frame up to there. -/
lemma watch_in_frame (hn : n < M) (ha : r.Idle a) (htrig : (r.inp a).writeTrig = true)
    (hstable : ∀ u, a ≤ u → u ≤ b → (r.inp u).inputWord = word ∧ (r.inp u).selectMask = mask)
    (hbusy : ∀ u, a < u → u < b → ¬ r.Idle u) {k : ℕ} (hk : a + (k + 1) ≤ b) :
    ∃ p, p ≤ 40 ∧ (r.regs (a + (k + 1))).currentState = frameState (p + 1) ∧
      watch.along (.start (r.level n a)) (fun j => r.level n (a + j)) (k + 1) =
        frameWatch word (mask.getLsbD n) (p + 1) := by
  have hlevel : ∀ u, a ≤ u → u ≤ b → ∀ p, (r.regs u).currentState = frameState p →
      r.level n u = frameLevel word (mask.getLsbD n) p := by
    intro u hu hub p hstate
    obtain ⟨hword, hmask⟩ := hstable u hu hub
    rw [Run.level, level_eq_chipLevel _ _ hn, hword, hmask, hstate, frameLevel]
  induction k with
  | zero =>
      have hstate : (r.regs (a + 1)).currentState = frameState 1 := by
        rw [regs_succ, step_of_idle ha, htrig]
        rfl
      refine ⟨0, by decide, hstate, ?_⟩
      rw [watch.along_succ, watch.along_zero, hlevel (a + 1) (by omega) hk 1 hstate,
        level_of_idle hn ha word (mask.getLsbD n)]
      rfl
  | succ k ih =>
      obtain ⟨p, hp, hstate, hwatch⟩ := ih (by omega)
      have hnotIdle : (r.regs (a + (k + 1))).currentState ≠ .idle :=
        hbusy (a + (k + 1)) (by omega) (by omega)
      have hp40 : p ≠ 40 := by
        rintro rfl
        exact hnotIdle (hstate.trans (by decide))
      have hnext : (r.regs (a + (k + 1) + 1)).currentState = frameState (p + 1) ∨
          (r.regs (a + (k + 1) + 1)).currentState = frameState (p + 1 + 1) := by
        rw [regs_succ, step_of_busy hnotIdle]
        split_ifs
        · right
          rw [hstate, ← frameState_succ]
        · exact .inl hstate
      rcases hnext with hstay | hmove
      · refine ⟨p, hp, hstay, ?_⟩
        have hnow := hlevel (a + (k + 1) + 1) (by omega) hk (p + 1) hstay
        rw [watch.along_succ, hwatch]
        show watch.see (r.level n (a + (k + 1) + 1)) _ = _
        rw [hnow, see_frameWatch]
      · refine ⟨p + 1, by omega, hmove, ?_⟩
        have hnow := hlevel (a + (k + 1) + 1) (by omega) hk (p + 1 + 1) hmove
        rw [watch.along_succ, hwatch]
        show watch.see (r.level n (a + (k + 1) + 1)) _ = _
        rw [hnow, ← frameWatch_succ]

/-- What a chip writes down of a frame, whatever the delay register does during it. -/
lemma windows_to_rest (hn : n < M) (ha : r.Idle a) (htrig : (r.inp a).writeTrig = true)
    (hstable : ∀ u, a ≤ u → u ≤ b → (r.inp u).inputWord = word ∧ (r.inp u).selectMask = mask)
    (hbusy : ∀ u, a < u → u < b → ¬ r.Idle u) (hab : a < b) (hb : r.Rests b) :
    r.windows n a b = (frameWatch word (mask.getLsbD n) 41).windows := by
  obtain ⟨k, rfl⟩ := Nat.exists_eq_add_of_lt hab
  obtain ⟨p, hp, hstate, hwatch⟩ := watch_in_frame hn ha htrig hstable hbusy (k := k) le_rfl
  have hrests : (frameState (p + 1)).Rests := hstate ▸ hb
  have hend : 39 ≤ p + 1 := (frameState_rests (by omega) hrests).resolve_left (Nat.succ_ne_zero p)
  rw [windows, Nat.add_assoc, Nat.add_sub_cancel_left, hwatch, windows_of_end _ _ hend (by omega)]

/-- The next idle cycle, if there is one before cycle `b`. -/
lemma exists_next_idle (hab : a < b) (hb : r.Rests b) :
    ∃ e, a < e ∧ e ≤ b ∧ r.Rests e ∧ (r.Idle e ∨ e = b) ∧ ∀ u, a < u → u < e → ¬ r.Idle u := by
  have hexists : ∃ e, a < e ∧ (r.Idle e ∨ e = b) := ⟨b, hab, .inr rfl⟩
  obtain ⟨hlt, hfound⟩ := Nat.find_spec hexists
  refine ⟨Nat.find hexists, hlt, Nat.find_min' hexists ⟨hab, .inr rfl⟩, ?_, hfound,
    fun u hu hue hidle => Nat.find_min hexists hue ⟨hu, .inl hidle⟩⟩
  rcases hfound with hidle | heq
  · exact hidle.rests
  · rw [heq]
    exact hb

/-- A chip that is not in the mask, or that holds the word already, keeps what it holds. -/
lemma taken_of_stable (hn : n < M) (hab : a ≤ b) (ha : r.Idle a) (hb : r.Rests b)
    (hstable : ∀ u, a ≤ u → u ≤ b → (r.inp u).inputWord = word ∧ (r.inp u).selectMask = mask)
    (hv : mask.getLsbD n = true → v = word) : taken v (r.windows n a b) = v := by
  -- along the idle cycles between `a` and `b`
  induction hlen : b - a using Nat.strong_induction_on generalizing a with
  | _ len ih =>
      rcases Nat.eq_or_lt_of_le hab with rfl | hlt
      · rw [windows_of_rests hn le_rfl fun u hu hua => by omega]
        rfl
      obtain ⟨e, hae, heb, he, hnext, hbusy⟩ := exists_next_idle hlt hb
      have hfirst : taken v (r.windows n a e) = v := by
        cases htrig : (r.inp a).writeTrig with
        | false =>
            have hidle := idle_succ ha htrig
            obtain rfl : e = a + 1 := by
              by_contra hne
              exact hbusy (a + 1) (Nat.lt_succ_self a) (by omega) hidle
            rw [windows_of_rests hn hae.le fun u hu hue => by
              obtain rfl : u = a + 1 := by omega
              exact he]
            rfl
        | true =>
            rw [windows_to_rest hn ha htrig (fun u hu hue => hstable u hu (hue.trans heb)) hbusy
              hae he, taken_frame]
            split_ifs with hsel
            · exact (hv hsel).symm
            · rfl
      rcases hnext with hidle | rfl
      · rw [windows_append hn hae.le heb he, taken_append, hfirst]
        exact ih (b - e) (by omega) heb hidle (fun u hu hub => hstable u (hae.le.trans hu) hub) rfl
      · exact hfirst

/-- After a trigger a chip of the mask holds the word. -/
lemma taken_of_trigger (hn : n < M) (hab : a < b) (ha : r.Idle a) (hb : r.Rests b)
    (htrig : (r.inp a).writeTrig = true)
    (hstable : ∀ u, a ≤ u → u ≤ b → (r.inp u).inputWord = word ∧ (r.inp u).selectMask = mask)
    (hsel : mask.getLsbD n = true) : taken v (r.windows n a b) = word := by
  obtain ⟨e, hae, heb, he, hnext, hbusy⟩ := exists_next_idle hab hb
  have hfirst : taken v (r.windows n a e) = word := by
    rw [windows_to_rest hn ha htrig (fun u hu hue => hstable u hu (hue.trans heb)) hbusy hae he,
      taken_frame, if_pos hsel]
  rcases hnext with hidle | rfl
  · rw [windows_append hn hae.le heb he, taken_append, hfirst]
    exact taken_of_stable hn heb hidle hb (fun u hu hub => hstable u (hae.le.trans hu) hub)
      fun _ => rfl
  · exact hfirst

/-! ## How long a frame can last -/

/-- The cycles that are left of a frame at its place `p` with the counter at `k`, at most, if the
delay register is at most `m`. -/
def remaining (m p k : ℕ) : ℕ := if p = 0 then 0 else (41 - p) * (m + 1) - k

/-- The machine is at a place of a frame, and its counter has not gone beyond the delay. -/
lemma exists_place_of_delay_le {m : ℕ} (hr : r.start = .reset)
    (hdelay : ∀ u, (r.inp u).delayRegister.toNat ≤ m) (u : ℕ) :
    ∃ p ≤ 40, (r.regs u).currentState = frameState p ∧ (r.regs u).counterStayValue.toNat ≤ m := by
  induction u with
  | zero => exact ⟨0, by decide, by rw [regs, hr]; rfl, by simp [regs, hr, Regs.reset]⟩
  | succ u ih =>
      obtain ⟨p, hp, hstate, hcount⟩ := ih
      by_cases hidle : (r.regs u).currentState = .idle
      · rw [regs_succ, step_of_idle hidle]
        cases (r.inp u).writeTrig with
        | true => exact ⟨1, by decide, rfl, by simp⟩
        | false => exact ⟨0, by decide, rfl, by simp⟩
      · rw [regs_succ, step_of_busy hidle]
        split_ifs with hreached
        · rcases Nat.lt_or_ge p 40 with hlt | hge
          · exact ⟨p + 1, hlt, by rw [hstate, ← frameState_succ], by simp⟩
          · obtain rfl : p = 40 := by omega
            exact ⟨0, by decide, by rw [hstate]; rfl, by simp⟩
        · have hlow : (r.regs u).counterStayValue.toNat < (r.inp u).delayRegister.toNat :=
            BitVec.lt_def.mp (BitVec.not_le.mp hreached)
          have hbound := hdelay u
          refine ⟨p, hp, hstate, ?_⟩
          have hone : (1#D).toNat ≤ 1 := Nat.mod_le _ _
          rw [BitVec.toNat_add]
          exact (Nat.mod_le _ _).trans (by omega)

/-- Without a trigger a frame ends. -/
lemma idle_of_remaining {m p j : ℕ} (hdelay : ∀ u, (r.inp u).delayRegister.toNat ≤ m) (hp : p ≤ 40)
    (hstate : (r.regs a).currentState = frameState p)
    (hcount : (r.regs a).counterStayValue.toNat ≤ m)
    (hj : remaining m p (r.regs a).counterStayValue.toNat ≤ j)
    (htrig : ∀ u, a ≤ u → u < a + j → (r.inp u).writeTrig = false) : r.Idle (a + j) := by
  induction j generalizing a p with
  | zero =>
      have hzero : p = 0 := by
        by_contra hne
        have hmul : 1 * (m + 1) ≤ (41 - p) * (m + 1) := Nat.mul_le_mul_right _ (by omega)
        rw [remaining, if_neg hne] at hj
        omega
      rw [Nat.add_zero, Idle, hstate, hzero]
      rfl
  | succ j ih =>
      rw [show a + (j + 1) = a + 1 + j by omega]
      have htrig' : ∀ u, a + 1 ≤ u → u < a + 1 + j → (r.inp u).writeTrig = false := fun u hu huj =>
        htrig u (by omega) (by omega)
      by_cases hidle : (r.regs a).currentState = .idle
      · have hnext : r.regs (a + 1) = { currentState := .idle, counterStayValue := 0#D } := by
          rw [regs_succ, step_of_idle hidle, htrig a le_rfl (by omega)]
          rfl
        exact ih (p := 0) (by decide) (by rw [hnext]; rfl) (by rw [hnext]; simp)
          (by simp [remaining]) htrig'
      · have hpos : p ≠ 0 := by
          rintro rfl
          exact hidle hstate
        rw [remaining, if_neg hpos] at hj
        have hmul : (41 - p) * (m + 1) = (40 - p) * (m + 1) + (m + 1) := by
          rw [show 41 - p = 40 - p + 1 by omega, Nat.succ_mul]
        have hnext : r.regs (a + 1) = _ := (r.regs_succ a).trans (step_of_busy hidle)
        by_cases hreached : (r.regs a).counterStayValue ≥ (r.inp a).delayRegister
        · rw [if_pos hreached, hstate, ← frameState_succ] at hnext
          rcases Nat.lt_or_ge p 40 with hlt | hge
          · refine ih (p := p + 1) hlt (by rw [hnext]) (by rw [hnext]; simp) ?_ htrig'
            rw [hnext, remaining, if_neg (Nat.succ_ne_zero p), show 41 - (p + 1) = 40 - p by omega]
            omega
          · obtain rfl : p = 40 := by omega
            exact ih (p := 0) (by decide) (by rw [hnext]; rfl) (by rw [hnext]; simp)
              (by simp [remaining]) htrig'
        · rw [if_neg hreached] at hnext
          have hlow : (r.regs a).counterStayValue.toNat < (r.inp a).delayRegister.toNat :=
            BitVec.lt_def.mp (BitVec.not_le.mp hreached)
          have hbound := hdelay a
          have hsucc : (r.regs (a + 1)).counterStayValue.toNat =
              (r.regs a).counterStayValue.toNat + 1 := by
            have hlt := (r.inp a).delayRegister.isLt
            rw [hnext]
            simp only [BitVec.toNat_add, BitVec.toNat_ofNat, Nat.add_mod_mod]
            exact Nat.mod_eq_of_lt (by omega)
          refine ih hp (by rw [hnext]; exact hstate) (by omega) ?_ htrig'
          rw [hsucc, remaining, if_neg hpos]
          omega

/-- A frame is over, and no other has begun, `40 * (m + 1)` cycles after the trigger has gone low,
if the delay register is at most `m`. -/
lemma idle_of_long {m : ℕ} (hr : r.start = .reset)
    (hdelay : ∀ u, (r.inp u).delayRegister.toNat ≤ m) (hab : a + 40 * (m + 1) ≤ b)
    (htrig : ∀ u, a ≤ u → u < b → (r.inp u).writeTrig = false) : r.Idle b := by
  obtain ⟨p, hp, hstate, hcount⟩ := exists_place_of_delay_le hr hdelay a
  obtain ⟨j, rfl⟩ := Nat.exists_eq_add_of_le (show a ≤ b by omega)
  refine idle_of_remaining hdelay hp hstate hcount ?_ htrig
  rw [remaining]
  split_ifs with hzero
  · exact Nat.zero_le j
  · have hmul : (41 - p) * (m + 1) ≤ 40 * (m + 1) := Nat.mul_le_mul_right _ (by omega)
    omega

end Run

end TrackerFpga.Dac
