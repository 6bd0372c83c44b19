import TrackerFpga.Dac.Fsm
import TrackerFpga.Lib.SerialRegister

/-!
# A frame on the wire

With the delay register at `d` a frame stays `d + 1` cycles in each of its forty states.  All chips
are selected during the first four states, in which the clock does not move, and during the bits
15 to 6; from bit 5 on only those of the mask are.  So a chip of the mask sees one window with the
sixteen bits of the word, any other chip one with ten of them (`frame`).
-/

namespace TrackerFpga.Dac

open SerialRegister SpiWire

variable {D M : ℕ}

/-! ## The levels of a frame -/

/-- What a chip sees in a state, if it is in the mask and if it is not. -/
def chipLevel (word : BitVec 16) (selected : Bool) : State → Level
  | .idle => { sync := true, sclk := false, mosi := false }
  | .sclkOnly _ => { sync := false, sclk := false, mosi := false }
  | .syncSet => { sync := true, sclk := true, mosi := false }
  | .syncClk => { sync := true, sclk := false, mosi := false }
  | .dbSet k =>
      { sync := decide (k.val < 6) && !selected, sclk := true, mosi := word.getLsbD k.val }
  | .dbClk k =>
      { sync := decide (k.val < 6) && !selected, sclk := false, mosi := word.getLsbD k.val }
  | .syncEndSet | .syncEndClk => { sync := true, sclk := true, mosi := false }

lemma level_eq_chipLevel (i : Input D M) (state : State) {n : ℕ} (hn : n < M) :
    level i state n = chipLevel i.inputWord (i.selectMask.getLsbD n) state := by
  have hsync : ∀ k : Fin 16, (if 6 ≤ k.val then 0#M else ~~~i.selectMask).getLsbD n =
      (decide (k.val < 6) && !i.selectMask.getLsbD n) := by
    intro k
    by_cases hk : 6 ≤ k.val
    · simp [hk]
    · simp [hk, hn, Nat.lt_of_not_le hk]
  unfold level outputs
  cases state
  case dbSet k => simp [chipLevel, hsync]
  case dbClk k => simp [chipLevel, hsync]
  all_goals simp [chipLevel, hn]

/-- What a chip sees at the places of a frame. -/
def frameLevel (word : BitVec 16) (selected : Bool) (p : ℕ) : Level :=
  chipLevel word selected (frameState p)

/-- What a chip writes down of the first `p` places of a frame. -/
def frameWatch (word : BitVec 16) (selected : Bool) (p : ℕ) : Watch :=
  watch.along (.start (frameLevel word selected 0)) (frameLevel word selected) p

section Bits

variable (word : BitVec 16) (selected : Bool)

lemma frameWatch_succ (p : ℕ) : frameWatch word selected (p + 1) =
    watch.see (frameLevel word selected (p + 1)) (frameWatch word selected p) := watch.along_succ ..

lemma see_frameWatch (p : ℕ) : watch.see (frameLevel word selected p) (frameWatch word selected p) =
    frameWatch word selected p := watch.see_along (see_start _) p

lemma frameState_dbSet : ∀ j : Fin 16, frameState (7 + 2 * j.val) = .dbSet (Fin.rev j) := by
  decide

lemma frameState_dbClk : ∀ j : Fin 16, frameState (8 + 2 * j.val) = .dbClk (Fin.rev j) := by
  decide

/-- Before the bits the chip select falls once, and the clock does not move. -/
lemma frameWatch_start : frameWatch word selected 6 =
    { last := { sync := true, sclk := false, mosi := false }, windows := [[]] } := rfl

/-- After `j` of the bits that the chip can see: they are in the window that is open. -/
lemma frameWatch_bits {j : ℕ} (hj : j ≤ 16) (hseen : j ≤ 10 ∨ selected = true) :
    (frameWatch word selected (6 + 2 * j)).windows =
        (if j = 0 then [[]] else [[], (msbFirst word).take j]) ∧
      (frameWatch word selected (6 + 2 * j)).last.sync = decide (j = 0) ∧
      (frameWatch word selected (6 + 2 * j)).last.sclk = false := by
  induction j with
  | zero => simp [frameWatch_start]
  | succ j ih =>
      obtain ⟨hwindows, hsync, hsclk⟩ := ih (by omega) (hseen.imp_left fun h => by omega)
      have hlow : (decide (((Fin.rev ⟨j, by omega⟩ : Fin 16)).val < 6) && !selected) = false := by
        rcases hseen with hearly | hsel
        · simp [Fin.rev, show ¬ 15 - j < 6 by omega]
        · simp [hsel]
      have hset : frameLevel word selected (6 + 2 * j + 1) =
          { sync := false, sclk := true, mosi := word.getLsbD (15 - j) } := by
        have hplace := frameState_dbSet ⟨j, by omega⟩
        rw [show 6 + 2 * j + 1 = 7 + 2 * j by omega, frameLevel, hplace, chipLevel, hlow]
        simp [Fin.rev]
      have hclk : frameLevel word selected (6 + 2 * j + 1 + 1) =
          { sync := false, sclk := false, mosi := word.getLsbD (15 - j) } := by
        have hplace := frameState_dbClk ⟨j, by omega⟩
        rw [show 6 + 2 * j + 1 + 1 = 8 + 2 * j by omega, frameLevel, hplace, chipLevel, hlow]
        simp [Fin.rev]
      -- the first of the two places may open the window, the second brings the bit
      have hopen : (frameWatch word selected (6 + 2 * j + 1)).windows =
          [[], (msbFirst word).take j] := by
        rw [frameWatch_succ, hset]
        by_cases hzero : j = 0
        · subst hzero
          rw [windows_see_of_syncFalls (by simp [syncFalls, hsync]), hwindows]
          rfl
        · rw [windows_see_of_steady (by simp [syncFalls, hsync, hzero])
            (by simp [sclkFalls, hsclk]), hwindows, if_neg hzero]
      have hlast : (frameWatch word selected (6 + 2 * j + 1)).last =
          { sync := false, sclk := true, mosi := word.getLsbD (15 - j) } := by
        rw [frameWatch_succ, hset, last_see]
      have hbit : (msbFirst word).take (j + 1) =
          (msbFirst word).take j ++ [word.getLsbD (15 - j)] := by
        have hget : (msbFirst word)[j]? = some (word.getLsbD (15 - j)) := by
          simp [msbFirst, List.getElem?_range (show j < 16 by omega)]
        rw [List.take_add_one, hget, Option.toList_some]
      rw [show 6 + 2 * (j + 1) = 6 + 2 * j + 1 + 1 by omega]
      refine ⟨?_, ?_, ?_⟩
      · rw [frameWatch_succ, hclk,
          windows_see_of_sclkFalls (by simp [sclkFalls, hlast]), hopen, if_neg (Nat.succ_ne_zero j),
          hbit]
        rfl
      · rw [frameWatch_succ, last_see, hclk]
        simp
      · rw [frameWatch_succ, last_see, hclk]

/-- A chip of the mask sees a window without a falling edge, and one with the whole word. -/
lemma windows_selected : (frameWatch word true 41).windows = [[], msbFirst word] := by
  have hend : (frameWatch word true 41).windows = (frameWatch word true (6 + 2 * 16)).windows := by
    refine windows_along_of_sync (by decide) fun p hp hp' => ?_
    obtain rfl | rfl | rfl : p = 39 ∨ p = 40 ∨ p = 41 := by omega
    all_goals rfl
  rw [hend, (frameWatch_bits word true (le_refl 16) (.inr rfl)).1, if_neg (by decide),
    List.take_of_length_le (by simp)]

/-- Any other chip sees only the upper ten bits. -/
lemma windows_not_selected :
    (frameWatch word false 41).windows = [[], (msbFirst word).take 10] := by
  have hend : (frameWatch word false 41).windows =
      (frameWatch word false (6 + 2 * 10)).windows := by
    refine windows_along_of_sync (by decide) fun p hp hp' => ?_
    have hhigh : ∀ p : Fin 42, 26 < p.val →
        (chipLevel 0#16 false (frameState p.val)).sync = true := by
      decide
    have hsync : (frameLevel word false p).sync = (chipLevel 0#16 false (frameState p)).sync := by
      rw [frameLevel]
      cases frameState p <;> rfl
    rw [hsync]
    exact hhigh ⟨p, by omega⟩ (by omega)
  rw [hend, (frameWatch_bits word false (by decide) (.inl le_rfl)).1, if_neg (by decide)]

end Bits

/-! ## The time of a frame -/

namespace Run

variable {r : Run D M} {t : ℕ} {d : BitVec D} {word : BitVec 16} {mask : BitVec M}

/-- The cycle after a frame that is triggered in cycle `t`, with the delay register at `d`. -/
def frameEnd (d : BitVec D) (t : ℕ) : ℕ := t + 1 + 40 * (d.toNat + 1)

/-- A trigger finds the machine idle in cycle `t`, and the delay register, the input word and the
select mask are stable during the frame. -/
structure Starts (r : Run D M) (d : BitVec D) (word : BitVec 16) (mask : BitVec M) (t : ℕ) :
    Prop where
  idle : r.Idle t
  trig : (r.inp t).writeTrig = true
  delay : ∀ u, t < u → u < frameEnd d t → (r.inp u).delayRegister = d
  word : ∀ u, t < u → u < frameEnd d t → (r.inp u).inputWord = word
  mask : ∀ u, t < u → u < frameEnd d t → (r.inp u).selectMask = mask

/-- What chip `n` writes down from cycle `t` to cycle `u`. -/
def windows (r : Run D M) (n t u : ℕ) : List (List Bool) :=
  (watch.along (.start (r.level n t)) (fun k => r.level n (t + k)) (u - t)).windows

/-- In each state of a frame the machine stays until the counter has reached the delay. -/
lemma regs_in_frame (hidle : r.Idle t) (htrig : (r.inp t).writeTrig = true)
    (hdelay : ∀ u, t < u → u < frameEnd d t → (r.inp u).delayRegister = d) {p i : ℕ}
    (hp : p < 40) (hi : i ≤ d.toNat) :
    r.regs (t + 1 + (d.toNat + 1) * p + i) =
      { currentState := frameState (p + 1), counterStayValue := BitVec.ofNat D i } := by
  have hlt := d.isLt
  have hin : ∀ p < 40, t + 1 + (d.toNat + 1) * p + (d.toNat + 1) ≤ frameEnd d t := by
    intro p hp
    have hmul : (d.toNat + 1) * (p + 1) ≤ (d.toNat + 1) * 40 := Nat.mul_le_mul_left _ hp
    rw [Nat.mul_succ] at hmul
    unfold frameEnd
    omega
  have hbusy : ∀ p < 40, frameState (p + 1) ≠ .idle := by
    intro p hp hidle
    rcases (frameState_eq_idle_iff (by omega)).mp hidle with h | h <;> omega
  have hvalue : ∀ i ≤ d.toNat, (BitVec.ofNat D i).toNat = i := fun i hi =>
    Nat.mod_eq_of_lt (by omega)
  -- a state that has been entered lasts until the counter is at the delay
  have hstay : ∀ p < 40, r.regs (t + 1 + (d.toNat + 1) * p) =
      { currentState := frameState (p + 1), counterStayValue := BitVec.ofNat D 0 } →
      ∀ i ≤ d.toNat, r.regs (t + 1 + (d.toNat + 1) * p + i) =
        { currentState := frameState (p + 1), counterStayValue := BitVec.ofNat D i } := by
    intro p hp hstart i
    induction i with
    | zero => exact fun _ => hstart
    | succ i ih =>
        intro hi
        have hnow := ih (by omega)
        have hend := hin p hp
        have hd := hdelay (t + 1 + (d.toNat + 1) * p + i) (by omega) (by omega)
        have hlow : ¬ BitVec.ofNat D i ≥ d := by
          rw [ge_iff_le, BitVec.le_def, hvalue i (by omega)]
          omega
        rw [← Nat.add_assoc, regs_succ, step_of_busy (by rw [hnow]; exact hbusy p hp), hnow, hd,
          if_neg hlow, BitVec.ofNat_add]
  refine hstay p hp ?_ i hi
  clear hi i
  induction p with
  | zero =>
      rw [Nat.mul_zero, Nat.add_zero, regs_succ, step_of_idle hidle, htrig]
      rfl
  | succ p ih =>
      have hlast := hstay p (by omega) (ih (by omega)) d.toNat le_rfl
      have hend := hin p (by omega)
      have hd := hdelay (t + 1 + (d.toNat + 1) * p + d.toNat) (by omega) (by omega)
      have hreached : BitVec.ofNat D d.toNat ≥ d := by
        rw [ge_iff_le, BitVec.le_def, hvalue _ le_rfl]
      have hnext : t + 1 + (d.toNat + 1) * (p + 1) =
          t + 1 + (d.toNat + 1) * p + d.toNat + 1 := by
        rw [Nat.mul_succ]
        omega
      rw [hnext, regs_succ, step_of_busy (by rw [hlast]; exact hbusy p (by omega)), hlast, hd,
        if_pos hreached, frameState_succ (p + 1)]

/-- Every cycle of a frame is a cycle of one of its states. -/
lemma exists_place {u : ℕ} (hu : t < u) (hend : u < frameEnd d t) :
    ∃ p < 40, ∃ i ≤ d.toNat, u = t + 1 + (d.toNat + 1) * p + i := by
  have hpos : 0 < d.toNat + 1 := Nat.succ_pos _
  refine ⟨(u - t - 1) / (d.toNat + 1), ?_, (u - t - 1) % (d.toNat + 1),
    Nat.le_of_lt_succ (Nat.mod_lt _ hpos), ?_⟩
  · rw [Nat.div_lt_iff_lt_mul hpos]
    unfold frameEnd at hend
    omega
  · have hdiv := Nat.div_add_mod (u - t - 1) (d.toNat + 1)
    omega

lemma not_idle_in_frame (hidle : r.Idle t) (htrig : (r.inp t).writeTrig = true)
    (hdelay : ∀ u, t < u → u < frameEnd d t → (r.inp u).delayRegister = d) {u : ℕ} (hu : t < u)
    (hend : u < frameEnd d t) : ¬ r.Idle u := by
  obtain ⟨p, hp, i, hi, rfl⟩ := exists_place hu hend
  rw [Idle, regs_in_frame hidle htrig hdelay hp hi]
  intro hstate
  rcases (frameState_eq_idle_iff (by omega)).mp hstate with h | h <;> omega

/-- After its last state the machine is idle again. -/
lemma idle_frameEnd (hidle : r.Idle t) (htrig : (r.inp t).writeTrig = true)
    (hdelay : ∀ u, t < u → u < frameEnd d t → (r.inp u).delayRegister = d) :
    r.Idle (frameEnd d t) := by
  have hlast := regs_in_frame hidle htrig hdelay (p := 39) (by decide) le_rfl
  have hend : frameEnd d t = t + 1 + (d.toNat + 1) * 39 + d.toNat + 1 := by
    unfold frameEnd
    omega
  have hd := hdelay (t + 1 + (d.toNat + 1) * 39 + d.toNat) (by omega) (by omega)
  have hreached : BitVec.ofNat D d.toNat ≥ d := by
    rw [BitVec.ofNat_toNat, BitVec.setWidth_eq]
    exact BitVec.le_refl d
  have hbusy : frameState (39 + 1) ≠ .idle := by decide
  rw [Idle, hend, regs_succ, step_of_busy (by rw [hlast]; exact hbusy), hlast, hd,
    if_pos hreached]
  show (frameState (39 + 1)).next = .idle
  decide

/-- The place of the frame that the machine is at, `k` cycles after the trigger. -/
def place (d : BitVec D) (k : ℕ) : ℕ := if k = 0 then 0 else (k - 1) / (d.toNat + 1) + 1

lemma place_succ (d : BitVec D) (k : ℕ) :
    place d (k + 1) = place d k ∨ place d (k + 1) = place d k + 1 := by
  unfold place
  rcases Nat.eq_zero_or_pos k with rfl | hk
  · right
    simp
  · have hdiv : (k - 1 + 1) / (d.toNat + 1) = _ := Nat.succ_div
    rw [Nat.sub_add_cancel hk] at hdiv
    rw [if_neg (Nat.succ_ne_zero k), if_neg hk.ne', Nat.add_sub_cancel, hdiv]
    split_ifs
    · exact .inr rfl
    · exact .inl rfl

/-- The levels of a frame.  The states before the bits show neither the word nor the mask. -/
lemma level_in_frame (hidle : r.Idle t) (htrig : (r.inp t).writeTrig = true)
    (hdelay : ∀ u, t < u → u < frameEnd d t → (r.inp u).delayRegister = d)
    (hstable : ∀ u, t + 4 * (d.toNat + 1) < u → u < frameEnd d t →
      (r.inp u).inputWord = word ∧ (r.inp u).selectMask = mask) {n k : ℕ} (hn : n < M)
    (hk : k ≤ frameEnd d t - t) :
    r.level n (t + k) = frameLevel word (mask.getLsbD n) (place d k) := by
  have hidleLevel : ∀ u, r.Idle u → r.level n u = frameLevel word (mask.getLsbD n) 0 := by
    intro u hu
    have hstate : (r.regs u).currentState = .idle := hu
    rw [Run.level, hstate, level_eq_chipLevel _ _ hn]
    rfl
  have hlong : frameEnd d t = t + (1 + 40 * (d.toNat + 1)) := Nat.add_assoc ..
  rcases Nat.eq_zero_or_pos k with rfl | hpos
  · exact hidleLevel t hidle
  rcases Nat.lt_or_ge (t + k) (frameEnd d t) with hlt | hge
  · obtain ⟨p, hp, i, hi, heq⟩ := exists_place (d := d) (t := t) (by omega) hlt
    have hplace : place d k = p + 1 := by
      have hk1 : k - 1 = i + (d.toNat + 1) * p := by omega
      rw [place, if_neg hpos.ne', hk1, Nat.add_mul_div_left _ _ (Nat.succ_pos _),
        Nat.div_eq_of_lt (Nat.lt_succ_of_le hi), Nat.zero_add]
    have hregs := regs_in_frame hidle htrig hdelay hp hi
    rw [← heq] at hregs
    rw [Run.level, level_eq_chipLevel _ _ hn, hregs, hplace, frameLevel]
    rcases Nat.lt_or_ge p 4 with hearly | hlate
    · have honly : ∃ j, frameState (p + 1) = .sclkOnly j := by
        obtain rfl | rfl | rfl | rfl : p = 0 ∨ p = 1 ∨ p = 2 ∨ p = 3 := by omega
        all_goals exact ⟨_, rfl⟩
      obtain ⟨j, hj⟩ := honly
      rw [hj]
      rfl
    · have hmul : (d.toNat + 1) * 4 ≤ (d.toNat + 1) * p := Nat.mul_le_mul_left _ hlate
      obtain ⟨hword, hmask⟩ := hstable (t + k) (by omega) hlt
      rw [hword, hmask]
  · have hkend : t + k = frameEnd d t := by omega
    have hplace : place d k = 41 := by
      have hk1 : k - 1 = 40 * (d.toNat + 1) := by omega
      rw [place, if_neg hpos.ne', hk1, Nat.mul_div_cancel _ (Nat.succ_pos _)]
    rw [hkend, hplace, hidleLevel _ (idle_frameEnd hidle htrig hdelay)]
    rfl

/-- What a chip writes down of a frame does not depend on its delay. -/
lemma windows_frame (hidle : r.Idle t) (htrig : (r.inp t).writeTrig = true)
    (hdelay : ∀ u, t < u → u < frameEnd d t → (r.inp u).delayRegister = d)
    (hstable : ∀ u, t + 4 * (d.toNat + 1) < u → u < frameEnd d t →
      (r.inp u).inputWord = word ∧ (r.inp u).selectMask = mask) {n : ℕ} (hn : n < M) :
    r.windows n t (frameEnd d t) = (frameWatch word (mask.getLsbD n) 41).windows := by
  have hlevel := fun k (hk : k ≤ frameEnd d t - t) =>
    level_in_frame hidle htrig hdelay hstable hn hk
  have hplace : place d (frameEnd d t - t) = 41 := by
    have hk : frameEnd d t - t = 40 * (d.toNat + 1) + 1 := by
      unfold frameEnd
      omega
    rw [place, hk, if_neg (Nat.succ_ne_zero _), Nat.add_sub_cancel,
      Nat.mul_div_cancel _ (Nat.succ_pos _)]
  have hstart := hlevel 0 (Nat.zero_le _)
  rw [Nat.add_zero] at hstart
  rw [windows, hstart, ← hplace]
  exact congrArg Watch.windows (watch.along_path (see_start _) rfl
    (fun k _ => place_succ d k) hlevel)

section Frame

variable (h : r.Starts d word mask t)
include h

lemma Starts.stable (u : ℕ) (hu : t + 4 * (d.toNat + 1) < u) (hend : u < frameEnd d t) :
    (r.inp u).inputWord = word ∧ (r.inp u).selectMask = mask :=
  ⟨h.word u (by omega) hend, h.mask u (by omega) hend⟩

lemma Starts.windows_eq {n : ℕ} (hn : n < M) :
    r.windows n t (frameEnd d t) = (frameWatch word (mask.getLsbD n) 41).windows :=
  windows_frame h.idle h.trig h.delay h.stable hn

/-- **A frame.**  A trigger in `IDLE` makes the machine run one frame and come back to `IDLE`.  A
chip of the mask sees one window with falling edges, with the sixteen bits of the word in it; any
other chip sees fewer than sixteen in every window.  Triggers during the frame change nothing. -/
theorem frame :
    (∀ u, t < u → u < frameEnd d t → ¬ r.Idle u) ∧ r.Idle (frameEnd d t) ∧
    (∀ n < M, mask.getLsbD n = true →
      (r.windows n t (frameEnd d t)).filter (fun w => !w.isEmpty) = [msbFirst word]) ∧
    (∀ n < M, mask.getLsbD n = false → ∀ w ∈ r.windows n t (frameEnd d t), w.length < 16) ∧
    ∀ r' : Run D M, r'.regs t = r.regs t → (r'.inp t).writeTrig = true →
      (∀ u, t < u → u < frameEnd d t →
        r'.inp u = { r.inp u with writeTrig := (r'.inp u).writeTrig }) →
      ∀ u, t < u → u ≤ frameEnd d t →
        (r'.regs u).currentState = (r.regs u).currentState ∧
          ∀ n < M, r'.level n u = r.level n u := by
  refine ⟨fun u hu hend => not_idle_in_frame h.idle h.trig h.delay hu hend,
    idle_frameEnd h.idle h.trig h.delay, fun n hn hsel => ?_, fun n hn hsel w hw => ?_,
    fun r' hregs htrig hinp u hu hend => ?_⟩
  · have hne : msbFirst word ≠ [] := by
      intro hnil
      have hlen := congrArg List.length hnil
      rw [length_msbFirst] at hlen
      simp at hlen
    rw [h.windows_eq hn, hsel, windows_selected]
    simp [hne]
  · rw [h.windows_eq hn, hsel, windows_not_selected] at hw
    rcases List.mem_cons.mp hw with rfl | hw
    · decide
    · rw [List.mem_singleton.mp hw, List.length_take, length_msbFirst]
      decide
  · have h' : r'.Starts d word mask t := by
      refine ⟨?_, htrig, fun v hv hvend => ?_, fun v hv hvend => ?_, fun v hv hvend => ?_⟩
      · rw [Idle, hregs]
        exact h.idle
      · rw [hinp v hv hvend]
        exact h.delay v hv hvend
      · rw [hinp v hv hvend]
        exact h.word v hv hvend
      · rw [hinp v hv hvend]
        exact h.mask v hv hvend
    refine ⟨?_, fun n hn => ?_⟩
    · rcases Nat.lt_or_ge u (frameEnd d t) with hlt | hge
      · obtain ⟨p, hp, i, hi, rfl⟩ := exists_place hu hlt
        rw [regs_in_frame h'.idle h'.trig h'.delay hp hi, regs_in_frame h.idle h.trig h.delay hp hi]
      · obtain rfl : u = frameEnd d t := by omega
        exact (idle_frameEnd h'.idle h'.trig h'.delay).trans
          (idle_frameEnd h.idle h.trig h.delay).symm
    · obtain ⟨k, rfl⟩ := Nat.exists_eq_add_of_le hu.le
      rw [level_in_frame h'.idle h'.trig h'.delay h'.stable hn (by omega),
        level_in_frame h.idle h.trig h.delay h.stable hn (by omega)]

end Frame

/-- The word `0x0ABC` for chip `2` of four, with the delay register at `1`. -/
def oneFrame : Run 16 4 where
  start := .reset
  inp t :=
    { delayRegister := 1#16, inputWord := 0x0ABC#16, writeTrig := decide (t % 3 = 0)
      selectMask := 4#4 }

lemma oneFrame_starts : oneFrame.Starts 1#16 0x0ABC#16 4#4 0 where
  idle := by decide
  trig := by decide
  delay _ _ _ := rfl
  word _ _ _ := rfl
  mask _ _ _ := rfl

/-- Chip `2` is told the word, in the `81` cycles after the trigger. -/
theorem oneFrame_windows :
    (oneFrame.windows 2 0 81).filter (fun w => !w.isEmpty) = [msbFirst 0x0ABC#16] :=
  (frame oneFrame_starts).2.2.1 2 (by decide) (by decide)

end Run

end TrackerFpga.Dac
