import TrackerFpga.Dac.Counts

/-!
# `set_counts` and the wait

`set_counts` triggers a frame and waits, and the next one writes the select register first.  As the
core reads its registers during the frame, a chip gets what it was told if that first write finds
the machine at rest and the trigger then finds it idle, however the delay was changed on the way
(`endsCommanded`).  The wait of 10000 cycles is enough for this with delays up to 249
(`idle_of_delay_le`); with the longest delay the second of two calls takes the word away from the
chip of the first (`slowCalls_lose_counts`).
-/

namespace TrackerFpga.Dac

open AxiLite Interaction Mapped DacCtrl

/-! ## What the calls command -/

namespace DacCtrl

/-- The chip that a side and a choice stand for. -/
def chipOf : SilayerSide → DacChoice → ℕ
  | .sideA, .calDac => 0
  | .sideA, .vthDac => 1
  | .sideB, .calDac => 2
  | .sideB, .vthDac => 3

/-- What chip `n` is to hold after a call, if it is to hold `v` before it. -/
def Call.onChip (n v : ℕ) : Call → ℕ
  | .setDelay _ => v
  | .setCounts side choice counts => if chipOf side choice = n then counts.toNat else v

/-- What chip `n` is to hold after the calls: the counts of the last `set_counts` for it, or its
initial value. -/
def commanded (init : ℕ → BitVec 16) (calls : List Call) (n : ℕ) : ℕ :=
  calls.foldl (fun v c => c.onChip n v) (init n).toNat

lemma commanded_concat (init : ℕ → BitVec 16) (calls : List Call) (c : Call) (n : ℕ) :
    commanded init (calls ++ [c]) n = c.onChip n (commanded init calls n) := by
  simp [commanded]

lemma getLsbD_selectMask (side : SilayerSide) (choice : DacChoice) {n : ℕ} (hn : n < 4) :
    ((selectMask side choice).extractLsb' 0 4).getLsbD n = decide (chipOf side choice = n) := by
  have hall : ∀ n : Fin 4, ((selectMask side choice).extractLsb' 0 4).getLsbD n.val =
      decide (chipOf side choice = n.val) := by
    cases side <;> cases choice <;> decide
  exact hall ⟨n, hn⟩

end DacCtrl

namespace Core.Run

variable {r : Run} {init : ℕ → BitVec 16} {calls : List Call} {t t' u x k n : ℕ} {v : BitVec 32}

/-- What chip `n` holds in cycle `t`, if it held `init n` in cycle `0`. -/
def chip (r : Run) (init : ℕ → BitVec 16) (n t : ℕ) : BitVec 16 :=
  taken (init n) (r.fsm.windows n 0 t)

/-- The calls are made one after the other from cycle `0` on, succeed, and have returned in cycle
`t`. -/
inductive Calls (r : Run) : List Call → ℕ → Prop
  | nil : Calls r [] 0
  | concat {calls : List Call} {c : Call} {t t' : ℕ} :
      Calls r calls t → Exec r.bus.env c.method t 0 t' → Calls r (calls ++ [c]) t'

lemma chip_of_rests (hn : n < 4) (hux : u ≤ x) (hu : r.fsm.Rests u) :
    r.chip init n x = taken (r.chip init n u) (r.fsm.windows n u x) := by
  rw [chip, Dac.Run.windows_append hn (Nat.zero_le u) hux hu, taken_append]
  rfl

/-! ## The registers during a call -/

lemma advances (r : Run) (t : ℕ) :
    ∃ axi out, r.file (t + 1) = (r.file t).advance axi (r.master t) out := ⟨_, _, r.file_succ t⟩

lemma slvReg_of_noWrites (hno : r.bus.NoWrites t u) (htx : t ≤ x) (hxu : x ≤ u) :
    r.slvReg x = r.slvReg t := Bus.slvReg_of_noWrites r.advances hno htx hxu

lemma slvReg_of_writes (hk : k < 2 ^ 2) (hw : r.bus.Writes u k v)
    (hno : r.bus.NoWrites (u + 1) t) (hux : u < x) (hxt : x ≤ t) :
    r.slvReg x = Function.update (r.slvReg u) ⟨k, hk⟩ v :=
  Bus.slvReg_after_write r.advances hk hw hno hux hxt

lemma exec_setDelay {delay : BitVec 32} (h : Exec r.bus.env (setDelay delay) t 0 t') :
    ∃ u, t ≤ u ∧ r.bus.NoWrites t u ∧ r.bus.Writes u 1 delay ∧ t' = u + 1 := by
  unfold setDelay at h
  split_ifs at h with hbig
  · exact absurd (exec_done.mp h).1 (by decide)
  · obtain ⟨a, m, hwrite, hdone⟩ := exec_bind.mp h
    obtain ⟨-, rfl⟩ := exec_done.mp hdone
    exact Bus.exec_write.mp hwrite

/-- A `set_delay` changes nothing but the delay. -/
lemma slvReg_of_delay (hno : r.bus.NoWrites t u) (hw : r.bus.Writes u 1 v) (htx : t ≤ x)
    (hxu : x ≤ u + 1) {k : Fin (2 ^ 2)} (hk : k.val ≠ 1) : r.slvReg x k = r.slvReg t k := by
  refine Bus.slvReg_of_never_writes (s := r.file) (p := 1) r.advances htx fun y hty hyx w hy => ?_
  rcases Nat.lt_or_ge y u with hearly | hlate
  · exact Bus.not_writes_of_noWrite (hno y hty hearly) hy
  · obtain rfl : y = u := by omega
    exact hk (Bus.writes_unique hw hy).1.symm

/-- The five writes of a `set_counts` that lasts from cycle `t` to cycle `t'`, and the wait. -/
structure Writing (r : Run) (mask counts : BitVec 32) (t t' u₁ u₂ u₃ u₄ u₅ : ℕ) : Prop where
  select : t ≤ u₁ ∧ r.bus.NoWrites t u₁ ∧ r.bus.Writes u₁ 2 mask
  input : u₁ < u₂ ∧ r.bus.NoWrites (u₁ + 1) u₂ ∧ r.bus.Writes u₂ 0 counts
  low : u₂ < u₃ ∧ r.bus.NoWrites (u₂ + 1) u₃ ∧ r.bus.Writes u₃ 3 0#32
  high : u₃ < u₄ ∧ r.bus.NoWrites (u₃ + 1) u₄ ∧ r.bus.Writes u₄ 3 1#32
  lowAgain : u₄ < u₅ ∧ r.bus.NoWrites (u₄ + 1) u₅ ∧ r.bus.Writes u₅ 3 0#32
  wait : u₅ + 1 + 10000 ≤ t' ∧ r.bus.NoWrites (u₅ + 1) t'

lemma exec_setCounts {side : SilayerSide} {choice : DacChoice} {counts : BitVec 32}
    (h : Exec r.bus.env (setCounts side choice counts) t 0 t') :
    counts ≤ maxInput ∧
      ∃ u₁ u₂ u₃ u₄ u₅, r.Writing (selectMask side choice) counts t t' u₁ u₂ u₃ u₄ u₅ := by
  unfold setCounts at h
  split_ifs at h with hbig
  · exact absurd (exec_done.mp h).1 (by decide)
  · obtain ⟨_, _, h₁, h⟩ := exec_bind.mp h
    obtain ⟨_, _, h₂, h⟩ := exec_bind.mp h
    obtain ⟨_, _, h₃, h⟩ := exec_bind.mp h
    obtain ⟨_, _, h₄, h⟩ := exec_bind.mp h
    obtain ⟨_, _, h₅, h⟩ := exec_bind.mp h
    obtain ⟨_, _, hwait, hdone⟩ := exec_bind.mp h
    obtain ⟨-, rfl⟩ := exec_done.mp hdone
    obtain ⟨u₁, hu₁, hno₁, hw₁, rfl⟩ := Bus.exec_write.mp h₁
    obtain ⟨u₂, hu₂, hno₂, hw₂, rfl⟩ := Bus.exec_write.mp h₂
    obtain ⟨u₃, hu₃, hno₃, hw₃, rfl⟩ := Bus.exec_write.mp h₃
    obtain ⟨u₄, hu₄, hno₄, hw₄, rfl⟩ := Bus.exec_write.mp h₄
    obtain ⟨u₅, hu₅, hno₅, hw₅, rfl⟩ := Bus.exec_write.mp h₅
    obtain ⟨hlong, hno⟩ := Bus.exec_usleep.mp hwait
    have hrate : r.bus.cyclesPerUs = 1 := rfl
    rw [hrate, Nat.one_mul, setCountDelayUs] at hlong
    exact ⟨BitVec.not_lt.mp hbig, u₁, u₂, u₃, u₄, u₅,
      { select := ⟨hu₁, hno₁, hw₁⟩, input := ⟨hu₂, hno₂, hw₂⟩, low := ⟨hu₃, hno₃, hw₃⟩
        high := ⟨hu₄, hno₄, hw₄⟩, lowAgain := ⟨hu₅, hno₅, hw₅⟩, wait := ⟨hlong, hno⟩ }⟩

section Writing

variable {mask counts : BitVec 32} {u₁ u₂ u₃ u₄ u₅ : ℕ}
  (h : r.Writing mask counts t t' u₁ u₂ u₃ u₄ u₅)
include h

/-- The trigger is low up to the fourth write. -/
lemma Writing.trig_before (hlow : (r.fsm.inp t).writeTrig = false) (htx : t ≤ x) (hx : x ≤ u₄) :
    (r.fsm.inp x).writeTrig = false := by
  obtain ⟨-, hno₁, hw₁⟩ := h.select
  obtain ⟨hu₂, hno₂, hw₂⟩ := h.input
  obtain ⟨hu₃, hno₃, hw₃⟩ := h.low
  obtain ⟨hu₄, hno₄, hw₄⟩ := h.high
  have hreg₁ := fun y => slvReg_of_writes (x := y) (by decide) hw₁ hno₂
  have hreg₂ := fun y => slvReg_of_writes (x := y) (by decide) hw₂ hno₃
  have hreg₃ := fun y => slvReg_of_writes (x := y) (by decide) hw₃ hno₄
  have htrig : ∀ y, (r.fsm.inp y).writeTrig = (r.slvReg y ⟨3, by decide⟩).getLsbD 0 := fun _ => rfl
  have hstart : ∀ y, t ≤ y → y ≤ u₁ → (r.slvReg y ⟨3, by decide⟩).getLsbD 0 = false := by
    intro y hty hyu
    rw [slvReg_of_noWrites hno₁ hty hyu, ← htrig]
    exact hlow
  have hselect : ∀ y, u₁ < y → y ≤ u₂ → (r.slvReg y ⟨3, by decide⟩).getLsbD 0 = false := by
    intro y huy hyu
    rw [hreg₁ y huy hyu, Function.update_of_ne (by decide)]
    exact hstart u₁ h.select.1 le_rfl
  rw [htrig]
  rcases Nat.lt_or_ge u₃ x with hlate | hearly
  · rw [hreg₃ x hlate hx, Function.update_self]
    rfl
  rcases Nat.lt_or_ge u₂ x with hlate | hearly
  · rw [hreg₂ x hlate (by omega), Function.update_of_ne (by decide)]
    exact hselect u₂ hu₂ le_rfl
  rcases Nat.lt_or_ge u₁ x with hlate | hearly
  · exact hselect x hlate hearly
  · exact hstart x htx hearly

/-- From the fourth write on the word and the mask are those of the call. -/
lemma Writing.regs_after (hux : u₄ < x) (hx : x ≤ t') :
    r.slvReg x ⟨0, by decide⟩ = counts ∧ r.slvReg x ⟨2, by decide⟩ = mask := by
  obtain ⟨-, -, hw₁⟩ := h.select
  obtain ⟨hu₂, hno₂, hw₂⟩ := h.input
  obtain ⟨hu₃, hno₃, hw₃⟩ := h.low
  obtain ⟨hu₄, hno₄, hw₄⟩ := h.high
  obtain ⟨hu₅, hno₅, hw₅⟩ := h.lowAgain
  obtain ⟨-, hno⟩ := h.wait
  have hreg₁ := fun y => slvReg_of_writes (x := y) (by decide) hw₁ hno₂
  have hreg₂ := fun y => slvReg_of_writes (x := y) (by decide) hw₂ hno₃
  have hreg₃ := fun y => slvReg_of_writes (x := y) (by decide) hw₃ hno₄
  have hreg₄ := fun y => slvReg_of_writes (x := y) (by decide) hw₄ hno₅
  have hreg₅ := fun y => slvReg_of_writes (x := y) (by decide) hw₅ hno
  have hhigh : ∀ y, u₄ < y → y ≤ u₅ →
      r.slvReg y ⟨0, by decide⟩ = counts ∧ r.slvReg y ⟨2, by decide⟩ = mask := by
    intro y huy hyu
    rw [hreg₄ y huy hyu, hreg₃ u₄ hu₄ le_rfl, hreg₂ u₃ hu₃ le_rfl, hreg₁ u₂ hu₂ le_rfl]
    exact ⟨rfl, rfl⟩
  rcases Nat.lt_or_ge u₅ x with hlate | hearly
  · rw [hreg₅ x hlate hx, Function.update_of_ne (by decide), Function.update_of_ne (by decide)]
    exact hhigh u₅ hu₅ le_rfl
  · exact hhigh x hux hearly

/-- The fourth write raises the trigger. -/
lemma Writing.trig_high : (r.fsm.inp (u₄ + 1)).writeTrig = true := by
  have hreg₄ := fun y => slvReg_of_writes (x := y) (by decide) h.high.2.2 h.lowAgain.2.1
  show (r.slvReg (u₄ + 1) ⟨3, by decide⟩).getLsbD 0 = true
  rw [hreg₄ (u₄ + 1) (Nat.lt_succ_self _) h.lowAgain.1, Function.update_self]
  rfl

/-- The fifth write lowers it again. -/
lemma Writing.trig_after (hux : u₅ < x) (hx : x ≤ t') : (r.fsm.inp x).writeTrig = false := by
  have hreg₅ := fun y => slvReg_of_writes (x := y) (by decide) h.lowAgain.2.2 h.wait.2
  show (r.slvReg x ⟨3, by decide⟩).getLsbD 0 = false
  rw [hreg₅ x hux hx, Function.update_self]
  rfl

/-- There are no other writes. -/
lemma Writing.cases_of_writes (htu : t ≤ u) (hut : u < t') (hu : r.bus.Writes u k v) :
    u = u₁ ∧ k = 2 ∨ u = u₂ ∧ k = 0 ∨ u = u₄ ∧ k = 3 ∨
      (u = u₃ ∨ u = u₅) ∧ k = 3 ∧ v = 0#32 := by
  have hgap : ∀ {a b}, r.bus.NoWrites a b → ¬ (a ≤ u ∧ u < b) := fun hno hab =>
    Bus.not_writes_of_noWrite (hno u hab.1 hab.2) hu
  have hsame : ∀ {y j w}, r.bus.Writes y j w → u = y → k = j ∧ v = w := fun hw huy =>
    Bus.writes_unique hu (huy ▸ hw)
  have h₁ := hgap h.select.2.1
  have h₂ := hgap h.input.2.1
  have h₃ := hgap h.low.2.1
  have h₄ := hgap h.high.2.1
  have h₅ := hgap h.lowAgain.2.1
  have h₆ := hgap h.wait.2
  have hcycle : u = u₁ ∨ u = u₂ ∨ u = u₃ ∨ u = u₄ ∨ u = u₅ := by omega
  rcases hcycle with hu₁ | hu₂ | hu₃ | hu₄ | hu₅
  · exact .inl ⟨hu₁, (hsame h.select.2.2 hu₁).1⟩
  · exact .inr (.inl ⟨hu₂, (hsame h.input.2.2 hu₂).1⟩)
  · exact .inr (.inr (.inr ⟨.inl hu₃, hsame h.low.2.2 hu₃⟩))
  · exact .inr (.inr (.inl ⟨hu₄, (hsame h.high.2.2 hu₄).1⟩))
  · exact .inr (.inr (.inr ⟨.inr hu₅, hsame h.lowAgain.2.2 hu₅⟩))

end Writing

/-- Every `set_counts` before cycle `t` has the machine to itself: its first write finds the machine
at rest, and the trigger stays high until the machine is idle. -/
structure Unhurried (r : Run) (t : ℕ) : Prop where
  select : ∀ u v, u < t → r.bus.Writes u 2 v → r.fsm.Rests u
  trigger : ∀ u, u < t → r.bus.Writes u 3 1#32 →
    ∃ x, u < x ∧ r.fsm.Idle x ∧ ∀ y, u < y → y ≤ x → (r.fsm.inp y).writeTrig = true

lemma Unhurried.mono (h : r.Unhurried t') (htt' : t ≤ t') : r.Unhurried t :=
  ⟨fun u v hu => h.select u v (hu.trans_le htt'), fun u hu => h.trigger u (hu.trans_le htt')⟩

/-- The trigger of a call finds the machine idle, which has been at rest since the first write. -/
lemma Writing.exists_start {mask counts : BitVec 32} {u₁ u₂ u₃ u₄ u₅ : ℕ}
    (h : r.Writing mask counts t t' u₁ u₂ u₃ u₄ u₅) (hlow : (r.fsm.inp t).writeTrig = false)
    (hun : r.Unhurried t') : ∃ x, u₄ < x ∧ x ≤ u₅ ∧ r.fsm.Idle x ∧
      (r.fsm.inp x).writeTrig = true ∧ ∀ y, u₁ ≤ y → y ≤ x → r.fsm.Rests y := by
  have h₁ := h.select.1
  have h₂ := h.input.1
  have h₃ := h.low.1
  have h₄ := h.high.1
  have h₅ := h.lowAgain.1
  have hlong := h.wait.1
  obtain ⟨x, hux, hx, hhigh⟩ := hun.trigger u₄ (by omega) h.high.2.2
  have hxu : x ≤ u₅ := by
    by_contra hlate
    have hon := hhigh (u₅ + 1) (by omega) (by omega)
    rw [h.trig_after (Nat.lt_succ_self u₅) (by omega)] at hon
    exact absurd hon (by decide)
  -- the first idle cycle with the trigger
  have hexists : ∃ y, u₄ < y ∧ r.fsm.Idle y := ⟨x, hux, hx⟩
  obtain ⟨hfirst, hidle⟩ := Nat.find_spec hexists
  have hle := Nat.find_min' hexists ⟨hux, hx⟩
  refine ⟨_, hfirst, hle.trans hxu, hidle, hhigh _ hfirst hle, fun y hy hyx => ?_⟩
  refine Dac.Run.rests_of_no_trigger (hun.select u₁ _ (by omega) h.select.2.2) hy
    fun z hz hzy hzidle => ?_
  rcases Nat.lt_or_ge u₄ z with hlate | hearly
  · exact absurd ⟨hlate, hzidle⟩ (Nat.find_min hexists (hzy.trans_le hyx))
  · exact h.trig_before hlow (h₁.trans hz) hearly

/-! ## From call to call -/

/-- The calls have returned in cycle `t`: the trigger is low, and as long as the registers other
than the delay stay as they are, the chips hold what was commanded whenever the machine rests. -/
structure Settled (r : Run) (init : ℕ → BitVec 16) (calls : List Call) (t : ℕ) : Prop where
  trig : (r.fsm.inp t).writeTrig = false
  holds : ∀ x, t ≤ x →
    (∀ y, t ≤ y → y ≤ x → ∀ k : Fin (2 ^ 2), k.val ≠ 1 → r.slvReg y k = r.slvReg t k) →
    r.fsm.Rests x → ∀ n < 4, (r.chip init n x).toNat = commanded init calls n

lemma idle_zero (hr : r.FromReset) : r.fsm.Idle 0 := by
  have hstart : r.start = .reset := hr
  rw [Dac.Run.Idle, fsm_regs, regs, Clocked.run_zero, hstart]
  rfl

lemma trig_zero (hr : r.FromReset) : (r.fsm.inp 0).writeTrig = false := by
  have hstart : r.start = .reset := hr
  simp [fsm, fsmInput, slvReg, file, regs, hstart, Regs.reset, RegisterFile.reset, slvRegReset]

lemma settled_nil (hr : r.FromReset) : r.Settled init [] 0 := by
  refine ⟨trig_zero hr, fun x hx hkept _ n hn => ?_⟩
  have hlow : ∀ y, 0 ≤ y → y < x → (r.fsm.inp y).writeTrig = false := by
    intro y hy hyx
    have hsame := hkept y hy hyx.le ⟨3, by decide⟩ (by decide)
    exact (congrArg (fun w : BitVec 32 => w.getLsbD 0) hsame).trans (trig_zero hr)
  have hwindows : r.fsm.windows n 0 x = [] := Dac.Run.windows_of_rests hn hx fun u _ hux =>
    Dac.Run.rests_of_no_trigger (idle_zero hr).rests (Nat.zero_le u) fun y hy hyu _ =>
      hlow y hy (by omega)
  rw [chip, hwindows]
  rfl

lemma Settled.setDelay {delay : BitVec 32} (h : r.Settled init calls t)
    (hcall : Exec r.bus.env (DacCtrl.setDelay delay) t 0 t') :
    r.Settled init (calls ++ [.setDelay delay]) t' := by
  obtain ⟨u, htu, hno, hw, rfl⟩ := exec_setDelay hcall
  have hkept : ∀ y, t ≤ y → y ≤ u + 1 → ∀ k : Fin (2 ^ 2), k.val ≠ 1 →
      r.slvReg y k = r.slvReg t k := fun y hty hyu k hk => slvReg_of_delay hno hw hty hyu hk
  refine ⟨?_, fun x hx hsame hrests n hn => ?_⟩
  · have hreg := hkept (u + 1) (by omega) le_rfl ⟨3, by decide⟩ (by decide)
    exact (congrArg (fun w : BitVec 32 => w.getLsbD 0) hreg).trans h.trig
  · rw [commanded_concat]
    refine h.holds x (by omega) (fun y hty hyx k hk => ?_) hrests n hn
    rcases Nat.lt_or_ge y (u + 1) with hearly | hlate
    · exact hkept y hty hearly.le k hk
    · rw [hsame y hlate hyx k hk, hkept (u + 1) (by omega) le_rfl k hk]

/-- A `set_counts` that has the machine to itself reaches its chip, and no other. -/
lemma Settled.setCounts {side : SilayerSide} {choice : DacChoice} {counts : BitVec 32}
    (h : r.Settled init calls t)
    (hcall : Exec r.bus.env (DacCtrl.setCounts side choice counts) t 0 t')
    (hun : r.Unhurried t') : r.Settled init (calls ++ [.setCounts side choice counts]) t' := by
  obtain ⟨hmax, u₁, u₂, u₃, u₄, u₅, hw⟩ := exec_setCounts hcall
  obtain ⟨x₁, hux, hxu, hidle, htrig, hrests⟩ := hw.exists_start h.trig hun
  have hu : t ≤ u₁ ∧ u₁ < u₄ ∧ u₅ < t' := by
    have h₁ := hw.select.1
    have h₂ := hw.input.1
    have h₃ := hw.low.1
    have h₄ := hw.high.1
    have h₅ := hw.lowAgain.1
    have hlong := hw.wait.1
    omega
  refine ⟨hw.trig_after (by omega) le_rfl, fun x hx hkept hxrests n hn => ?_⟩
  -- the machine is at rest from the first write up to the start of the frame
  have hbefore : (r.chip init n u₁).toNat = commanded init calls n :=
    h.holds u₁ hu.1 (fun y hty hyu k _ => by rw [slvReg_of_noWrites hw.select.2.1 hty hyu])
      (hrests u₁ le_rfl (by omega)) n hn
  have hstart : r.chip init n x₁ = r.chip init n u₁ := by
    rw [chip_of_rests hn (by omega) (hrests u₁ le_rfl (by omega)),
      Dac.Run.windows_of_rests hn (by omega) fun y hy hyx => hrests y hy.le hyx]
    rfl
  have hstable : ∀ y, x₁ ≤ y → y ≤ x →
      (r.fsm.inp y).inputWord = counts.extractLsb' 0 16 ∧
        (r.fsm.inp y).selectMask = (selectMask side choice).extractLsb' 0 4 := by
    intro y hy hyx
    have hregs : r.slvReg y ⟨0, by decide⟩ = counts ∧
        r.slvReg y ⟨2, by decide⟩ = selectMask side choice := by
      rcases Nat.lt_or_ge y t' with hearly | hlate
      · exact hw.regs_after (by omega) hearly.le
      · rw [hkept y hlate hyx _ (by decide), hkept y hlate hyx _ (by decide)]
        exact hw.regs_after (by omega) le_rfl
    exact ⟨congrArg (fun w : BitVec 32 => w.extractLsb' 0 16) hregs.1,
      congrArg (fun w : BitVec 32 => w.extractLsb' 0 4) hregs.2⟩
  rw [commanded_concat, chip_of_rests hn (show x₁ ≤ x by omega) hidle.rests]
  by_cases hchip : chipOf side choice = n
  · have hsel : ((selectMask side choice).extractLsb' 0 4).getLsbD n = true := by
      rw [getLsbD_selectMask side choice hn, decide_eq_true hchip]
    rw [Dac.Run.taken_of_trigger hn (by omega) hidle hxrests htrig hstable hsel]
    have hsmall : counts.toNat ≤ 4095 := hmax
    simp [Call.onChip, hchip, Nat.mod_eq_of_lt (show counts.toNat < 65536 by omega)]
  · have hsel : ((selectMask side choice).extractLsb' 0 4).getLsbD n = true →
        r.chip init n x₁ = counts.extractLsb' 0 16 := by
      rw [getLsbD_selectMask side choice hn, decide_eq_false hchip]
      exact fun hfalse => absurd hfalse (by decide)
    rw [Dac.Run.taken_of_stable hn (by omega) hidle hxrests hstable hsel, hstart, hbefore,
      Call.onChip, if_neg hchip]

lemma Calls.settled (hr : r.FromReset) (hcalls : r.Calls calls t) (hun : r.Unhurried t) :
    r.Settled init calls t := by
  induction hcalls with
  | nil => exact settled_nil hr
  | @concat calls c t t' hcalls hcall ih =>
      have hsettled := ih (hun.mono (Bus.le_of_exec hcall))
      cases c with
      | setDelay delay => exact hsettled.setDelay hcall
      | setCounts side choice counts => exact hsettled.setCounts hcall hun

/-- After the calls, which have returned in cycle `t`, and before any further write, each chip
holds what it was commanded to once the machine is idle. -/
def EndsCommanded (r : Run) (init : ℕ → BitVec 16) (calls : List Call) (t : ℕ) : Prop :=
  ∀ x, t ≤ x → r.bus.NoWrites t x → r.fsm.Idle x →
    ∀ n < 4, (r.chip init n x).toNat = commanded init calls n

/-- **When every chip ends at its last value.**  If every write to the select register finds the
machine at rest, and every trigger finds it idle before it is lowered, then after the calls, once
the machine is idle, each chip holds the counts of the last `set_counts` for it, and its initial
value if there was none. -/
theorem endsCommanded (init : ℕ → BitVec 16) (hr : r.FromReset) (hcalls : r.Calls calls t)
    (hun : r.Unhurried t) : r.EndsCommanded init calls t :=
  fun x hx hno hidle n hn => (hcalls.settled hr hun).holds x hx
    (fun y hty hyx k _ => by rw [slvReg_of_noWrites hno hty hyx]) hidle.rests n hn

/-! ## Calls that find the machine idle -/

/-- The trigger is low between the calls. -/
lemma Calls.trig_low (hr : r.FromReset) (hcalls : r.Calls calls t) :
    (r.fsm.inp t).writeTrig = false := by
  induction hcalls with
  | nil => exact trig_zero hr
  | @concat calls c t t' hcalls hcall ih =>
      cases c with
      | setDelay delay =>
          obtain ⟨u, htu, hno, hw, rfl⟩ := exec_setDelay hcall
          have hreg := slvReg_of_delay hno hw (show t ≤ u + 1 by omega) le_rfl
            (k := ⟨3, by decide⟩) (by decide)
          exact (congrArg (fun w : BitVec 32 => w.getLsbD 0) hreg).trans ih
      | setCounts side choice counts =>
          obtain ⟨-, u₁, u₂, u₃, u₄, u₅, hw⟩ := exec_setCounts hcall
          have hlong := hw.wait.1
          exact hw.trig_after (by omega) le_rfl

/-- If every write to the select register finds the machine idle, every trigger does. -/
lemma Calls.unhurried (hr : r.FromReset) (hcalls : r.Calls calls t)
    (hidle : ∀ u v, u < t → r.bus.Writes u 2 v → r.fsm.Idle u) : r.Unhurried t := by
  refine ⟨fun u v hu hw => (hidle u v hu hw).rests, ?_⟩
  induction hcalls with
  | nil => exact fun u hu => absurd hu (Nat.not_lt_zero u)
  | @concat calls c t t' hcalls hcall ih =>
      intro y hy hyw
      have hle : t ≤ t' := Bus.le_of_exec hcall
      rcases Nat.lt_or_ge y t with hearly | hlate
      · exact ih (fun u v hu => hidle u v (hu.trans_le hle)) y hearly hyw
      cases c with
      | setDelay delay =>
          obtain ⟨u, htu, hno, hw, rfl⟩ := exec_setDelay hcall
          rcases Nat.lt_or_ge y u with hlt | hge
          · exact absurd hyw (Bus.not_writes_of_noWrite (hno y hlate hlt))
          · obtain rfl : y = u := by omega
            exact absurd (Bus.writes_unique hw hyw).1 (by decide)
      | setCounts side choice counts =>
          obtain ⟨-, u₁, u₂, u₃, u₄, u₅, hw⟩ := exec_setCounts hcall
          have hu : t ≤ u₁ ∧ u₁ < u₄ ∧ u₄ < t' := by
            have h₁ := hw.select.1
            have h₂ := hw.input.1
            have h₃ := hw.low.1
            have h₄ := hw.high.1
            have h₅ := hw.lowAgain.1
            have hlong := hw.wait.1
            omega
          obtain rfl : y = u₄ := by
            rcases hw.cases_of_writes hlate hy hyw with h | h | h | h
            · exact absurd h.2 (by decide)
            · exact absurd h.2 (by decide)
            · exact h.1
            · exact absurd h.2.2 (by decide)
          refine ⟨y + 1, Nat.lt_succ_self y, ?_, fun z hz hzy => ?_⟩
          · exact Dac.Run.idle_of_no_trigger (hidle u₁ _ (by omega) hw.select.2.2) (by omega)
              fun z hz hzy => hw.trig_before (hcalls.trig_low hr) (by omega) (by omega)
          · obtain rfl : z = y + 1 := by omega
            exact hw.trig_high

/-- **How long a delay may be.**  With the delay register at `249` or less the wait of a
`set_counts` is long enough: every write to the select register finds the machine idle. -/
theorem idle_of_delay_le (hr : r.FromReset)
    (hdelay : ∀ x, (r.fsm.inp x).delayRegister.toNat ≤ 249) (hcalls : r.Calls calls t) :
    r.fsm.Idle t ∧ ∀ u v, u < t → r.bus.Writes u 2 v → r.fsm.Idle u := by
  have hreset : r.fsm.start = .reset := congrArg Regs.fsm hr
  induction hcalls with
  | nil => exact ⟨idle_zero hr, fun u v hu => absurd hu (Nat.not_lt_zero u)⟩
  | @concat calls c t t' hcalls hcall ih =>
      obtain ⟨hidle, hselect⟩ := ih
      have htrig := hcalls.trig_low hr
      cases c with
      | setDelay delay =>
          obtain ⟨u, htu, hno, hw, rfl⟩ := exec_setDelay hcall
          have hlow : ∀ y, t ≤ y → y ≤ u + 1 → (r.fsm.inp y).writeTrig = false := by
            intro y hty hyu
            have hreg := slvReg_of_delay hno hw hty hyu (k := ⟨3, by decide⟩) (by decide)
            exact (congrArg (fun w : BitVec 32 => w.getLsbD 0) hreg).trans htrig
          refine ⟨Dac.Run.idle_of_no_trigger hidle (by omega) fun y hy hyu => hlow y hy hyu.le,
            fun y v hyu hyw => ?_⟩
          rcases Nat.lt_or_ge y t with hearly | hlate
          · exact hselect y v hearly hyw
          · exact Dac.Run.idle_of_no_trigger hidle hlate fun z hz hzy => hlow z hz (by omega)
      | setCounts side choice counts =>
          obtain ⟨-, u₁, u₂, u₃, u₄, u₅, hw⟩ := exec_setCounts hcall
          have hlong := hw.wait.1
          refine ⟨Dac.Run.idle_of_long hreset hdelay (show u₅ + 1 + 40 * (249 + 1) ≤ t' from hlong)
            fun y hy hyt => hw.trig_after hy hyt.le, fun y v hyt hyw => ?_⟩
          rcases Nat.lt_or_ge y t with hearly | hlate
          · exact hselect y v hearly hyw
          · obtain rfl : y = u₁ := by
              rcases hw.cases_of_writes hlate hyt hyw with h | h | h | h
              · exact h.1
              · exact absurd h.2 (by decide)
              · exact absurd h.2 (by decide)
              · exact absurd h.2.1 (by decide)
            have hu₂ := hw.input.1
            have hu₃ := hw.low.1
            have hu₄ := hw.high.1
            exact Dac.Run.idle_of_no_trigger hidle hlate fun z hz hzy =>
              hw.trig_before htrig hz (by omega)

/-! ## Two calls -/

/-- A slave that is always ready to take a write, and one of the template that is ready whenever it
is asked. -/
lemma slaveStep_awEn {m : Master 4} {s : Slave 4} (hready : s.wready = s.awready)
    (hasked : s.awready = false → m.awvalid = true → s.awEn = true) :
    slaveStep m { s with awEn := true } = { s.step m with awEn := true } := by
  obtain ⟨awready, awEn, awaddr, wready, bvalid, arready, araddr, rvalid⟩ := s
  obtain rfl : wready = awready := hready
  cases wready with
  | true => simp [slaveStep, Slave.step]
  | false =>
      cases hvalid : m.awvalid with
      | true =>
          obtain rfl : awEn = true := hasked rfl hvalid
          simp [slaveStep, Slave.step, Slave.takes, hvalid]
      | false => simp [slaveStep, Slave.step, Slave.takes, hvalid]

/-- When the master follows a script, the handshake is that of the template but for `aw_en`. -/
lemma axi_of_script {script : ℕ → Option (Job 4)} (hr : r.FromReset)
    (hm : r.master = scripted script) (t : ℕ) :
    (r.file t).axi = { slave .reset (scripted script) t with awEn := true } := by
  induction t with
  | zero =>
      have hstart : r.start = .reset := hr
      simp [file, regs, hstart, Regs.reset, RegisterFile.reset, slave, Slave.reset]
  | succ t ih =>
      have hasked : (slave .reset (scripted script) t).awready = false →
          (scripted script t).awvalid = true →
          (slave .reset (scripted script) t).awEn = true := by
        obtain ⟨n, k, hk, rfl⟩ := exists_slot t
        obtain ⟨x, y, hslot⟩ := slave_slot script n
        rw [hslot k hk.le, scripted_slot script n hk]
        obtain rfl | rfl | hk2 : k = 0 ∨ k = 1 ∨ 2 ≤ k := by omega
        · exact fun _ _ => rfl
        · rcases script n with _ | ⟨_ | _⟩ <;> simp [Slave.inSlot, Slave.rest, Slave.reset]
        · simp [Master.quiet, hk2.not_gt]
      have hnext : (r.file (t + 1)).axi = slaveStep (r.master t) (r.file t).axi := by
        rw [file_succ]
        rfl
      rw [hnext, ih, slave_succ, hm, slaveStep_awEn awready_eq_wready.symm hasked]

/-- `set_delay`, then `set_counts` for the chips `0` and `1`, each with the least wait. -/
def twoCallsWrites (delay : BitVec 32) : List (ℕ × ℕ × BitVec 32) :=
  [(0, 1, delay),
    (1, 2, 1#32), (2, 0, 1#32), (3, 3, 0#32), (4, 3, 1#32), (5, 3, 0#32),
    (2506, 2, 2#32), (2507, 0, 2#32), (2508, 3, 0#32), (2509, 3, 1#32), (2510, 3, 0#32)]

/-- The calls. -/
def twoCalls (delay : BitVec 32) : List Call :=
  [.setDelay delay, .setCounts .sideA .calDac 1#32, .setCounts .sideA .vthDac 2#32]

/-- A run from reset with these calls. -/
def twoCallsRun (delay : BitVec 32) : Run where
  start := .reset
  master := scripted (scriptOf 2 (twoCallsWrites delay))

section TwoCalls

variable (delay : BitVec 32)

lemma fromReset_twoCallsRun : (twoCallsRun delay).FromReset := rfl

lemma follows_twoCallsRun : Follows (twoCallsRun delay).file
    (scriptOf 2 (twoCallsWrites delay)) :=
  follows_of_slave fun t => ⟨true, axi_of_script (fromReset_twoCallsRun delay) rfl t⟩

lemma twoCallsWrites_regs : ∀ w ∈ twoCallsWrites delay, w.2.1 < 2 ^ 2 := by
  simp [twoCallsWrites]

lemma exec_twoCalls_write {n k : ℕ} {v : BitVec 32} (hk : k < 2 ^ 2)
    (h : (twoCallsWrites delay).lookup n = some (k, v)) :
    Exec (twoCallsRun delay).bus.env (Driver.write k v) (4 * n - 2) () (4 * (n + 1) - 2) :=
  exec_write_slot (follows_twoCallsRun delay) hk (scriptOf_of_lookup h)

lemma exec_twoCalls_usleep {m n : ℕ} (hlong : 4 * m - 2 + 10000 ≤ 4 * n - 2)
    (hgap : ∀ w ∈ twoCallsWrites delay, ¬ (m ≤ w.1 ∧ w.1 < n)) :
    Exec (twoCallsRun delay).bus.env (Driver.usleep setCountDelayUs) (4 * m - 2) ()
      (4 * n - 2) := by
  refine exec_usleep_slots (follows_twoCallsRun delay) ?_ fun j hj hjn addr data hjob => ?_
  · rw [setCountDelayUs, Nat.one_mul]
    exact hlong
  · obtain ⟨i, -, hmem⟩ := mem_of_scriptOf hjob
    exact hgap _ hmem ⟨hj, hjn⟩

lemma calls_twoCallsRun (hdelay : delay ≤ maxDelay) :
    (twoCallsRun delay).Calls (twoCalls delay) 20042 := by
  have hset : Exec (twoCallsRun delay).bus.env (setDelay delay) 0 0 2 := by
    rw [setDelay, if_neg (BitVec.not_lt.mpr hdelay)]
    exact exec_bind.mpr ⟨(), 2, exec_twoCalls_write delay (n := 0) (by decide) rfl,
      exec_done.mpr ⟨rfl, rfl⟩⟩
  have hcounts : ∀ {side choice counts n m}, counts ≤ maxInput →
      (twoCallsWrites delay).lookup n = some (2, selectMask side choice) →
      (twoCallsWrites delay).lookup (n + 1) = some (0, counts) →
      (twoCallsWrites delay).lookup (n + 2) = some (3, 0#32) →
      (twoCallsWrites delay).lookup (n + 3) = some (3, 1#32) →
      (twoCallsWrites delay).lookup (n + 4) = some (3, 0#32) →
      4 * (n + 5) - 2 + 10000 ≤ 4 * m - 2 →
      (∀ w ∈ twoCallsWrites delay, ¬ (n + 5 ≤ w.1 ∧ w.1 < m)) →
      Exec (twoCallsRun delay).bus.env (setCounts side choice counts) (4 * n - 2) 0
        (4 * m - 2) := by
    intro side choice counts n m hmax h₁ h₂ h₃ h₄ h₅ hlong hgap
    rw [setCounts, if_neg (BitVec.not_lt.mpr hmax)]
    exact exec_bind.mpr ⟨(), _, exec_twoCalls_write delay (by decide) h₁,
      exec_bind.mpr ⟨(), _, exec_twoCalls_write delay (by decide) h₂,
      exec_bind.mpr ⟨(), _, exec_twoCalls_write delay (by decide) h₃,
      exec_bind.mpr ⟨(), _, exec_twoCalls_write delay (by decide) h₄,
      exec_bind.mpr ⟨(), _, exec_twoCalls_write delay (by decide) h₅,
      exec_bind.mpr ⟨(), _, exec_twoCalls_usleep delay hlong hgap, exec_done.mpr ⟨rfl, rfl⟩⟩⟩⟩⟩⟩⟩
  have hfirst : Exec (twoCallsRun delay).bus.env (setCounts .sideA .calDac 1#32) 2 0 10022 :=
    hcounts (n := 1) (m := 2506) (by decide) rfl rfl rfl rfl rfl (by decide)
      (by simp [twoCallsWrites])
  have hsecond : Exec (twoCallsRun delay).bus.env (setCounts .sideA .vthDac 2#32) 10022 0 20042 :=
    hcounts (n := 2506) (m := 5011) (by decide) rfl rfl rfl rfl rfl (by decide)
      (by simp [twoCallsWrites])
  exact .concat (.concat (.concat .nil hset) hfirst) hsecond

lemma slvReg_twoCalls {n k x : ℕ} {v : BitVec 32} (hk : k < 2 ^ 2)
    (hlookup : (twoCallsWrites delay).lookup n = some (k, v)) (hx : 4 * n + 2 ≤ x)
    (hgap : ∀ w ∈ twoCallsWrites delay, n < w.1 → 4 * w.1 + 1 < x → w.2.1 ≠ k) :
    (twoCallsRun delay).slvReg x ⟨k, hk⟩ = v :=
  slvReg_of_list (follows_twoCallsRun delay) (twoCallsWrites_regs delay)
    (twoCallsRun delay).advances hk hlookup hx hgap

/-- The trigger is as the last write to it says. -/
lemma trig_twoCalls {n x : ℕ} {v : BitVec 32}
    (hlookup : (twoCallsWrites delay).lookup n = some (3, v)) (hx : 4 * n + 2 ≤ x)
    (hgap : ∀ w ∈ twoCallsWrites delay, n < w.1 → 4 * w.1 + 1 < x → w.2.1 ≠ 3) :
    ((twoCallsRun delay).fsm.inp x).writeTrig = v.getLsbD 0 :=
  congrArg (fun w : BitVec 32 => w.getLsbD 0) (slvReg_twoCalls delay (by decide) hlookup hx hgap)

/-- The machine is idle up to the first trigger. -/
lemma idle_twoCalls {x : ℕ} (hx : x ≤ 18) : (twoCallsRun delay).fsm.Idle x := by
  refine Dac.Run.idle_of_no_trigger (idle_zero (fromReset_twoCallsRun delay)) (Nat.zero_le x)
    fun y _ hyx => ?_
  rcases Nat.lt_or_ge y 14 with hearly | hlate
  · have hkept := slvReg_kept_of_list (k := 3) (follows_twoCallsRun delay)
      (twoCallsWrites_regs delay) (twoCallsRun delay).advances (by decide)
      (Nat.zero_le y) (by simp [twoCallsWrites]; omega)
    exact (congrArg (fun w : BitVec 32 => w.getLsbD 0) hkept).trans
      (trig_zero (fromReset_twoCallsRun delay))
  · exact trig_twoCalls delay (n := 3) rfl hlate (by simp [twoCallsWrites]; omega)

lemma trig_twoCalls_first : ((twoCallsRun delay).fsm.inp 18).writeTrig = true :=
  trig_twoCalls delay (n := 4) rfl (by decide) (by simp [twoCallsWrites])

lemma delay_twoCalls {x : ℕ} (hx : 2 ≤ x) :
    ((twoCallsRun delay).fsm.inp x).delayRegister = delay.extractLsb' 0 16 :=
  congrArg (fun w : BitVec 32 => w.extractLsb' 0 16)
    (slvReg_twoCalls delay (n := 0) (by decide) rfl hx (by simp [twoCallsWrites]))

lemma word_twoCalls {x : ℕ} (hx : 10030 ≤ x) :
    ((twoCallsRun delay).fsm.inp x).inputWord = 2#16 ∧
      ((twoCallsRun delay).fsm.inp x).selectMask = 2#4 :=
  ⟨congrArg (fun w : BitVec 32 => w.extractLsb' 0 16)
      (slvReg_twoCalls delay (n := 2507) (by decide) rfl hx (by simp [twoCallsWrites])),
    congrArg (fun w : BitVec 32 => w.extractLsb' 0 4)
      (slvReg_twoCalls delay (n := 2506) (by decide) rfl (by omega) (by simp [twoCallsWrites]))⟩

end TwoCalls

/-- Without a delay both chips get their counts. -/
theorem quickCalls_reach_chips :
    ((twoCallsRun 0#32).chip (fun _ => 0#16) 0 20042).toNat = 1 ∧
      ((twoCallsRun 0#32).chip (fun _ => 0#16) 1 20042).toNat = 2 := by
  have hr := fromReset_twoCallsRun 0#32
  have hcalls := calls_twoCallsRun 0#32 (by decide)
  have hdelay : ∀ x, ((twoCallsRun 0#32).fsm.inp x).delayRegister.toNat ≤ 249 := by
    intro x
    rcases Nat.lt_or_ge x 2 with hearly | hlate
    · obtain rfl | rfl : x = 0 ∨ x = 1 := by omega
      all_goals decide
    · rw [delay_twoCalls 0#32 hlate]
      decide
  obtain ⟨hidle, hselect⟩ := idle_of_delay_le hr hdelay hcalls
  have hends := endsCommanded (fun _ => 0#16) hr hcalls (hcalls.unhurried hr hselect) 20042 le_rfl
    (fun u hu hlt => absurd hlt (Nat.not_lt.mpr hu)) hidle
  exact ⟨hends 0 (by decide), hends 1 (by decide)⟩

/-- With the longest delay the second call comes during the frame of the first, which then sends
the second word to the second chip: chip `0` never gets its counts. -/
theorem slowCalls_lose_counts : (twoCallsRun 65535#32).FromReset ∧
    (twoCallsRun 65535#32).Calls (twoCalls 65535#32) 20042 ∧
    ¬ (twoCallsRun 65535#32).EndsCommanded (fun _ => 0#16) (twoCalls 65535#32) 20042 := by
  refine ⟨fromReset_twoCallsRun _, calls_twoCallsRun _ (by decide), fun hends => ?_⟩
  have hidle := idle_twoCalls 65535#32 (x := 18) le_rfl
  have hdelay : ∀ u, 18 < u → u < Dac.Run.frameEnd 65535#16 18 →
      ((twoCallsRun 65535#32).fsm.inp u).delayRegister = 65535#16 := fun u hu _ =>
    delay_twoCalls 65535#32 (by omega)
  have hlong : Dac.Run.frameEnd 65535#16 18 = 2621459 := rfl
  have hend := Dac.Run.idle_frameEnd hidle (trig_twoCalls_first _) hdelay
  have hwindows := Dac.Run.windows_frame (n := 0) hidle (trig_twoCalls_first _) hdelay
    (fun u hu _ => word_twoCalls 65535#32 (by
      rw [show (65535#16).toNat = 65535 from rfl] at hu
      omega)) (by decide)
  rw [hlong] at hend hwindows
  have hno : (twoCallsRun 65535#32).bus.NoWrites 20042 2621459 := by
    intro u hu _
    refine (follows_twoCallsRun 65535#32).noWrite u ?_
    rintro ⟨-, addr, data, hjob⟩
    obtain ⟨i, -, hmem⟩ := mem_of_scriptOf hjob
    have hslot : ∀ w ∈ twoCallsWrites 65535#32, w.1 < 5010 := by simp [twoCallsWrites]
    have hlt := hslot _ hmem
    omega
  have hzero : (twoCallsRun 65535#32).chip (fun _ => 0#16) 0 2621459 = 0#16 := by
    rw [chip_of_rests (by decide) (by decide) hidle.rests, hwindows, chip,
      Dac.Run.windows_of_rests (by decide) (by decide) fun u _ hu =>
        (idle_twoCalls 65535#32 hu).rests,
      taken_frame]
    rfl
  have hheld := hends 2621459 (by decide) hno hend 0 (by decide)
  rw [hzero] at hheld
  exact absurd hheld (by decide)

end Core.Run

end TrackerFpga.Dac
