import Mathlib.Data.Bool.Basic
import Mathlib.Data.Nat.Init
import Mathlib.Tactic.Common

/-!
# What a chip sees on an SPI wire

A chip at the end of a wire sees three levels, its chip select `sync` (low when it is selected),
the clock and the data.  It acts on edges only, so it makes no difference to it how long a level
lasts: an `Observer` is a machine that is fed with levels and to which the same level twice is the
same as once.  What an observer has seen of a wire that stays at each of a list of levels for some
time is what it sees of the list (`along_path`).

`watch` is the observer that writes down what a chip is told: for each time its chip select was
low, the data at the falling edges of the clock.
-/

namespace SpiWire

/-- The levels of the three lines. -/
structure Level where
  sync : Bool
  sclk : Bool
  mosi : Bool
  deriving DecidableEq, Repr

/-- The chip select falls from one level to the next. -/
def syncFalls (before now : Level) : Bool := before.sync && !now.sync

/-- The clock falls from one level to the next, with the chip select low. -/
def sclkFalls (before now : Level) : Bool :=
  !before.sync && !now.sync && before.sclk && !now.sclk

@[simp] lemma syncFalls_self (l : Level) : syncFalls l l = false := by simp [syncFalls]

@[simp] lemma sclkFalls_self (l : Level) : sclkFalls l l = false := by
  cases h : l.sclk <;> simp [sclkFalls, h]

/-- A machine that is fed with levels, and does not count how often it is fed with the same. -/
structure Observer (σ : Type) where
  see : Level → σ → σ
  see_see : ∀ l s, see l (see l s) = see l s

namespace Observer

variable {σ : Type} (O : Observer σ) {s : σ}

/-- What the observer holds after the levels `L 1` to `L k`. -/
def along (s : σ) (L : ℕ → Level) : ℕ → σ
  | 0 => s
  | k + 1 => O.see (L (k + 1)) (along s L k)

@[simp] lemma along_zero (s : σ) (L : ℕ → Level) : O.along s L 0 = s := rfl

lemma along_succ (s : σ) (L : ℕ → Level) (k : ℕ) :
    O.along s L (k + 1) = O.see (L (k + 1)) (O.along s L k) := rfl

lemma along_add (s : σ) (L : ℕ → Level) (m k : ℕ) :
    O.along s L (m + k) = O.along (O.along s L m) (fun j => L (m + j)) k := by
  induction k with
  | zero => rfl
  | succ k ih => rw [← Nat.add_assoc, along_succ, along_succ, ih, Nat.add_assoc]

/-- The last level has been seen. -/
lemma see_along {L : ℕ → Level} (hs : O.see (L 0) s = s) (k : ℕ) :
    O.see (L k) (O.along s L k) = O.along s L k := by
  cases k with
  | zero => exact hs
  | succ k => exact O.see_see _ _

/-- **Time does not matter.**  A wire that moves along the levels `L 0`, `L 1`, …, staying at each
for some time, looks like these levels. -/
lemma along_path {L M : ℕ → Level} {pos : ℕ → ℕ} (hs : O.see (L 0) s = s) (h0 : pos 0 = 0)
    {n : ℕ} (hstep : ∀ k < n, pos (k + 1) = pos k ∨ pos (k + 1) = pos k + 1)
    (hlevel : ∀ k ≤ n, M k = L (pos k)) : O.along s M n = O.along s L (pos n) := by
  induction n with
  | zero => rw [h0, along_zero, along_zero]
  | succ n ih =>
      rw [along_succ, hlevel (n + 1) (Nat.le_refl _),
        ih (fun k hk => hstep k (by omega)) fun k hk => hlevel k (by omega)]
      rcases hstep n (Nat.lt_succ_self n) with hstay | hmove
      · rw [hstay, O.see_along hs]
      · rw [hmove, along_succ]

end Observer

/-! ## What a chip is told -/

/-- The level last seen, and for each time the chip select was low the data at the falling edges of
the clock, oldest first. -/
structure Watch where
  last : Level
  windows : List (List Bool)
  deriving DecidableEq, Repr

/-- The data `b` comes in the window that is open. -/
def addBit (b : Bool) : List (List Bool) → List (List Bool)
  | [] => []
  | [w] => [w ++ [b]]
  | w :: ws => w :: addBit b ws

lemma addBit_cons (b : Bool) (w : List Bool) {ws : List (List Bool)} (hws : ws ≠ []) :
    addBit b (w :: ws) = w :: addBit b ws := by
  cases ws with
  | nil => exact absurd rfl hws
  | cons v vs => rfl

/-- The observer that writes down the windows. -/
def watch : Observer Watch where
  see l s :=
    { last := l
      windows :=
        if syncFalls s.last l then s.windows ++ [[]]
        else if sclkFalls s.last l then addBit l.mosi s.windows
        else s.windows }
  see_see l s := by simp

/-- A watch that begins. -/
def Watch.start (l : Level) : Watch := { last := l, windows := [] }

lemma see_start (l : Level) : watch.see l (.start l) = .start l := by
  simp [watch, Watch.start]

section Watch

variable {w : Watch} {l : Level} {L : ℕ → Level} {a b : ℕ}

@[simp] lemma last_see (l : Level) (w : Watch) : (watch.see l w).last = l := rfl

/-- Nothing is written down while the chip select is high. -/
lemma windows_see_of_sync (h : l.sync = true) : (watch.see l w).windows = w.windows := by
  simp [watch, syncFalls, sclkFalls, h]

lemma windows_along_of_sync (hab : a ≤ b) (h : ∀ j, a < j → j ≤ b → (L j).sync = true) :
    (watch.along w L b).windows = (watch.along w L a).windows := by
  induction b, hab using Nat.le_induction with
  | base => rfl
  | succ b hab ih =>
      rw [watch.along_succ, windows_see_of_sync (h (b + 1) (by omega) (Nat.le_refl _)),
        ih fun j hj hjb => h j hj (by omega)]

/-- A window opens where the chip select falls. -/
lemma windows_see_of_syncFalls (h : syncFalls w.last l = true) :
    (watch.see l w).windows = w.windows ++ [[]] := by
  simp [watch, h]

/-- A falling edge of the clock brings a bit into the window that is open. -/
lemma windows_see_of_sclkFalls (h : sclkFalls w.last l = true) :
    (watch.see l w).windows = addBit l.mosi w.windows := by
  have hno : syncFalls w.last l = false := by
    simp only [sclkFalls, Bool.and_eq_true, Bool.not_eq_true'] at h
    simp [syncFalls, h.1.1.1]
  simp [watch, h, hno]

/-- With neither, nothing is written down. -/
lemma windows_see_of_steady (hsync : syncFalls w.last l = false)
    (hsclk : sclkFalls w.last l = false) : (watch.see l w).windows = w.windows := by
  simp [watch, hsync, hsclk]

lemma addBit_append (m : Bool) (vs : List (List Bool)) {ws : List (List Bool)} (hws : ws ≠ []) :
    addBit m (vs ++ ws) = vs ++ addBit m ws := by
  induction vs with
  | nil => rfl
  | cons v vs ih =>
      obtain ⟨x, xs, hx⟩ := List.exists_cons_of_ne_nil (List.append_ne_nil_of_right_ne_nil vs hws)
      rw [List.cons_append, hx, addBit_cons _ _ (List.cons_ne_nil x xs), ← hx, ih, List.cons_append]

/-- A watch that goes on where the chip select was high adds what a new one would write down. -/
lemma windows_along_append (hw : w.last.sync = true) (k : ℕ) :
    (watch.along w L k).windows = w.windows ++ (watch.along (.start w.last) L k).windows := by
  have hboth : (watch.along w L k).last = (watch.along (.start w.last) L k).last ∧
      (watch.along w L k).windows =
        w.windows ++ (watch.along (.start w.last) L k).windows ∧
      ((watch.along w L k).last.sync = false →
        (watch.along (.start w.last) L k).windows ≠ []) := by
    induction k with
    | zero => simp [Watch.start, hw]
    | succ k ih =>
        obtain ⟨hlast, hwindows, hopen⟩ := ih
        rw [watch.along_succ, watch.along_succ]
        refine ⟨rfl, ?_, ?_⟩
        · by_cases hfall : syncFalls (watch.along w L k).last (L (k + 1)) = true
          · rw [windows_see_of_syncFalls hfall, windows_see_of_syncFalls (hlast ▸ hfall),
              hwindows, List.append_assoc]
          · by_cases hbit : sclkFalls (watch.along w L k).last (L (k + 1)) = true
            · have hlow : (watch.along w L k).last.sync = false := by
                simp only [sclkFalls, Bool.and_eq_true, Bool.not_eq_true'] at hbit
                exact hbit.1.1.1
              rw [windows_see_of_sclkFalls hbit, windows_see_of_sclkFalls (hlast ▸ hbit), hwindows,
                addBit_append _ _ (hopen hlow)]
            · rw [Bool.not_eq_true] at hfall hbit
              rw [windows_see_of_steady hfall hbit,
                windows_see_of_steady (hlast ▸ hfall) (hlast ▸ hbit), hwindows]
        · intro hlow
          rw [last_see] at hlow
          by_cases hwas : (watch.along w L k).last.sync = true
          · have hfall : syncFalls (watch.along (.start w.last) L k).last (L (k + 1)) = true := by
              rw [← hlast]
              simp [syncFalls, hwas, hlow]
            rw [windows_see_of_syncFalls hfall]
            simp
          · have hne := hopen (Bool.eq_false_of_not_eq_true hwas)
            have hno : syncFalls (watch.along (.start w.last) L k).last (L (k + 1)) = false := by
              rw [← hlast]
              simp [syncFalls, hwas]
            by_cases hbit : sclkFalls (watch.along (.start w.last) L k).last (L (k + 1)) = true
            · rw [windows_see_of_sclkFalls hbit]
              obtain ⟨x, xs, hx⟩ := List.exists_cons_of_ne_nil hne
              rw [hx]
              cases xs <;> simp [addBit]
            · rw [windows_see_of_steady hno (Bool.eq_false_of_not_eq_true hbit)]
              exact hne
  exact hboth.2.1

end Watch

end SpiWire
