import Mathlib.Data.List.Induction
import TrackerFpga.Lib.Grouping

/-!
# Grouping sources that number their items

If every source puts its items in under the keys `key 0`, `key 1`, … in this order, the sources need
not keep pace: the groups are put out in the order of their numbers, group `k` holds item `k` of
each source, and as many groups are put out as the slowest source has put in items
(`exists_inStep_run`).
-/

namespace Grouping

variable {ι κ δ : Type} [DecidableEq ι] {xs ys : List (Item ι κ δ)} {x : Item ι κ δ} {i : ι}
  {k : ℕ}

/-- The values of a source, in order. -/
def valuesOf (xs : List (Item ι κ δ)) (i : ι) : List δ :=
  (xs.filter fun x => x.source = i).map Item.value

/-- Each source puts its items in under the keys `key 0`, `key 1`, …. -/
def NumberedBy (key : ℕ → κ) (xs : List (Item ι κ δ)) : Prop :=
  ∀ ys x, ys ++ [x] <+: xs → x.key = key (valuesOf ys x.source).length

lemma valuesOf_append (xs ys : List (Item ι κ δ)) (i : ι) :
    valuesOf (xs ++ ys) i = valuesOf xs i ++ valuesOf ys i := by
  simp [valuesOf]

lemma valuesOf_concat_self (xs : List (Item ι κ δ)) (x : Item ι κ δ) :
    valuesOf (xs ++ [x]) x.source = valuesOf xs x.source ++ [x.value] := by
  simp [valuesOf]

lemma valuesOf_concat_of_ne (h : x.source ≠ i) : valuesOf (xs ++ [x]) i = valuesOf xs i := by
  simp [valuesOf, h]

/-- An item is at the end of the values of its source. -/
lemma getElem?_concat_self (xs : List (Item ι κ δ)) (x : Item ι κ δ) :
    (valuesOf (xs ++ [x]) x.source)[(valuesOf xs x.source).length]? = some x.value := by
  rw [valuesOf_concat_self, List.getElem?_concat_length]

/-- At every other place nothing changes. -/
lemma getElem?_concat (h : x.source = i → k ≠ (valuesOf xs i).length) :
    (valuesOf (xs ++ [x]) i)[k]? = (valuesOf xs i)[k]? := by
  by_cases hx : x.source = i
  · subst hx
    rw [valuesOf_concat_self, List.getElem?_append]
    split_ifs with hlt
    · rfl
    · have hlate := h rfl
      rw [List.getElem?_eq_none (by simp; omega), List.getElem?_eq_none (by omega)]
  · rw [valuesOf_concat_of_ne hx]

lemma length_valuesOf_concat (xs : List (Item ι κ δ)) (x : Item ι κ δ) (i : ι) :
    (valuesOf (xs ++ [x]) i).length =
      (valuesOf xs i).length + if x.source = i then 1 else 0 := by
  by_cases hx : x.source = i
  · subst hx
    simp [valuesOf_concat_self]
  · simp [valuesOf_concat_of_ne hx, hx]

lemma getElem?_of_prefix (h : ys ++ [x] <+: xs) :
    (valuesOf xs x.source)[(valuesOf ys x.source).length]? = some x.value := by
  obtain ⟨zs, rfl⟩ := h
  rw [valuesOf_append, List.getElem?_append_left (by simp [valuesOf_concat_self]),
    getElem?_concat_self]

namespace Grouper

variable {s : Grouper ι κ δ} {key : ℕ → κ} {m b : ℕ}

/-- The first `m` groups have been put out, and source by source what is behind them is held.  The
keys are looked at below `b`. -/
structure InStep (key : ℕ → κ) (b : ℕ) (xs : List (Item ι κ δ)) (m : ℕ) (s : Grouper ι κ δ) :
    Prop where
  le : ∀ i, m ≤ (valuesOf xs i).length
  least : ∃ i, (valuesOf xs i).length = m
  out : s.out = (List.range m).map fun k => (key k, fun i => (valuesOf xs i)[k]?)
  held : ∀ k < b, ∀ i, s.held (key k) i = if m ≤ k then (valuesOf xs i)[k]? else none

lemma inStep_empty [Nonempty ι] : InStep key b [] 0 (empty : Grouper ι κ δ) where
  le _ := Nat.zero_le _
  least := ⟨Classical.arbitrary ι, rfl⟩
  out := rfl
  held k _ i := by simp [empty, valuesOf]

namespace InStep

variable (h : InStep key b xs m s)
include h

/-- The groups that have been put out do not change. -/
lemma out_concat (x : Item ι κ δ) :
    s.out = (List.range m).map fun k => (key k, fun i => (valuesOf (xs ++ [x]) i)[k]?) := by
  rw [h.out]
  refine List.map_congr_left fun k hk => ?_
  have hkm := List.mem_range.mp hk
  congr 1
  funext i
  rw [getElem?_concat]
  have hle := h.le i
  omega

/-- The group of a new item is what its number stands for. -/
lemma group_eq (hkey : x.key = key (valuesOf xs x.source).length)
    (hb : (valuesOf xs x.source).length < b) :
    s.group x = fun i => (valuesOf (xs ++ [x]) i)[(valuesOf xs x.source).length]? := by
  funext i
  rw [group, hkey]
  rcases eq_or_ne i x.source with rfl | hi
  · rw [Function.update_self, getElem?_concat_self]
  · rw [Function.update_of_ne hi, h.held _ hb, if_pos (h.le x.source),
      getElem?_concat fun heq => absurd heq.symm hi]

/-- What is held under the other numbers does not change. -/
lemma held_concat (hk : k < b) (hne : k ≠ (valuesOf xs x.source).length) (i : ι) :
    s.held (key k) i = if m ≤ k then (valuesOf (xs ++ [x]) i)[k]? else none := by
  rw [h.held k hk, getElem?_concat]
  rintro rfl
  exact hne

variable [DecidableEq κ] [Fintype ι] (hinj : ∀ j k, j < b → k < b → key j = key k → j = k)
include hinj

/-- One more item. -/
lemma put (hkey : x.key = key (valuesOf xs x.source).length)
    (hb : (valuesOf xs x.source).length < b) : ∃ m', InStep key b (xs ++ [x]) m' (s.put x) := by
  have hgroup := h.group_eq hkey hb
  have hlength := length_valuesOf_concat xs x
  have hself := hlength x.source
  rw [if_pos rfl] at hself
  obtain ⟨i₀, hi₀⟩ := h.least
  have hle := h.le
  have hother : ∀ k < b, k ≠ (valuesOf xs x.source).length → key k ≠ x.key := by
    intro k hk hne heq
    exact hne (hinj _ _ hk hb (heq.trans hkey))
  have hfull_iff : (∀ i, (s.group x i).isSome) ↔
      ∀ i, (valuesOf xs x.source).length < (valuesOf (xs ++ [x]) i).length := by
    rw [hgroup]
    simp only [Option.isSome_iff_ne_none, ne_eq, List.getElem?_eq_none_iff, not_le]
  unfold Grouper.put
  by_cases hfull : ∀ i, (s.group x i).isSome
  · -- the item completes a group, which is that of the slowest source
    have hall := hfull_iff.mp hfull
    have hm : m = (valuesOf xs x.source).length := by
      have hslow := hall i₀
      rw [hlength i₀] at hslow
      have hleast := hle x.source
      split_ifs at hslow with hx
      · rw [hx, hi₀]
      · omega
    rw [if_pos hfull]
    refine ⟨m + 1, fun i => by have hi := hall i; omega, ⟨x.source, by omega⟩, ?_, ?_⟩
    · simp only [h.out_concat x, hgroup, hkey, List.range_succ, List.map_append, List.map_cons,
        List.map_nil, hm]
    · intro k hk i
      rcases eq_or_ne k (valuesOf xs x.source).length with heq | hne
      · rw [if_neg (by omega)]
        simp only [heq, ← hkey, Function.update_self]
      · simp only [Function.update_of_ne (hother k hk hne), h.held_concat hk hne]
        rcases Nat.lt_or_ge k m with hlt | hge
        · rw [if_neg (by omega), if_neg (by omega)]
        · rw [if_pos hge, if_pos (by omega)]
  · rw [if_neg hfull]
    refine ⟨m, fun i => by rw [hlength]; exact (hle i).trans (Nat.le_add_right _ _), ?_,
      h.out_concat x, ?_⟩
    · by_cases hx : x.source = i₀
      · -- another source is as slow as this one was
        rw [hfull_iff, not_forall] at hfull
        obtain ⟨i, hi⟩ := hfull
        have hi' := hlength i
        have hmi := hle i
        refine ⟨i, ?_⟩
        rw [hx, hi₀] at hi
        omega
      · exact ⟨i₀, by rw [hlength, if_neg hx, hi₀, Nat.add_zero]⟩
    · intro k hk i
      rcases eq_or_ne k (valuesOf xs x.source).length with rfl | hne
      · rw [if_pos (hle x.source)]
        simp only [← hkey, Function.update_self, hgroup]
      · simp only [Function.update_of_ne (hother k hk hne), h.held_concat hk hne]

end InStep

/-- **Numbered sources are grouped in step.** -/
lemma exists_inStep_run [DecidableEq κ] [Fintype ι] [Nonempty ι]
    (hinj : ∀ j k, j < b → k < b → key j = key k → j = k)
    (hxs : NumberedBy key xs) (hb : ∀ i, (valuesOf xs i).length ≤ b) :
    ∃ m, InStep key b xs m ((empty : Grouper ι κ δ).run xs) := by
  induction xs using List.reverseRecOn with
  | nil => exact ⟨0, inStep_empty⟩
  | append_singleton xs x ih =>
      have hlength := length_valuesOf_concat xs x
      obtain ⟨m, hm⟩ := ih (fun ys y hy => hxs ys y (hy.trans (List.prefix_append xs [x])))
        fun i => by have hi := hlength i; have hbi := hb i; omega
      have hself := hlength x.source
      have hbx := hb x.source
      rw [if_pos rfl] at hself
      rw [run, List.foldl_append]
      exact hm.put hinj (hxs xs x List.prefix_rfl) (by omega)

end Grouper

end Grouping
