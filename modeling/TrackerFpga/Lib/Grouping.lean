import Mathlib.Data.Fintype.Basic
import Mathlib.Data.Fintype.Pi
import Mathlib.Logic.Function.Basic
import Mathlib.Tactic.Common

/-!
# Grouping items of several sources by key

Items `d : δ` come from sources `i : ι` under keys `k : κ`.  A `Grouper` holds the items of each
key until every source has one, and then puts out the group.  There is one place for each key and
source: `put` writes over an item that is still there.

`kept s i k` is what is left of the items of source `i` under key `k`, in order: those put out and
then the one still held.  It is what was put in exactly as long as no item was written over
(`kept_run_iff`), and that is so exactly if no source comes twice in one round of a key, where as
many items as there are sources make a round (`undisturbed_iff_inRounds`).
-/

namespace Grouping

/-! ## Rounds -/

section Rounds

variable {ι : Type} [Fintype ι] {l : List ι}

/-- One round of as many sources as there are. -/
def roundOf (l : List ι) (r : ℕ) : List ι := (l.drop (Fintype.card ι * r)).take (Fintype.card ι)

/-- No source comes twice in one round. -/
def InRounds (l : List ι) : Prop := ∀ r, (roundOf l r).Nodup

/-- The round that is not complete yet. -/
def lastRound (l : List ι) : List ι := roundOf l (l.length / Fintype.card ι)

lemma lastRound_eq [Nonempty ι] :
    lastRound l = l.drop (Fintype.card ι * (l.length / Fintype.card ι)) := by
  have hlt := Nat.mod_lt l.length (Fintype.card_pos (α := ι))
  refine List.take_of_length_le ?_
  rw [List.length_drop, ← Nat.mod_def]
  exact hlt.le

lemma length_lastRound [Nonempty ι] : (lastRound l).length = l.length % Fintype.card ι := by
  rw [lastRound_eq, List.length_drop, ← Nat.mod_def]

/-- A further source belongs to the round that is not complete yet. -/
lemma roundOf_concat (l : List ι) (i : ι) (r : ℕ) :
    roundOf (l ++ [i]) r =
      if r = l.length / Fintype.card ι then lastRound l ++ [i] else roundOf l r := by
  have : Nonempty ι := ⟨i⟩
  have hpos := Fintype.card_pos (α := ι)
  have hmod := Nat.div_add_mod l.length (Fintype.card ι)
  have hlt := Nat.mod_lt l.length hpos
  rcases lt_trichotomy r (l.length / Fintype.card ι) with hr | rfl | hr
  · have hle := Nat.mul_le_mul_left (Fintype.card ι) (Nat.succ_le_of_lt hr)
    rw [Nat.mul_succ] at hle
    rw [if_neg hr.ne, roundOf, List.drop_append_of_le_length (by omega),
      List.take_append_of_le_length (by rw [List.length_drop]; omega), roundOf]
  · rw [if_pos rfl, roundOf, List.drop_append_of_le_length (Nat.mul_div_le _ _), lastRound_eq]
    refine List.take_of_length_le ?_
    rw [List.length_append, List.length_drop, List.length_singleton]
    omega
  · have hle := Nat.mul_le_mul_left (Fintype.card ι) (Nat.succ_le_of_lt hr)
    rw [Nat.mul_succ] at hle
    rw [if_neg hr.ne', roundOf, roundOf, List.drop_of_length_le (by simp; omega),
      List.drop_of_length_le (by omega)]

lemma inRounds_concat (l : List ι) (i : ι) :
    InRounds (l ++ [i]) ↔ InRounds l ∧ i ∉ lastRound l := by
  have hlast : (lastRound l ++ [i]).Nodup ↔ (lastRound l).Nodup ∧ i ∉ lastRound l := by
    rw [← List.concat_eq_append, List.nodup_concat, and_comm]
  constructor
  · intro h
    obtain ⟨hnodup, hi⟩ := hlast.mp (by simpa [roundOf_concat] using h (l.length / Fintype.card ι))
    refine ⟨fun r => ?_, hi⟩
    have hr := h r
    rw [roundOf_concat] at hr
    split_ifs at hr with heq
    · subst heq
      exact hnodup
    · exact hr
  · rintro ⟨h, hi⟩ r
    rw [roundOf_concat]
    split_ifs with heq
    · exact hlast.mpr ⟨h _, hi⟩
    · exact h r

/-- The round is complete with this source, or it goes on. -/
lemma lastRound_concat (l : List ι) (i : ι) :
    lastRound (l ++ [i]) =
      if (lastRound l ++ [i]).length = Fintype.card ι then [] else lastRound l ++ [i] := by
  have : Nonempty ι := ⟨i⟩
  have hpos := Fintype.card_pos (α := ι)
  have hmod := Nat.div_add_mod l.length (Fintype.card ι)
  have hlt := Nat.mod_lt l.length hpos
  have hlength : (l ++ [i]).length = l.length + 1 := List.length_append
  have hround : (lastRound l ++ [i]).length = l.length % Fintype.card ι + 1 := by
    rw [List.length_append, length_lastRound, List.length_singleton]
  rw [lastRound, roundOf_concat, hlength, hround]
  by_cases hfull : l.length % Fintype.card ι + 1 = Fintype.card ι
  · have hnext : (l.length + 1) / Fintype.card ι = l.length / Fintype.card ι + 1 :=
      Nat.div_eq_of_eq_mul_right hpos (by rw [Nat.mul_succ]; omega)
    rw [if_neg (by omega), if_pos hfull, roundOf, hnext,
      List.drop_of_length_le (by rw [Nat.mul_succ]; omega), List.take_nil]
  · have hsame : (l.length + 1) / Fintype.card ι = l.length / Fintype.card ι :=
      Nat.div_eq_of_lt_le (by rw [mul_comm]; omega) (by rw [mul_comm, Nat.mul_succ]; omega)
    rw [if_pos hsame, if_neg hfull]

/-- A round without repetition is complete when every source is in it. -/
lemma forall_mem_iff_length (h : l.Nodup) : (∀ i, i ∈ l) ↔ l.length = Fintype.card ι := by
  classical
  rw [← List.toFinset_card_of_nodup h, Finset.card_eq_iff_eq_univ, Finset.eq_univ_iff_forall]
  simp only [List.mem_toFinset]

end Rounds

/-! ## The grouper -/

variable {ι κ δ : Type} [DecidableEq ι] [DecidableEq κ] [Fintype ι]

/-- The items held under each key, and the groups put out, oldest first. -/
structure Grouper (ι κ δ : Type) where
  held : κ → ι → Option δ
  out : List (κ × (ι → Option δ))

/-- An item of a source under a key. -/
structure Item (ι κ δ : Type) where
  source : ι
  key : κ
  value : δ

namespace Grouper

/-- Nothing held and nothing put out. -/
def empty : Grouper ι κ δ := ⟨fun _ _ => none, []⟩

/-- The items of its key with a new item among them. -/
def group (s : Grouper ι κ δ) (x : Item ι κ δ) : ι → Option δ :=
  Function.update (s.held x.key) x.source (some x.value)

/-- Put in one item. -/
def put (s : Grouper ι κ δ) (x : Item ι κ δ) : Grouper ι κ δ :=
  if ∀ i, (s.group x i).isSome then
    { held := Function.update s.held x.key fun _ => none, out := s.out ++ [(x.key, s.group x)] }
  else
    { s with held := Function.update s.held x.key (s.group x) }

/-- The items of a source that were put out under a key. -/
def outOf (s : Grouper ι κ δ) (i : ι) (k : κ) : List δ :=
  s.out.filterMap fun g => if g.1 = k then g.2 i else none

/-- The items of a source under a key that are left. -/
def kept (s : Grouper ι κ δ) (i : ι) (k : κ) : List δ := s.outOf i k ++ (s.held k i).toList

variable {s : Grouper ι κ δ} {x : Item ι κ δ} {i : ι} {k : κ}

/-- The item that is put in is the last one kept; it takes the place of the one held. -/
lemma kept_put_self : (s.put x).kept x.source x.key = s.outOf x.source x.key ++ [x.value] := by
  unfold put
  split_ifs with hfull
  · simp [kept, outOf, group]
  · simp [kept, outOf, group]

/-- Nothing else changes, also if the group is put out. -/
lemma kept_put_of_ne (h : ¬ (x.source = i ∧ x.key = k)) : (s.put x).kept i k = s.kept i k := by
  by_cases hk : x.key = k
  · have hi : i ≠ x.source := fun heq => h ⟨heq.symm, hk⟩
    subst hk
    unfold put
    split_ifs with hfull
    · simp only [kept, outOf, List.filterMap_append, List.filterMap_cons, List.filterMap_nil,
        if_true, Function.update_self, group, Function.update_of_ne hi, Option.toList_none,
        List.append_nil]
      cases s.held x.key i <;> rfl
    · simp [kept, outOf, group, Function.update_of_ne hi]
  · have hk' : k ≠ x.key := fun heq => hk heq.symm
    unfold put
    split_ifs with hfull
    · simp [kept, outOf, hk, Function.update_of_ne hk']
    · simp [kept, outOf, Function.update_of_ne hk']

lemma kept_put_of_free (h : s.held x.key x.source = none) :
    (s.put x).kept x.source x.key = s.kept x.source x.key ++ [x.value] := by
  rw [kept_put_self, kept, h]
  simp

/-! ## Runs -/

/-- Put in one item after the other. -/
def run (s : Grouper ι κ δ) (xs : List (Item ι κ δ)) : Grouper ι κ δ := xs.foldl put s

/-- The items of a source under a key among those put in. -/
def itemsOf (xs : List (Item ι κ δ)) (i : ι) (k : κ) : List δ :=
  xs.filterMap fun x => if x.source = i ∧ x.key = k then some x.value else none

/-- No item is put in where one of its source is still held. -/
def Undisturbed (s : Grouper ι κ δ) : List (Item ι κ δ) → Prop
  | [] => True
  | x :: xs => s.held x.key x.source = none ∧ (s.put x).Undisturbed xs

omit [Fintype ι] in
lemma itemsOf_cons (xs : List (Item ι κ δ)) :
    itemsOf (x :: xs) i k =
      (if x.source = i ∧ x.key = k then [x.value] else []) ++ itemsOf xs i k := by
  unfold itemsOf
  rw [List.filterMap_cons]
  split_ifs <;> rfl

/-- What is kept grows by what is put in, if nothing is written over. -/
lemma Undisturbed.kept_run {xs : List (Item ι κ δ)} (h : s.Undisturbed xs) (i : ι) (k : κ) :
    (s.run xs).kept i k = s.kept i k ++ itemsOf xs i k := by
  induction xs generalizing s with
  | nil => simp [run, itemsOf]
  | cons x xs ih =>
      obtain ⟨hfree, hrest⟩ := h
      rw [run, List.foldl_cons, ← run, ih hrest, itemsOf_cons]
      by_cases hx : x.source = i ∧ x.key = k
      · obtain ⟨rfl, rfl⟩ := hx
        rw [kept_put_of_free hfree, if_pos ⟨rfl, rfl⟩, List.append_assoc]
      · rw [kept_put_of_ne hx, if_neg hx, List.nil_append]

/-- What is kept never grows by more. -/
lemma length_kept_run_le (xs : List (Item ι κ δ)) (i : ι) (k : κ) :
    ((s.run xs).kept i k).length ≤ (s.kept i k).length + (itemsOf xs i k).length := by
  induction xs generalizing s with
  | nil => exact Nat.le_add_right _ _
  | cons x xs ih =>
      rw [run, List.foldl_cons, ← run, itemsOf_cons]
      refine ih.trans ?_
      by_cases hx : x.source = i ∧ x.key = k
      · obtain ⟨rfl, rfl⟩ := hx
        rw [kept_put_self, if_pos ⟨rfl, rfl⟩, kept]
        simp only [List.length_append, List.length_singleton]
        omega
      · rw [kept_put_of_ne hx, if_neg hx, List.nil_append]

/-- An item that is written over is missing at the end. -/
lemma undisturbed_of_kept_run {xs : List (Item ι κ δ)}
    (h : ∀ i k, (s.run xs).kept i k = s.kept i k ++ itemsOf xs i k) : s.Undisturbed xs := by
  induction xs generalizing s with
  | nil => trivial
  | cons x xs ih =>
      have hfree : s.held x.key x.source = none := by
        by_contra hheld
        obtain ⟨d, hd⟩ := Option.ne_none_iff_exists'.mp hheld
        have hlen := congrArg List.length (h x.source x.key)
        have hle := length_kept_run_le (s := s.put x) xs x.source x.key
        rw [kept_put_self] at hle
        rw [run, List.foldl_cons, ← run, itemsOf_cons, if_pos ⟨rfl, rfl⟩, kept.eq_1 s, hd] at hlen
        simp only [List.length_append, List.length_singleton, Option.toList_some] at hlen hle
        omega
      refine ⟨hfree, ih fun i k => ?_⟩
      have hrun := h i k
      rw [run, List.foldl_cons, ← run, itemsOf_cons] at hrun
      rw [hrun]
      by_cases hx : x.source = i ∧ x.key = k
      · obtain ⟨rfl, rfl⟩ := hx
        rw [kept_put_of_free hfree, if_pos ⟨rfl, rfl⟩, List.append_assoc]
      · rw [kept_put_of_ne hx, if_neg hx, List.nil_append]

/-- Everything that was put in is kept exactly if nothing was written over. -/
lemma kept_run_iff (xs : List (Item ι κ δ)) :
    (∀ i k, (s.run xs).kept i k = s.kept i k ++ itemsOf xs i k) ↔ s.Undisturbed xs :=
  ⟨undisturbed_of_kept_run, Undisturbed.kept_run⟩

/-! ## What is written over

A group is put out with the last item of each round of its key, and in between the sources of the
items held are those of the round so far. -/

/-- The sources of the items under a key, in order. -/
def sourcesOf (xs : List (Item ι κ δ)) (k : κ) : List ι :=
  xs.filterMap fun x => if x.key = k then some x.source else none

omit [DecidableEq ι] [Fintype ι] in
lemma sourcesOf_concat (xs : List (Item ι κ δ)) (x : Item ι κ δ) (k : κ) :
    sourcesOf (xs ++ [x]) k =
      if x.key = k then sourcesOf xs k ++ [x.source] else sourcesOf xs k := by
  rw [sourcesOf, List.filterMap_append, ← sourcesOf, List.filterMap_cons, List.filterMap_nil]
  split_ifs with hk
  · rfl
  · exact List.append_nil _

lemma run_concat (xs : List (Item ι κ δ)) : s.run (xs ++ [x]) = (s.run xs).put x := by
  rw [run, List.foldl_append, List.foldl_cons, List.foldl_nil, run]

lemma undisturbed_concat (xs : List (Item ι κ δ)) :
    s.Undisturbed (xs ++ [x]) ↔ s.Undisturbed xs ∧ (s.run xs).held x.key x.source = none := by
  induction xs generalizing s with
  | nil => simp [Undisturbed, run]
  | cons y ys ih =>
      rw [List.cons_append, Undisturbed, Undisturbed, ih, and_assoc, run, run, List.foldl_cons]

/-- The sources of the items held are those of the rounds that are not complete. -/
def HoldsLast (s : Grouper ι κ δ) (xs : List (Item ι κ δ)) : Prop :=
  ∀ k i, (s.held k i).isSome ↔ i ∈ lastRound (sourcesOf xs k)

lemma HoldsLast.put {xs : List (Item ι κ δ)} (h : s.HoldsLast xs)
    (hround : InRounds (sourcesOf (xs ++ [x]) x.key)) : (s.put x).HoldsLast (xs ++ [x]) := by
  rw [sourcesOf_concat, if_pos rfl, inRounds_concat] at hround
  have hgroup : ∀ i, (s.group x i).isSome ↔ i ∈ lastRound (sourcesOf xs x.key) ++ [x.source] := by
    intro i
    rw [List.mem_append, List.mem_singleton, ← h]
    rcases eq_or_ne i x.source with rfl | hi
    · simp [group]
    · simp [group, hi]
  have hnodup : (lastRound (sourcesOf xs x.key) ++ [x.source]).Nodup := by
    rw [← List.concat_eq_append, List.nodup_concat]
    exact ⟨hround.2, hround.1 _⟩
  intro k i
  rw [sourcesOf_concat]
  by_cases hk : x.key = k
  · subst hk
    rw [if_pos rfl, lastRound_concat, Grouper.put]
    simp only [hgroup, forall_mem_iff_length hnodup]
    split_ifs with hfull
    · simp
    · rw [← hgroup]
      simp
  · have hk' : k ≠ x.key := fun heq => hk heq.symm
    rw [if_neg hk, ← h, Grouper.put]
    split_ifs <;> simp [Function.update_of_ne hk']

omit [DecidableEq ι] in
lemma inRounds_sourcesOf_concat (xs : List (Item ι κ δ)) (x : Item ι κ δ) :
    (∀ k, InRounds (sourcesOf (xs ++ [x]) k)) ↔
      (∀ k, InRounds (sourcesOf xs k)) ∧ x.source ∉ lastRound (sourcesOf xs x.key) := by
  constructor
  · intro h
    have hself := h x.key
    rw [sourcesOf_concat, if_pos rfl, inRounds_concat] at hself
    refine ⟨fun k => ?_, hself.2⟩
    by_cases hk : x.key = k
    · exact hk ▸ hself.1
    · have hother := h k
      rwa [sourcesOf_concat, if_neg hk] at hother
  · rintro ⟨h, hnew⟩ k
    rw [sourcesOf_concat]
    split_ifs with hk
    · subst hk
      exact (inRounds_concat _ _).mpr ⟨h _, hnew⟩
    · exact h k

/-- No item is written over exactly if no source comes twice in one round of a key. -/
lemma undisturbed_iff_inRounds (xs : List (Item ι κ δ)) :
    (empty : Grouper ι κ δ).Undisturbed xs ↔ ∀ k, InRounds (sourcesOf xs k) := by
  have hboth : ((empty : Grouper ι κ δ).Undisturbed xs ↔ ∀ k, InRounds (sourcesOf xs k)) ∧
      ((empty : Grouper ι κ δ).Undisturbed xs → (empty.run xs).HoldsLast xs) := by
    induction xs using List.reverseRecOn with
    | nil =>
        refine ⟨iff_of_true trivial fun k r => ?_, fun _ k i => ?_⟩
        · simp [sourcesOf, roundOf]
        · simp [sourcesOf, lastRound, roundOf, run, empty]
    | append_singleton xs x ih =>
        obtain ⟨hiff, hholds⟩ := ih
        have hstep : (empty : Grouper ι κ δ).Undisturbed (xs ++ [x]) ↔
            ∀ k, InRounds (sourcesOf (xs ++ [x]) k) := by
          rw [undisturbed_concat, inRounds_sourcesOf_concat, ← hiff]
          refine and_congr_right fun h => ?_
          rw [← hholds h, Option.not_isSome_iff_eq_none]
        refine ⟨hstep, fun h => ?_⟩
        rw [run_concat]
        exact (hholds ((undisturbed_concat xs).mp h).1).put (hstep.mp h _)
  exact hboth.1

end Grouper

end Grouping
