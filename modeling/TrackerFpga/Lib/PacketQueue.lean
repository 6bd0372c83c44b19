import Mathlib.Algebra.BigOperators.Group.List.Basic
import Mathlib.Data.List.Basic
import Mathlib.Order.Monotone.Basic
import Mathlib.Tactic.Ring

/-!
# Queues of packets read word by word

A queue is given by its history: the packets that have arrived, oldest first, and the number of
words read so far.  `unread` is what is left in it, the packet at the head less its words already
read, and `wordsBefore ps k` is the number of words in front of packet `k`.

New packets go to the end, so they move neither the packets in front of them
(`wordsBefore_of_isPrefix`) nor what is left of the packet at the head (`unread_wordsBefore_add`),
wherever the reader is (`unread_of_isPrefix`).
-/

namespace PacketQueue

variable {α : Type} {ps qs : List (List α)} {p : List α} {k n : ℕ}

/-- The number of words in front of packet `k`. -/
def wordsBefore (ps : List (List α)) (k : ℕ) : ℕ := ((ps.take k).map List.length).sum

/-- The number of words that have arrived. -/
def words (ps : List (List α)) : ℕ := wordsBefore ps ps.length

/-- What is left after `n` words have been read. -/
def unread : List (List α) → ℕ → List (List α)
  | [], _ => []
  | p :: ps, n => if n < p.length then p.drop n :: ps else unread ps (n - p.length)

@[simp] lemma wordsBefore_zero : wordsBefore ps 0 = 0 := rfl

@[simp] lemma wordsBefore_cons_succ :
    wordsBefore (p :: ps) (k + 1) = p.length + wordsBefore ps k := by
  simp [wordsBefore]

lemma wordsBefore_succ (h : ps[k]? = some p) :
    wordsBefore ps (k + 1) = wordsBefore ps k + p.length := by
  rw [wordsBefore, wordsBefore, List.take_add_one, h]
  simp

lemma wordsBefore_of_isPrefix (h : ps <+: qs) (hk : k ≤ ps.length) :
    wordsBefore qs k = wordsBefore ps k := by
  obtain ⟨rest, rfl⟩ := h
  rw [wordsBefore, List.take_append_of_le_length hk, wordsBefore]

lemma getElem?_of_isPrefix (h : ps <+: qs) (hp : ps[k]? = some p) : qs[k]? = some p := by
  obtain ⟨rest, rfl⟩ := h
  obtain ⟨hk, rfl⟩ := List.getElem?_eq_some_iff.mp hp
  rw [List.getElem?_append_left hk, List.getElem?_eq_getElem hk]

lemma wordsBefore_mono : Monotone (wordsBefore ps) := by
  refine monotone_nat_of_le_succ fun k => ?_
  rcases h : ps[k]? with - | p
  · have hlen := List.getElem?_eq_none_iff.mp h
    rw [wordsBefore, wordsBefore, List.take_of_length_le hlen, List.take_of_length_le (by omega)]
  · rw [wordsBefore_succ h]
    exact Nat.le_add_right _ _

/-- Packets with words start at different places. -/
lemma eq_of_wordsBefore_eq (hne : ∀ p ∈ ps, p ≠ []) {j : ℕ} (hj : j < ps.length)
    (hk : k < ps.length) (h : wordsBefore ps j = wordsBefore ps k) : j = k := by
  have hlt : ∀ {i l : ℕ}, i < ps.length → i < l → wordsBefore ps i < wordsBefore ps l := by
    intro i l hi hil
    have hpos := List.length_pos_of_ne_nil (hne _ (List.getElem_mem hi))
    calc wordsBefore ps i < wordsBefore ps i + ps[i].length := by omega
      _ = wordsBefore ps (i + 1) := (wordsBefore_succ (List.getElem?_eq_getElem hi)).symm
      _ ≤ wordsBefore ps l := wordsBefore_mono hil
  rcases Nat.lt_trichotomy j k with hjk | rfl | hkj
  · exact absurd h (hlt hj hjk).ne
  · rfl
  · exact absurd h (hlt hk hkj).ne'

/-- Packets of one length start at the multiples of it. -/
lemma wordsBefore_eq_mul {m : ℕ} (hk : k ≤ ps.length)
    (h : ∀ j < k, ∃ p, ps[j]? = some p ∧ p.length = m) : wordsBefore ps k = m * k := by
  induction k with
  | zero => simp
  | succ k ih =>
      obtain ⟨p, hp, hlen⟩ := h k (by omega)
      rw [wordsBefore_succ hp, ih (by omega) fun j hj => h j (by omega), hlen, Nat.mul_succ]

/-- What is left inside packet `k`. -/
lemma unread_wordsBefore_add (hp : ps[k]? = some p) (hn : n < p.length) :
    unread ps (wordsBefore ps k + n) = p.drop n :: ps.drop (k + 1) := by
  induction ps generalizing k with
  | nil => simp at hp
  | cons q ps ih =>
      cases k with
      | zero =>
          obtain rfl : q = p := by simpa using hp
          simp [unread, hn]
      | succ k =>
          have hskip : ¬ q.length + wordsBefore ps k + n < q.length := by omega
          have hrest : q.length + wordsBefore ps k + n - q.length = wordsBefore ps k + n := by omega
          rw [wordsBefore_cons_succ, unread, if_neg hskip, hrest, ih (by simpa using hp)]
          simp

lemma words_cons : words (p :: ps) = p.length + words ps := wordsBefore_cons_succ

lemma unread_words : unread ps (words ps) = [] := by
  induction ps with
  | nil => rfl
  | cons p ps ih => rw [words_cons, unread, if_neg (by omega), Nat.add_sub_cancel_left, ih]

/-! ## From any position -/

lemma unread_zero (hne : ∀ p ∈ ps, p ≠ []) : unread ps 0 = ps := by
  cases ps with
  | nil => rfl
  | cons p ps =>
      have hpos := List.length_pos_of_ne_nil (hne p List.mem_cons_self)
      rw [unread, if_pos hpos, List.drop_zero]

lemma words_eq_sum : words ps = (ps.map List.length).sum := by
  rw [words, wordsBefore, List.take_length]

lemma words_append : words (ps ++ qs) = words ps + words qs := by
  simp [words_eq_sum]

lemma words_le_of_isPrefix (h : ps <+: qs) : words ps ≤ words qs := by
  obtain ⟨rest, rfl⟩ := h
  rw [words_append]
  exact Nat.le_add_right _ _

/-- What arrives is left behind what was left. -/
lemma unread_append (hne : ∀ p ∈ qs, p ≠ []) (hn : n ≤ words ps) :
    unread (ps ++ qs) n = unread ps n ++ qs := by
  induction ps generalizing n with
  | nil =>
      obtain rfl : n = 0 := Nat.le_zero.mp hn
      exact unread_zero hne
  | cons p ps ih =>
      rw [words_cons] at hn
      rw [List.cons_append, unread, unread]
      split_ifs
      · rfl
      · exact ih (by omega)

lemma unread_of_isPrefix (h : ps <+: qs) (hne : ∀ p ∈ qs, p ≠ []) (hn : n ≤ words ps) :
    unread qs n = unread ps n ++ qs.drop ps.length := by
  obtain ⟨rest, rfl⟩ := h
  rw [List.drop_left, unread_append (fun p hp => hne p (List.mem_append_right ps hp)) hn]

/-- Inside the packet at the head. -/
lemma unread_add (h : unread ps n = p :: qs) (hk : k < p.length) :
    unread ps (n + k) = p.drop k :: qs := by
  induction ps generalizing n with
  | nil => simp [unread] at h
  | cons q ps ih =>
      rw [unread] at h ⊢
      split_ifs at h with hlt
      · obtain ⟨rfl, rfl⟩ : q.drop n = p ∧ ps = qs := by simpa using h
        rw [List.length_drop] at hk
        rw [if_pos (by omega), List.drop_drop]
      · rw [if_neg (by omega), show n + k - q.length = n - q.length + k by omega]
        exact ih h

/-- Behind it. -/
lemma unread_add_length (hne : ∀ p ∈ ps, p ≠ []) (h : unread ps n = p :: qs) :
    unread ps (n + p.length) = qs := by
  induction ps generalizing n with
  | nil => simp [unread] at h
  | cons q ps ih =>
      have hrest : ∀ r ∈ ps, r ≠ [] := fun r hr => hne r (List.mem_cons_of_mem q hr)
      rw [unread] at h ⊢
      split_ifs at h with hlt
      · obtain ⟨rfl, rfl⟩ : q.drop n = p ∧ ps = qs := by simpa using h
        rw [List.length_drop, if_neg (by omega),
          show n + (q.length - n) - q.length = 0 by omega]
        exact unread_zero hrest
      · rw [if_neg (by omega), show n + p.length - q.length = n - q.length + p.length by omega]
        exact ih hrest h

lemma ne_nil_of_unread (h : unread ps n = p :: qs) : p ≠ [] := by
  induction ps generalizing n with
  | nil => simp [unread] at h
  | cons q ps ih =>
      rw [unread] at h
      split_ifs at h with hlt
      · obtain ⟨rfl, -⟩ : q.drop n = p ∧ ps = qs := by simpa using h
        exact List.ne_nil_of_length_pos (by rw [List.length_drop]; omega)
      · exact ih h

/-- The words that are left. -/
lemma sum_length_unread (hn : n ≤ words ps) :
    ((unread ps n).map List.length).sum = words ps - n := by
  induction ps generalizing n with
  | nil => simp [unread, words]
  | cons p ps ih =>
      rw [words_cons] at hn ⊢
      rw [unread]
      split_ifs with hlt
      · rw [List.map_cons, List.sum_cons, List.length_drop, ← words_eq_sum]
        omega
      · rw [ih (by omega)]
        omega

end PacketQueue
