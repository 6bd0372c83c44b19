import Mathlib.Data.List.TakeWhile
import TrackerFpga.Lib.CString

/-!
# Numbers in strings of C

A string is a number if all of it is: white space, a sign, and decimal digits, octal digits behind
a `0` or hexadecimal digits behind `0x` (`number`).  `strtol` with base `0` reads to the end of
exactly these strings, and returns the nearest `long` (`strtol_of_number`, `strtol_of_not_number`).
`atoi` takes any string, and returns what its decimal digits stand for up to the first byte that
is none (`atoi_eq`).
-/

namespace CString

open ByteCodec

/-- What digits stand for. -/
def ofDigits (base : ℕ) (ds : List Byte) : ℕ := ds.foldl (fun n b => n * base + digitValue b) 0

/-- The digits are of this base, and there are some. -/
def AreDigits (base : ℕ) (ds : List Byte) : Prop := ds ≠ [] ∧ ∀ b ∈ ds, digitValue b < base

instance (base : ℕ) (ds : List Byte) : Decidable (AreDigits base ds) :=
  inferInstanceAs (Decidable (ds ≠ [] ∧ ∀ b ∈ ds, digitValue b < base))

/-- A number without a sign. -/
def natural (s : List Byte) : Option ℕ :=
  if s.take 2 = bytes "0x" ∨ s.take 2 = bytes "0X" then
    if AreDigits 16 (s.drop 2) then some (ofDigits 16 (s.drop 2)) else none
  else if s.head? = some 48#8 then
    if AreDigits 8 s then some (ofDigits 8 s) else none
  else
    if AreDigits 10 s then some (ofDigits 10 s) else none

/-- What follows a sign. -/
def signed (neg : Bool) (n : ℕ) : ℤ := if neg then -n else n

/-- The number that a whole string is. -/
def number (s : List Byte) : Option ℤ :=
  (natural (sign (s.dropWhile isspace)).2).map (signed (sign (s.dropWhile isspace)).1)

/-- The number of the decimal digits in front of a string, which is `0` if there are none. -/
def decimalPart (s : List Byte) : ℤ :=
  signed (sign (s.dropWhile isspace)).1
    (ofDigits 10 ((sign (s.dropWhile isspace)).2.takeWhile fun b => digitValue b < 10))

/-! ## `strtol` -/

section Strtol

variable {s u ds : List Byte} {base : ℕ} {n : ℤ}

lemma takeWhile_of_areDigits (h : AreDigits base ds) :
    (ds.takeWhile fun b => digitValue b < base) = ds :=
  List.takeWhile_eq_self_iff.mpr fun b hb => decide_eq_true (h.2 b hb)

/-- What follows digits of the base, if they are not all of the string. -/
lemma drop_ne_nil_of_not_areDigits (hne : (ds.takeWhile fun b => digitValue b < base) ≠ [])
    (h : ¬ AreDigits base ds) :
    ds.drop (ds.takeWhile fun b => digitValue b < base).length ≠ [] := by
  intro hdrop
  have hall : (ds.takeWhile fun b => digitValue b < base) = ds :=
    (List.takeWhile_prefix _).eq_of_length_le (List.drop_eq_nil_iff.mp hdrop)
  refine h ⟨fun hnil => hne (by rw [hnil]; rfl), fun b hb => ?_⟩
  exact of_decide_eq_true (List.takeWhile_eq_self_iff.mp hall b hb)

/-- The mark of a hexadecimal number. -/
lemma exists_of_mark (h : s.take 2 = bytes "0x" ∨ s.take 2 = bytes "0X") :
    ∃ x ds, s = 48#8 :: x :: ds ∧ (x = 120#8 ∨ x = 88#8) := by
  rcases s with - | ⟨z, - | ⟨x, ds⟩⟩
  · exact absurd h (by decide)
  · exact absurd h (by simp [bytes])
  · rcases h with h | h
    · obtain ⟨rfl, rfl⟩ : z = 48#8 ∧ x = 120#8 := by simpa [bytes] using h
      exact ⟨_, ds, rfl, .inl rfl⟩
    · obtain ⟨rfl, rfl⟩ : z = 48#8 ∧ x = 88#8 := by simpa [bytes] using h
      exact ⟨_, ds, rfl, .inr rfl⟩

lemma hexPrefix_of_not_mark (h : ¬ (s.take 2 = bytes "0x" ∨ s.take 2 = bytes "0X")) :
    hexPrefix s = false := by
  rcases s with - | ⟨z, - | ⟨x, - | ⟨d, ds⟩⟩⟩
  · rfl
  · rfl
  · rfl
  · rw [hexPrefix, ← Bool.not_eq_true]
    intro hprefix
    simp only [Bool.and_eq_true, Bool.or_eq_true, decide_eq_true_eq] at hprefix
    obtain ⟨⟨rfl, rfl | rfl⟩, -⟩ := hprefix
    · exact h (.inl rfl)
    · exact h (.inr rfl)

/-- `strtol` looks at the first digit behind `0x` before it takes the base to be `16`. -/
lemma natural_eq (s : List Byte) :
    natural s =
      if AreDigits (radix s).1 (radix s).2 then some (ofDigits (radix s).1 (radix s).2)
      else none := by
  by_cases hmark : s.take 2 = bytes "0x" ∨ s.take 2 = bytes "0X"
  · rw [natural, if_pos hmark]
    by_cases hprefix : hexPrefix s = true
    · rw [radix, if_pos hprefix]
    · obtain ⟨x, ds, rfl, hx⟩ := exists_of_mark hmark
      have hhex : ¬ AreDigits 16 ds := by
        rintro ⟨hne, hall⟩
        cases ds with
        | nil => exact hne rfl
        | cons d ds =>
            have hd : digitValue d < 16 := hall d List.mem_cons_self
            exact hprefix (by simp [hexPrefix, hd, hx])
      -- the mark itself is not an octal digit
      have hoctal : ¬ AreDigits 8 (48#8 :: x :: ds) := by
        rintro ⟨-, hall⟩
        have hvalue := hall x (by simp)
        rcases hx with rfl | rfl
        · exact absurd hvalue (by decide)
        · exact absurd hvalue (by decide)
      have hradix : radix (48#8 :: x :: ds) = (8, 48#8 :: x :: ds) := by
        rw [radix, if_neg hprefix]
        rfl
      rw [hradix, List.drop_succ_cons, List.drop_succ_cons, List.drop_zero, if_neg hhex,
        if_neg hoctal]
  · have hprefix : ¬ hexPrefix s = true := by
      rw [hexPrefix_of_not_mark hmark]
      exact Bool.false_ne_true
    rw [natural, if_neg hmark, radix, if_neg hprefix]
    split_ifs <;> rfl

/-- What `strtol` reads, and where it stops. -/
lemma strtol_eq (base : ℕ) (s : List Byte) : strtol base s =
    let r := sign (s.dropWhile isspace)
    let d := if base = 0 then radix r.2 else (base, r.2)
    let ds := d.2.takeWhile fun b => digitValue b < d.1
    if ds = [] then (0, s)
    else (clampLong (signed r.1 (ofDigits d.1 ds)), d.2.drop ds.length) := by
  have hcast : ∀ (base : ℕ) (ds : List Byte) (k : ℕ),
      ds.foldl (fun (n : ℤ) b => n * base + digitValue b) k =
        (ds.foldl (fun n b => n * base + digitValue b) k : ℕ) := by
    intro base ds
    induction ds with
    | nil => exact fun _ => rfl
    | cons b ds ih =>
        intro k
        rw [List.foldl_cons, List.foldl_cons, ← ih]
        push_cast
        rfl
  have hzero := fun base ds => hcast base ds 0
  simp only [Nat.cast_zero] at hzero
  simp only [strtol, hzero, ofDigits, signed]

/-- **A number is read.** -/
lemma strtol_of_number (h : number s = some n) : strtol 0 s = (clampLong n, []) := by
  obtain ⟨k, hk, rfl⟩ := Option.map_eq_some_iff.mp h
  rw [natural_eq] at hk
  split_ifs at hk with hdigits
  obtain rfl := Option.some.inj hk
  rw [strtol_eq]
  simp only [if_true]
  rw [takeWhile_of_areDigits hdigits, if_neg hdigits.1, List.drop_length]

/-- **Anything else is not read to its end.** -/
lemma strtol_of_not_number (hs : s ≠ []) (h : number s = none) : (strtol 0 s).2 ≠ [] := by
  have hnatural := Option.map_eq_none_iff.mp h
  rw [natural_eq] at hnatural
  split_ifs at hnatural with hdigits
  rw [strtol_eq]
  simp only [if_true]
  split_ifs with hnil
  · exact hs
  · exact drop_ne_nil_of_not_areDigits hnil hdigits

/-- What `strtol` does not read ends the string. -/
lemma strtol_suffix (s : List Byte) : (strtol 0 s).2 <:+ s := by
  have hsign : ∀ u, (sign u).2 <:+ u := by
    intro u
    cases u with
    | nil => exact List.suffix_refl _
    | cons b u =>
        simp only [sign]
        split_ifs
        · exact List.suffix_cons b u
        · exact List.suffix_cons b u
        · exact List.suffix_refl _
  have hradix : ∀ u, (radix u).2 <:+ u := by
    intro u
    unfold radix
    split_ifs
    · exact List.drop_suffix 2 u
    · exact List.suffix_refl _
    · exact List.suffix_refl _
  rw [strtol_eq]
  simp only [if_true]
  split_ifs
  · exact List.suffix_refl _
  · exact (List.drop_suffix _ _).trans ((hradix _).trans
      ((hsign _).trans (List.dropWhile_suffix _)))

/-- The result is a `long`. -/
lemma strtol_bounds (base : ℕ) (s : List Byte) :
    -2147483648 ≤ (strtol base s).1 ∧ (strtol base s).1 ≤ 2147483647 := by
  have hclamp : ∀ n, -2147483648 ≤ clampLong n ∧ clampLong n ≤ 2147483647 := fun n => by
    rw [clampLong]
    omega
  have hzero : (-2147483648 : ℤ) ≤ 0 ∧ (0 : ℤ) ≤ 2147483647 := by decide
  rw [strtol_eq base]
  dsimp only
  split_ifs
  · exact hzero
  · exact hclamp _
  · exact hzero
  · exact hclamp _

end Strtol

/-- `atoi` reads the decimal digits in front, whatever follows. -/
lemma atoi_eq (s : List Byte) : atoi s = clampLong (decimalPart s) := by
  have hten : ¬ (10 : ℕ) = 0 := by decide
  rw [atoi, strtol_eq]
  simp only [hten, if_false]
  split_ifs with hnil
  · rw [decimalPart, hnil]
    cases (sign (s.dropWhile isspace)).1 <;> rfl
  · rfl

example : number (bytes "0x1F") = some 31 ∧ number (bytes "-017") = some (-15) ∧
    number (bytes "09") = none ∧ number (bytes "12a") = none := by decide

example : decimalPart (bytes "12a") = 12 ∧ decimalPart (bytes "0x1F") = 0 := by decide

end CString
