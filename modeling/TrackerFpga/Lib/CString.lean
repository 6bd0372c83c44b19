import Mathlib.Tactic.Common
import TrackerFpga.Lib.ByteCodec

/-!
# Strings of C

A C string is the list of its bytes in front of the terminating NUL.  The functions of `string.h`
and `stdlib.h` are given by what they return: `strncmp` is whether the result is `0`, `tokens` are
the strings that successive calls of `strtok` with a space return before `NULL`, and `strtol` is
the number and what the end pointer points at, for a `long` of 32 bits.
-/

namespace CString

open ByteCodec

/-- The bytes of a string literal. -/
def bytes (s : String) : List Byte := s.toList.map fun c => BitVec.ofNat 8 c.toNat

/-- The string at the start of a buffer. -/
def ofBuffer (buf : List Byte) : List Byte := buf.takeWhile fun b => b ≠ 0#8

/-- `strncmp(s, t, n) == 0`. -/
def strncmp : List Byte → List Byte → ℕ → Bool
  | _, _, 0 => true
  | [], [], _ + 1 => true
  | a :: s, b :: t, n + 1 => a == b && strncmp s t n
  | [], _ :: _, _ + 1 => false
  | _ :: _, [], _ + 1 => false

/-- The first `n` bytes are compared, or all where a string ends. -/
lemma strncmp_iff {s t : List Byte} {n : ℕ} : strncmp s t n = true ↔ s.take n = t.take n := by
  induction n generalizing s t with
  | zero => simp [strncmp]
  | succ n ih =>
      cases s with
      | nil => cases t <;> simp [strncmp]
      | cons a s =>
          cases t with
          | nil => simp [strncmp]
          | cons b t => simp [strncmp, ih]

/-- A word that is compared without its NUL. -/
lemma strncmp_length {word t : List Byte} : strncmp word t word.length = true ↔ word <+: t := by
  rw [strncmp_iff, List.take_length, List.prefix_iff_eq_take]

/-- A word that is compared with its NUL. -/
lemma strncmp_length_succ {word t : List Byte} :
    strncmp word t (word.length + 1) = true ↔ t = word := by
  rw [strncmp_iff, List.take_of_length_le (Nat.le_succ _)]
  constructor
  · intro h
    have hlen := congrArg List.length h
    rw [List.length_take] at hlen
    rw [h, List.take_of_length_le (by omega)]
  · rintro rfl
    rw [List.take_of_length_le (Nat.le_succ _)]

/-! ## `strtok` -/

/-- The tokens of a string at the spaces in it. -/
def tokens (s : List Byte) : List (List Byte) := (s.splitOn 32#8).filter fun t => t ≠ []

lemma ne_nil_of_mem_tokens {s t : List Byte} (h : t ∈ tokens s) : t ≠ [] :=
  of_decide_eq_true (List.mem_filter.mp h).2

lemma not_mem_of_mem_tokens {s t : List Byte} (h : t ∈ tokens s) : 32#8 ∉ t := by
  have hsplit : ∀ {s t : List Byte}, t ∈ s.splitOn 32#8 → 32#8 ∉ t := by
    intro s
    induction s with
    | nil => simp
    | cons b s ih =>
        intro t ht
        rw [List.splitOn_cons_eq_if_modifyHead] at ht
        split_ifs at ht with hb
        · rcases List.mem_cons.mp ht with rfl | ht
          · exact List.not_mem_nil
          · exact ih ht
        · obtain ⟨u, us, hus⟩ := List.exists_cons_of_ne_nil (List.splitOn_ne_nil 32#8 s)
          rw [hus] at ht ih
          rcases List.mem_cons.mp ht with rfl | ht
          · have hb' : b ≠ 32#8 := by simpa using hb
            exact List.not_mem_cons_of_ne_of_not_mem hb'.symm (ih List.mem_cons_self)
          · exact ih (List.mem_cons_of_mem u ht)
  exact hsplit (List.mem_filter.mp h).1

/-- The first token begins the string, if no space does. -/
lemma prefix_of_tokens {s word : List Byte} {ts : List (List Byte)} (h : tokens s = word :: ts)
    (hs : s.head? ≠ some 32#8) : word <+: s := by
  cases s with
  | nil => simp [tokens] at h
  | cons b s =>
      have hb : (b == 32#8) = false := by simpa using hs
      obtain ⟨u, us, hus⟩ := List.exists_cons_of_ne_nil (List.splitOn_ne_nil 32#8 s)
      rw [tokens, List.splitOn_cons_eq_if_modifyHead, hb, hus] at h
      obtain ⟨rfl, -⟩ : b :: u = word ∧ _ := by simpa using h
      have hjoin : [32#8].intercalate (s.splitOn 32#8) = s := List.intercalate_splitOn 32#8
      rw [hus] at hjoin
      rw [← hjoin]
      cases us with
      | nil => simp
      | cons v us => simp [List.intercalate_cons_cons]

/-! ## `strtol` -/

/-- `isspace`. -/
def isspace (b : Byte) : Bool := b = 32#8 || (9#8 ≤ b && b ≤ 13#8)

/-- The value of a digit or a letter, in bases up to 36. -/
def digitValue (b : Byte) : ℕ :=
  if 48#8 ≤ b ∧ b ≤ 57#8 then b.toNat - 48
  else if 65#8 ≤ b ∧ b ≤ 90#8 then b.toNat - 55
  else if 97#8 ≤ b ∧ b ≤ 122#8 then b.toNat - 87
  else 36

/-- A minus sign, if there is one, and what follows the sign. -/
def sign : List Byte → Bool × List Byte
  | [] => (false, [])
  | b :: s => if b = 45#8 then (true, s) else if b = 43#8 then (false, s) else (false, b :: s)

/-- `0x` in front of a hexadecimal digit. -/
def hexPrefix : List Byte → Bool
  | z :: x :: d :: _ => z = 48#8 && (x = 120#8 || x = 88#8) && digitValue d < 16
  | _ => false

/-- The base of the digits and the digits, if the base that is asked for is `0`. -/
def radix (s : List Byte) : ℕ × List Byte :=
  if hexPrefix s then (16, s.drop 2) else if s.head? = some 48#8 then (8, s) else (10, s)

/-- The nearest `long`. -/
def clampLong (n : ℤ) : ℤ := max (-2147483648) (min n 2147483647)

/-- `strtol(s, &chk, base)` for the bases `0` and `10`: the number, and the string at `chk`. -/
def strtol (base : ℕ) (s : List Byte) : ℤ × List Byte :=
  let r := sign (s.dropWhile isspace)
  let d := if base = 0 then radix r.2 else (base, r.2)
  let digits := d.2.takeWhile fun b => digitValue b < d.1
  if digits = [] then
    (0, s)
  else
    let n : ℤ := digits.foldl (fun n b => n * d.1 + digitValue b) 0
    (clampLong (if r.1 then -n else n), d.2.drop digits.length)

/-- `atoi(s)`. -/
def atoi (s : List Byte) : ℤ := (strtol 10 s).1

example : strtol 0 (bytes " -0x1Fz") = (-31, bytes "z") := by decide

example : tokens (bytes "vata  3 get-hold ") = [bytes "vata", bytes "3", bytes "get-hold"] := by
  decide

end CString
