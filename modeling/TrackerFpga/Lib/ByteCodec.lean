import Mathlib.Algebra.BigOperators.Group.List.Basic
import Mathlib.Tactic.Common
import Mathlib.Tactic.Ring

/-!
# Little-endian bytes and decoders

`encodeLE k n` is the `k` bytes of `n` in memory, the least significant first.  A `Decoder` reads
values from the front of a list of bytes, and `Reads d bytes a` says that it reads `a` from `bytes`
and nothing behind them, so that decoders compose as their bytes are appended: `reads_bind` for
one after the other, `reads_many` and `reads_each` for a list of them, `reads_isolate` for a field
of known size.
-/

namespace ByteCodec

/-- A byte. -/
abbrev Byte := BitVec 8

/-- The `k` bytes of `n`, the least significant first. -/
def encodeLE : ℕ → ℕ → List Byte
  | 0, _ => []
  | k + 1, n => BitVec.ofNat 8 n :: encodeLE k (n / 256)

/-- The number whose bytes these are. -/
def decodeLE : List Byte → ℕ
  | [] => 0
  | b :: bs => b.toNat + 256 * decodeLE bs

@[simp] lemma length_encodeLE (k n : ℕ) : (encodeLE k n).length = k := by
  induction k generalizing n with
  | zero => rfl
  | succ k ih => rw [encodeLE, List.length_cons, ih]

lemma decodeLE_encodeLE {k n : ℕ} (h : n < 256 ^ k) : decodeLE (encodeLE k n) = n := by
  induction k generalizing n with
  | zero => simpa [encodeLE, decodeLE, eq_comm] using h
  | succ k ih =>
      have hdiv : n / 256 < 256 ^ k := by
        rw [pow_succ'] at h
        exact Nat.div_lt_of_lt_mul h
      rw [encodeLE, decodeLE, ih hdiv, BitVec.toNat_ofNat]
      exact Nat.mod_add_div n 256

/-! ## Decoders -/

/-- A decoder takes bytes from the front of a list. -/
abbrev Decoder (α : Type) := StateT (List Byte) Option α

variable {α β γ : Type}

/-- The next `k` bytes. -/
def take (k : ℕ) : Decoder (List Byte) := fun bytes =>
  if k ≤ bytes.length then some (bytes.take k, bytes.drop k) else none

/-- The next `k` bytes as a word of `w` bits. -/
def word (w k : ℕ) : Decoder (BitVec w) := do
  let bytes ← take k
  pure (BitVec.ofNat w (decodeLE bytes))

/-- `k` values. -/
def many (d : Decoder α) : ℕ → Decoder (List α)
  | 0 => pure []
  | k + 1 => do
      let a ← d
      let as ← many d k
      pure (a :: as)

/-- One value for each element of a list. -/
def each (d : β → Decoder α) : List β → Decoder (List α)
  | [] => pure []
  | b :: bs => do
      let a ← d b
      let as ← each d bs
      pure (a :: as)

/-- The value that fills `bytes`. -/
def fill (d : Decoder α) (bytes : List Byte) : Decoder α :=
  match d bytes with
  | some (a, []) => pure a
  | _ => failure

/-- A value that fills the next `k` bytes. -/
def isolate (k : ℕ) (d : Decoder α) : Decoder α := do
  let bytes ← take k
  fill d bytes

/-- The decoder reads `a` from `bytes`, whatever follows them. -/
def Reads (d : Decoder α) (bytes : List Byte) (a : α) : Prop :=
  ∀ rest, d (bytes ++ rest) = some (a, rest)

lemma Reads.all {d : Decoder α} {bytes : List Byte} {a : α} (h : Reads d bytes a) :
    d bytes = some (a, []) := by
  have hnil := h []
  rwa [List.append_nil] at hnil

lemma reads_pure (a : α) : Reads (pure a) [] a := fun _ => rfl

lemma reads_bind {d : Decoder α} {f : α → Decoder β} {bytes bytes' : List Byte} {a : α} {b : β}
    (h : Reads d bytes a) (h' : Reads (f a) bytes' b) : Reads (d >>= f) (bytes ++ bytes') b := by
  intro rest
  have hrun : (d >>= f) (bytes ++ bytes' ++ rest) =
      (d (bytes ++ bytes' ++ rest)).bind fun r => f r.1 r.2 := rfl
  rw [hrun, List.append_assoc, h, Option.bind_some]
  exact h' rest

/-- The last step of a decoder changes the value only. -/
lemma reads_bind_pure {d : Decoder α} {f : α → β} {bytes : List Byte} {a : α}
    (h : Reads d bytes a) : Reads (d >>= fun a => pure (f a)) bytes (f a) := by
  have hbind := reads_bind (f := fun a => (pure (f a) : Decoder β)) h (reads_pure (f a))
  rwa [List.append_nil] at hbind

lemma reads_take (bytes : List Byte) : Reads (take bytes.length) bytes bytes := by
  intro rest
  rw [take, if_pos (by simp), List.take_left, List.drop_left]

lemma reads_word {w k : ℕ} (v : BitVec w) (hw : w ≤ 8 * k) :
    Reads (word w k) (encodeLE k v.toNat) v := by
  have hv : v.toNat < 256 ^ k := by
    calc v.toNat < 2 ^ w := v.isLt
      _ ≤ 2 ^ (8 * k) := Nat.pow_le_pow_right (by decide) hw
      _ = 256 ^ k := by rw [pow_mul, show 2 ^ 8 = 256 from rfl]
  have htake := reads_take (encodeLE k v.toNat)
  rw [length_encodeLE] at htake
  have hword := reads_bind_pure (f := fun bytes => BitVec.ofNat w (decodeLE bytes)) htake
  rwa [decodeLE_encodeLE hv, BitVec.ofNat_toNat, BitVec.setWidth_eq] at hword

lemma reads_each {d : β → Decoder α} {key : γ → β} {bytes : γ → List Byte} {val : γ → α}
    {l : List γ} (h : ∀ c ∈ l, Reads (d (key c)) (bytes c) (val c)) :
    Reads (each d (l.map key)) (l.flatMap bytes) (l.map val) := by
  induction l with
  | nil => exact reads_pure []
  | cons c l ih =>
      rw [List.flatMap_cons]
      exact reads_bind (h c (by simp))
        (reads_bind_pure (f := fun as => val c :: as) (ih fun c' hc' => h c' (by simp [hc'])))

lemma reads_many {d : Decoder α} {bytes : γ → List Byte} {val : γ → α} {l : List γ}
    (h : ∀ c ∈ l, Reads d (bytes c) (val c)) :
    Reads (many d l.length) (l.flatMap bytes) (l.map val) := by
  induction l with
  | nil => exact reads_pure []
  | cons c l ih =>
      rw [List.flatMap_cons]
      exact reads_bind (h c (by simp))
        (reads_bind_pure (f := fun as => val c :: as) (ih fun c' hc' => h c' (by simp [hc'])))

lemma reads_isolate {d : Decoder α} {bytes : List Byte} {a : α} (h : Reads d bytes a) :
    Reads (isolate bytes.length d) bytes a := by
  have hfill : Reads (fill d bytes) [] a := by
    rw [fill, h.all]
    exact reads_pure a
  have hbind := reads_bind (reads_take bytes) hfill
  rwa [List.append_nil] at hbind

end ByteCodec
