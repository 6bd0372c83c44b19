import TrackerFpga.Lib.Interaction
import TrackerFpga.Lib.RegisterFile

/-!
# The bus between the software and a core

The control classes of `silayer-lib` all talk to their cores in the same way: stores to `paxi[i]`,
loads from it, and `usleep`.  A method of one is a program over these accesses (`Driver`).  A `Bus`
is what a run of a core looks like to it: which write, and which read with which result, the
registers perform in each cycle.  `Bus.env` says what the accesses of a driver are in such a run.
No other write reaches the core while a driver runs.

A store of the software is one of a whole word.  Where a core looks at the address and at the data
itself, the writes that count are those (`Bus.ofWords`).

A `u64` in the register file is read as two words, in an order that the compiler chooses
(`readU64`).
-/

namespace TrackerFpga.Mapped

open AxiLite Interaction

/-! ## Accesses and drivers -/

/-- What a driver does to the mapped registers, and waiting. -/
inductive Access
  | write (i : ℕ) (v : BitVec 32)
  | read (i : ℕ)
  | usleep (us : ℕ)
  deriving DecidableEq

/-- What an access returns. -/
def Access.Answer : Access → Type
  | .write _ _ => Unit
  | .read _ => BitVec 32
  | .usleep _ => Unit

/-- A program over accesses. -/
abbrev Driver := Program Access Access.Answer

namespace Driver

/-- `p[i] = v`. -/
def write (i : ℕ) (v : BitVec 32) : Driver Unit := Program.perform (Access.write i v)

/-- `p[i]`. -/
def read (i : ℕ) : Driver (BitVec 32) := Program.perform (Access.read i)

/-- `usleep(us)`. -/
def usleep (us : ℕ) : Driver Unit := Program.perform (Access.usleep us)

/-- `for (int i=0; i<n; i++)`. -/
def forEach (body : ℕ → Driver Unit) : ℕ → Driver Unit
  | 0 => pure ()
  | n + 1 => do
      forEach body n
      body n

/-- `for (int i=0; i<n; i++) data[i] = ...`: the data read. -/
def collect (body : ℕ → Driver (BitVec 32)) : ℕ → Driver (List (BitVec 32))
  | 0 => pure []
  | n + 1 => do
      let data ← collect body n
      let v ← body n
      pure (data ++ [v])

end Driver

/-! ## The bus -/

/-- What the software sees of a run of a core. -/
structure Bus where
  /-- A write of a word to a register is performed in a cycle. -/
  Writes : ℕ → ℕ → BitVec 32 → Prop
  /-- A read of a register is performed in a cycle, and returns a word. -/
  Reads : ℕ → ℕ → BitVec 32 → Prop
  /-- No write is performed in a cycle. -/
  NoWrite : ℕ → Prop
  /-- The clock cycles in a microsecond. -/
  cyclesPerUs : ℕ

namespace Bus

variable {B : Bus} {t t' u : ℕ}

/-- The bus of a register file. -/
def ofRegisterFile {b : ℕ} (s : ℕ → RegisterFile b) (m : ℕ → Master (b + 2))
    (cyclesPerUs : ℕ) : Bus where
  Writes t k v := ∃ h : k < 2 ^ b, (s t).written (m t) = some (⟨k, h⟩, v)
  Reads t k v := ∃ h : k < 2 ^ b, (s t).read (m t) = some ⟨k, h⟩ ∧ (s (t + 1)).axiRdata = v
  NoWrite t := (s t).written (m t) = none
  cyclesPerUs := cyclesPerUs

/-- The same bus, of whose writes only those count that are `P`. -/
def restrict (B : Bus) (P : ℕ → ℕ → BitVec 32 → Prop) : Bus :=
  { B with Writes := fun t k v => B.Writes t k v ∧ P t k v }

/-- The bus of a register file, with the stores of whole words as its writes. -/
def ofWords {b : ℕ} (s : ℕ → RegisterFile b) (m : ℕ → Master (b + 2)) (cyclesPerUs : ℕ) : Bus :=
  (ofRegisterFile s m cyclesPerUs).restrict fun t k v => StoresWord (m t) k v

section RegisterFile

variable {b k : ℕ} {s : ℕ → RegisterFile b} {m : ℕ → Master (b + 2)} {p : ℕ} {v : BitVec 32}
  {axi : Slave (b + 2)} {out : Fin (2 ^ b) → BitVec 32}

/-- A read takes what the core shows. -/
lemma data_of_reads (hnext : s (t + 1) = (s t).advance axi (m t) out)
    (h : (ofRegisterFile s m p).Reads t k v) : ∃ hk : k < 2 ^ b, v = out ⟨k, hk⟩ := by
  obtain ⟨hk, hread, rfl⟩ := h
  rw [hnext]
  exact ⟨hk, RegisterFile.axiRdata_of_read _ _ _ hread⟩

lemma slvReg_of_writes (hnext : s (t + 1) = (s t).advance axi (m t) out)
    (h : (ofRegisterFile s m p).Writes t k v) :
    ∃ hk : k < 2 ^ b, (s (t + 1)).slvReg = Function.update (s t).slvReg ⟨k, hk⟩ v := by
  obtain ⟨hk, hwritten⟩ := h
  rw [hnext]
  exact ⟨hk, RegisterFile.slvReg_of_written _ _ _ hwritten⟩

lemma slvReg_of_noWrite (hnext : s (t + 1) = (s t).advance axi (m t) out)
    (h : (ofRegisterFile s m p).NoWrite t) : (s (t + 1)).slvReg = (s t).slvReg := by
  rw [hnext]
  exact RegisterFile.slvReg_of_not_written _ _ _ h

/-- One write is performed in a cycle. -/
lemma writes_unique {j : ℕ} {w : BitVec 32} (h : (ofRegisterFile s m p).Writes t k v)
    (h' : (ofRegisterFile s m p).Writes t j w) : k = j ∧ v = w := by
  obtain ⟨hk, hwritten⟩ := h
  obtain ⟨hj, hwritten'⟩ := h'
  rw [hwritten] at hwritten'
  obtain ⟨hreg, hword⟩ := Prod.mk.inj (Option.some.inj hwritten')
  exact ⟨congrArg Fin.val hreg, hword⟩

lemma not_writes_of_noWrite (h : (ofRegisterFile s m p).NoWrite t) :
    ¬ (ofRegisterFile s m p).Writes t k v := by
  rintro ⟨hk, hwritten⟩
  have hnone : (s t).written (m t) = none := h
  rw [hnone] at hwritten
  exact absurd hwritten (by simp)

/-- A register keeps its value in a cycle without a write to it. -/
lemma slvReg_of_not_writes {hk : k < 2 ^ b} (hnext : s (t + 1) = (s t).advance axi (m t) out)
    (h : ∀ v, ¬ (ofRegisterFile s m p).Writes t k v) :
    (s (t + 1)).slvReg ⟨k, hk⟩ = (s t).slvReg ⟨k, hk⟩ := by
  cases hwritten : (s t).written (m t) with
  | none => rw [slvReg_of_noWrite (p := p) hnext hwritten]
  | some write =>
      obtain ⟨j, v⟩ := write
      have hwrites : (ofRegisterFile s m p).Writes t j v := ⟨j.isLt, hwritten⟩
      have hne : (⟨k, hk⟩ : Fin (2 ^ b)) ≠ j := by
        rintro rfl
        exact h v hwrites
      obtain ⟨hj, hnew⟩ := slvReg_of_writes hnext hwrites
      rw [hnew, Function.update_of_ne hne]

/-- A register keeps its value as long as there is no write to it. -/
lemma slvReg_of_never_writes {hk : k < 2 ^ b}
    (hnext : ∀ t, ∃ axi out, s (t + 1) = (s t).advance axi (m t) out) (htu : t ≤ u)
    (h : ∀ x, t ≤ x → x < u → ∀ v, ¬ (ofRegisterFile s m p).Writes x k v) :
    (s u).slvReg ⟨k, hk⟩ = (s t).slvReg ⟨k, hk⟩ := by
  induction u, htu using Nat.le_induction with
  | base => rfl
  | succ u htu ih =>
      obtain ⟨axi, out, hstep⟩ := hnext u
      rw [slvReg_of_not_writes hstep (h u htu (Nat.lt_succ_self u)),
        ih fun x hx hxu => h x hx (hxu.trans (Nat.lt_succ_self u))]

end RegisterFile

/-- No write is performed from cycle `t` on and before cycle `u`. -/
def NoWrites (B : Bus) (t u : ℕ) : Prop := ∀ x, t ≤ x → x < u → B.NoWrite x

section RegisterFile

variable {b k x p : ℕ} {s : ℕ → RegisterFile b} {m : ℕ → Master (b + 2)} {v : BitVec 32}
  (hnext : ∀ t, ∃ axi out, s (t + 1) = (s t).advance axi (m t) out)
include hnext

lemma slvReg_of_noWrites (hno : (ofRegisterFile s m p).NoWrites t u) (htx : t ≤ x) (hxu : x ≤ u) :
    (s x).slvReg = (s t).slvReg := by
  refine Clocked.invariant_between (P := fun y => (s y).slvReg = (s t).slvReg) (b := u) rfl
    (fun y hy hyu hsame => ?_) htx hxu
  obtain ⟨axi, out, hstep⟩ := hnext y
  exact (slvReg_of_noWrite hstep (hno y hy hyu)).trans hsame

/-- The registers after a write, up to the next one. -/
lemma slvReg_after_write (hk : k < 2 ^ b) (hw : (ofRegisterFile s m p).Writes u k v)
    (hno : (ofRegisterFile s m p).NoWrites (u + 1) t) (hux : u < x) (hxt : x ≤ t) :
    (s x).slvReg = Function.update (s u).slvReg ⟨k, hk⟩ v := by
  obtain ⟨axi, out, hstep⟩ := hnext u
  obtain ⟨_, hnew⟩ := slvReg_of_writes hstep hw
  exact (slvReg_of_noWrites hnext hno hux hxt).trans hnew

end RegisterFile

/-- What an access is that begins in cycle `t` and has ended in cycle `t'`. -/
def env (B : Bus) : Env Access Access.Answer ℕ
  | .write i v, t, _, t' => ∃ u, t ≤ u ∧ B.NoWrites t u ∧ B.Writes u i v ∧ t' = u + 1
  | .read i, t, v, t' => ∃ u, t ≤ u ∧ B.NoWrites t (u + 1) ∧ B.Reads u i v ∧ t' = u + 1
  | .usleep us, t, _, t' => t + B.cyclesPerUs * us ≤ t' ∧ B.NoWrites t t'

section Restrict

variable {P : ℕ → ℕ → BitVec 32 → Prop} {α : Type} {p : Driver α} {a : α}

lemma exec_restrict (hP : ∀ x k v, B.Writes x k v → P x k v) (h : Exec B.env p t a t') :
    Exec (B.restrict P).env p t a t' := by
  refine h.map id fun o x ans x' hcall => ?_
  cases o with
  | write i v =>
      obtain ⟨u, hu, hno, hwrite, rfl⟩ := hcall
      exact ⟨u, hu, hno, ⟨hwrite, hP _ _ _ hwrite⟩, rfl⟩
  | read i => exact hcall
  | usleep us => exact hcall

end Restrict

/-- A driver does not go back in time. -/
lemma le_of_exec {α : Type} {p : Driver α} {a : α} (h : Exec B.env p t a t') : t ≤ t' := by
  induction h with
  | done a t => exact le_rfl
  | @call o next s s' s'' ans a hcall hnext ih =>
      have hle : s ≤ s' := by
        cases o with
        | write i v =>
            obtain ⟨u, hu, -, -, rfl⟩ := hcall
            exact hu.trans (Nat.le_succ u)
        | read i =>
            obtain ⟨u, hu, -, -, rfl⟩ := hcall
            exact hu.trans (Nat.le_succ u)
        | usleep us => exact (Nat.le_add_right _ _).trans hcall.1
      exact hle.trans ih

lemma NoWrites.mono {t₁ u₁ : ℕ} (h : B.NoWrites t u) (ht : t ≤ t₁) (hu : u₁ ≤ u) :
    B.NoWrites t₁ u₁ := fun x hx hxu => h x (ht.trans hx) (hxu.trans_le hu)

lemma NoWrites.append {m : ℕ} (h : B.NoWrites t m) (h' : B.NoWrites m u) : B.NoWrites t u := by
  intro x hx hxu
  rcases Nat.lt_or_ge x m with hlt | hge
  · exact h x hx hlt
  · exact h' x hge hxu

lemma exec_write {i : ℕ} {v : BitVec 32} {a : Unit} :
    Exec B.env (Driver.write i v) t a t' ↔
      ∃ u, t ≤ u ∧ B.NoWrites t u ∧ B.Writes u i v ∧ t' = u + 1 := exec_perform

lemma exec_read {i : ℕ} {v : BitVec 32} :
    Exec B.env (Driver.read i) t v t' ↔
      ∃ u, t ≤ u ∧ B.NoWrites t (u + 1) ∧ B.Reads u i v ∧ t' = u + 1 := exec_perform

lemma exec_usleep {us : ℕ} {a : Unit} :
    Exec B.env (Driver.usleep us) t a t' ↔
      t + B.cyclesPerUs * us ≤ t' ∧ B.NoWrites t t' := exec_perform

/-! ## Drivers that only load -/

/-- A store. -/
def IsWrite : Access → Prop
  | .write _ _ => True
  | .read _ | .usleep _ => False

/-- A driver without a store leaves the registers. -/
lemma noWrites_of_exec {α : Type} {p : Driver α} {a : α} (h : Exec B.env p t a t')
    (hp : Never IsWrite p) : B.NoWrites t t' := by
  induction h with
  | done a t => exact fun x hx hxt => absurd (hx.trans_lt hxt) (lt_irrefl t)
  | @call o next s s' s'' ans a hcall hnext ih =>
      refine NoWrites.append ?_ (ih (hp.2 ans))
      cases o with
      | write i v => exact absurd trivial hp.1
      | read i =>
          obtain ⟨u, -, hno, -, rfl⟩ := hcall
          exact hno
      | usleep us => exact hcall.2

/-! ## A list of writes -/

/-- These writes are performed, one after the other and no others, from cycle `t` on and before
cycle `t'`. -/
inductive Performs (B : Bus) : ℕ → List (ℕ × BitVec 32) → ℕ → Prop
  | nil (t : ℕ) : Performs B t [] t
  | cons {t u t' k : ℕ} {v : BitVec 32} {ws : List (ℕ × BitVec 32)} :
      t ≤ u → B.NoWrites t u → B.Writes u k v → Performs B (u + 1) ws t' →
        Performs B t ((k, v) :: ws) t'

lemma performs_of_exec {i : ℕ} {v : BitVec 32} {a : Unit}
    (h : Exec B.env (Driver.write i v) t a t') : B.Performs t [(i, v)] t' := by
  obtain ⟨u, htu, hno, hw, rfl⟩ := exec_write.mp h
  exact .cons htu hno hw (.nil _)

section Performs

variable {ws ws' : List (ℕ × BitVec 32)} {m : ℕ}

lemma Performs.append (h : B.Performs t ws m) (h' : B.Performs m ws' t') :
    B.Performs t (ws ++ ws') t' := by
  induction h with
  | nil t => exact h'
  | cons htu hno hw hrest ih => exact .cons htu hno hw (ih h')

/-- Each write takes a cycle. -/
lemma Performs.add_length_le (h : B.Performs t ws t') : t + ws.length ≤ t' := by
  induction h with
  | nil t => exact le_rfl
  | cons htu hno hw hrest ih =>
      rw [List.length_cons]
      omega

variable {b k x p : ℕ} {s : ℕ → RegisterFile b} {m : ℕ → Master (b + 2)} {v : BitVec 32}

/-- What is written meanwhile stands in the list. -/
lemma Performs.mem_of_writes (h : (ofRegisterFile s m p).Performs t ws t') (htx : t ≤ x)
    (hxt : x < t') (hx : (ofRegisterFile s m p).Writes x k v) : (k, v) ∈ ws := by
  induction h with
  | nil t => omega
  | @cons t u t' j w ws htu hno hw hrest ih =>
      rcases Nat.lt_trichotomy x u with hlt | rfl | hgt
      · exact absurd hx (not_writes_of_noWrite (hno x htx hlt))
      · obtain ⟨rfl, rfl⟩ := writes_unique hx hw
        exact List.mem_cons_self
      · exact List.mem_cons_of_mem _ (ih hgt hxt)

/-- A register that is not in the list keeps its value. -/
lemma Performs.slvReg_kept (h : (ofRegisterFile s m p).Performs t ws t')
    (hnext : ∀ t, ∃ axi out, s (t + 1) = (s t).advance axi (m t) out) {hk : k < 2 ^ b}
    (hws : ∀ w ∈ ws, w.1 ≠ k) (htx : t ≤ x) (hxt : x ≤ t') :
    (s x).slvReg ⟨k, hk⟩ = (s t).slvReg ⟨k, hk⟩ :=
  slvReg_of_never_writes hnext htx fun _ hty hyx _ hw =>
    hws _ (h.mem_of_writes hty (hyx.trans_le hxt) hw) rfl

/-- A register holds the last word that the list has for it. -/
lemma Performs.slvReg_of_last (ws : List (ℕ × BitVec 32))
    (h : (ofRegisterFile s m p).Performs t (ws ++ (k, v) :: ws') t')
    (hnext : ∀ t, ∃ axi out, s (t + 1) = (s t).advance axi (m t) out) {hk : k < 2 ^ b}
    (hlast : ∀ w ∈ ws', w.1 ≠ k) : (s t').slvReg ⟨k, hk⟩ = v := by
  induction ws generalizing t with
  | nil =>
      cases h with
      | @cons _ u _ _ _ _ htu hno hw hrest =>
          obtain ⟨axi, out, hstep⟩ := hnext u
          obtain ⟨_, hnew⟩ := slvReg_of_writes hstep hw
          rw [hrest.slvReg_kept hnext hlast (Nat.le_of_add_right_le hrest.add_length_le) le_rfl,
            hnew, Function.update_self]
  | cons w ws ih =>
      cases h with
      | cons htu hno hw hrest => exact ih hrest

end Performs

end Bus

/-! ## Reading a `u64` -/

/-- The order in which the two words of a `u64` are loaded. -/
inductive WordOrder
  | lowFirst
  | highFirst
  deriving DecidableEq, Repr

/-- `*(u64 *)(p + i)`, compiled to two loads. -/
def readU64 (o : WordOrder) (i : ℕ) : Driver (BitVec 64) :=
  match o with
  | .lowFirst => do
      let low ← Driver.read i
      let high ← Driver.read (i + 1)
      pure (high ++ low)
  | .highFirst => do
      let high ← Driver.read (i + 1)
      let low ← Driver.read i
      pure (high ++ low)

/-- The two words of a `u64` are read in the cycles `x` and `y`, and make the value `v`. -/
inductive Bus.ReadsU64 (B : Bus) (i x y : ℕ) : WordOrder → BitVec 64 → Prop
  | lowFirst {low high : BitVec 32} : B.Reads x i low → B.Reads y (i + 1) high →
      ReadsU64 B i x y .lowFirst (high ++ low)
  | highFirst {low high : BitVec 32} : B.Reads x (i + 1) high → B.Reads y i low →
      ReadsU64 B i x y .highFirst (high ++ low)

/-- A `u64` read is two reads, one after the other. -/
lemma Bus.exec_readU64 {B : Bus} {o : WordOrder} {i t t' : ℕ} {v : BitVec 64} :
    Exec B.env (readU64 o i) t v t' ↔
      ∃ x y, t ≤ x ∧ x < y ∧ y + 1 = t' ∧ B.NoWrites t t' ∧ B.ReadsU64 i x y o v := by
  constructor
  · intro h
    cases o with
    | lowFirst =>
        obtain ⟨low, m, hlow, hrest⟩ := exec_bind.mp h
        obtain ⟨high, m', hhigh, hdone⟩ := exec_bind.mp hrest
        obtain ⟨rfl, rfl⟩ := exec_done.mp hdone
        obtain ⟨x, htx, hno, hx, rfl⟩ := exec_read.mp hlow
        obtain ⟨y, hxy, hno', hy, rfl⟩ := exec_read.mp hhigh
        exact ⟨x, y, htx, hxy, rfl, hno.append hno', .lowFirst hx hy⟩
    | highFirst =>
        obtain ⟨high, m, hhigh, hrest⟩ := exec_bind.mp h
        obtain ⟨low, m', hlow, hdone⟩ := exec_bind.mp hrest
        obtain ⟨rfl, rfl⟩ := exec_done.mp hdone
        obtain ⟨x, htx, hno, hx, rfl⟩ := exec_read.mp hhigh
        obtain ⟨y, hxy, hno', hy, rfl⟩ := exec_read.mp hlow
        exact ⟨x, y, htx, hxy, rfl, hno.append hno', .highFirst hx hy⟩
  · rintro ⟨x, y, htx, hxy, rfl, hno, hreads⟩
    have hno₁ : B.NoWrites t (x + 1) := hno.mono le_rfl (by omega)
    have hno₂ : B.NoWrites (x + 1) (y + 1) := hno.mono (by omega) le_rfl
    cases hreads with
    | lowFirst hx hy =>
        exact exec_bind.mpr ⟨_, _, exec_read.mpr ⟨x, htx, hno₁, hx, rfl⟩,
          exec_bind.mpr ⟨_, _, exec_read.mpr ⟨y, hxy, hno₂, hy, rfl⟩, exec_done.mpr ⟨rfl, rfl⟩⟩⟩
    | highFirst hx hy =>
        exact exec_bind.mpr ⟨_, _, exec_read.mpr ⟨x, htx, hno₁, hx, rfl⟩,
          exec_bind.mpr ⟨_, _, exec_read.mpr ⟨y, hxy, hno₂, hy, rfl⟩, exec_done.mpr ⟨rfl, rfl⟩⟩⟩

end TrackerFpga.Mapped
