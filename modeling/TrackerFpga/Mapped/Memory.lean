import TrackerFpga.Mapped.Bus

/-!
# Mapped registers as memory

A register file holds what is written to it, and where the core shows a register as it is, a load
returns that (`registers`).  A driver that loads nothing else does in a run of the core what it
does to the memory (`eval_of_exec`).
-/

namespace TrackerFpga.Mapped

open AxiLite Interaction

/-- Registers that hold what is written to them. -/
def registers : Handler Access Access.Answer (ℕ → BitVec 32)
  | .write i v, m => ((), Function.update m i v)
  | .read i, m => (m i, m)
  | .usleep _, m => ((), m)

section Eval

variable {m : ℕ → BitVec 32}

@[simp] lemma eval_write (i : ℕ) (v : BitVec 32) :
    (Driver.write i v).eval registers m = ((), Function.update m i v) := rfl

@[simp] lemma eval_read (i : ℕ) : (Driver.read i).eval registers m = (m i, m) := rfl

@[simp] lemma eval_usleep (us : ℕ) : (Driver.usleep us).eval registers m = ((), m) := rfl

end Eval

section RegisterFile

variable {b : ℕ}

/-- A load of a register that the core does not show as it is. -/
def Hidden (shown : ℕ → Prop) : Access → Prop
  | .read i => ¬ shown i
  | .write _ _ | .usleep _ => False

section Hidden

variable {α : Type} {shown : ℕ → Prop} {i us : ℕ} {v : BitVec 32}

@[simp] lemma never_hidden_write : Never (Hidden shown) (Driver.write i v) := ⟨id, fun _ => trivial⟩

@[simp] lemma never_hidden_read : Never (Hidden shown) (Driver.read i) ↔ shown i :=
  ⟨fun h => not_not.mp h.1, fun h => ⟨not_not.mpr h, fun _ => trivial⟩⟩

@[simp] lemma never_hidden_write_bind {f : Unit → Driver α} :
    Never (Hidden shown) (Driver.write i v >>= f) ↔ Never (Hidden shown) (f ()) :=
  ⟨fun h => h.2 (), fun h => ⟨id, fun _ => h⟩⟩

@[simp] lemma never_hidden_read_bind {f : BitVec 32 → Driver α} :
    Never (Hidden shown) (Driver.read i >>= f) ↔ shown i ∧ ∀ w, Never (Hidden shown) (f w) :=
  ⟨fun h => ⟨not_not.mp h.1, h.2⟩, fun h => ⟨not_not.mpr h.1, h.2⟩⟩

@[simp] lemma never_hidden_usleep_bind {f : Unit → Driver α} :
    Never (Hidden shown) (Driver.usleep us >>= f) ↔ Never (Hidden shown) (f ()) :=
  ⟨fun h => h.2 (), fun h => ⟨id, fun _ => h⟩⟩

/-- Where everything is shown, no load is hidden. -/
lemma never_hidden_of_all (p : Driver α) : Never (Hidden fun _ => True) p := by
  induction p with
  | done a => exact never_done
  | call o next ih =>
      refine ⟨?_, ih⟩
      cases o with
      | read i => exact not_not.mpr trivial
      | write i v => exact id
      | usleep us => exact id

end Hidden

/-- A driver that loads what is shown does in a run of a register file what it does to the
memory. -/
lemma eval_of_exec {s : ℕ → RegisterFile b} {m : ℕ → Master (b + 2)} {p : ℕ} {shown : ℕ → Prop}
    (hnext : ∀ t, ∃ axi out, s (t + 1) = (s t).advance axi (m t) out ∧
      ∀ k, shown k.val → out k = (s t).slvReg k)
    {α : Type} {prog : Driver α} {a : α} {t t' : ℕ}
    (h : Exec (Bus.ofRegisterFile s m p).env prog t a t') (hprog : Never (Hidden shown) prog) :
    prog.eval registers (held (s t).slvReg) = (a, held (s t').slvReg) := by
  have hadvance : ∀ t, ∃ axi out, s (t + 1) = (s t).advance axi (m t) out := fun t => by
    obtain ⟨axi, out, hstep, -⟩ := hnext t
    exact ⟨axi, out, hstep⟩
  refine Exec.eval_eq (fun t => held (s t).slvReg) ?_ h hprog
  intro o t ans t' hgood hcall
  cases o with
  | write i v =>
      obtain ⟨u, htu, hno, hwrite, rfl⟩ := hcall
      obtain ⟨axi, out, hstep, -⟩ := hnext u
      obtain ⟨hi, hnew⟩ := Bus.slvReg_of_writes hstep hwrite
      rw [registers, hnew, Bus.slvReg_of_noWrites hadvance hno htu le_rfl, held_update]
      rfl
  | read i =>
      obtain ⟨u, htu, hno, hread, rfl⟩ := hcall
      obtain ⟨axi, out, hstep, hout⟩ := hnext u
      obtain ⟨hi, rfl⟩ := Bus.data_of_reads hstep hread
      have hshown : shown i := not_not.mp hgood
      rw [registers, hout ⟨i, hi⟩ hshown,
        Bus.slvReg_of_noWrites hadvance hno (htu.trans (Nat.le_succ u)) le_rfl,
        ← Bus.slvReg_of_noWrites hadvance hno htu (Nat.le_succ u), held_of_lt _ hi]
  | usleep us =>
      obtain ⟨hlong, hno⟩ := hcall
      rw [registers, Bus.slvReg_of_noWrites hadvance hno (by omega) le_rfl]
      rfl

end RegisterFile

/-! ## Loads of registers that are not shown -/

/-- Registers that hold what is written to them, where a load of a register that is not shown
returns anything. -/
def memory (shown : ℕ → Prop) : Env Access Access.Answer (ℕ → BitVec 32)
  | .write i v, m, _, m' => m' = Function.update m i v
  | .read i, m, v, m' => (shown i → v = m i) ∧ m' = m
  | .usleep _, m, _, m' => m' = m

section Memory

variable {α : Type} {shown : ℕ → Prop} {m m' : ℕ → BitVec 32} {a : α}

lemma exec_memory_read {i : ℕ} {v : BitVec 32} :
    Exec (memory shown) (Driver.read i) m v m' ↔ (shown i → v = m i) ∧ m' = m := exec_perform

/-- A driver that loads what is shown has one run. -/
lemma exec_memory_iff {prog : Driver α} (hprog : Never (Hidden shown) prog) :
    Exec (memory shown) prog m a m' ↔ prog.eval registers m = (a, m') := by
  constructor
  · intro h
    refine Exec.eval_eq id (fun o m v m' hgood hcall => ?_) h hprog
    cases o with
    | write i v =>
        obtain rfl := hcall
        rfl
    | read i =>
        obtain ⟨hv, rfl⟩ := hcall
        rw [hv (not_not.mp hgood)]
        rfl
    | usleep us =>
        obtain rfl := hcall
        rfl
  · intro h
    induction prog generalizing m with
    | done b =>
        obtain ⟨rfl, rfl⟩ := Prod.mk.inj h
        exact .done _ _
    | call o next ih =>
        refine .call ?_ (ih _ (hprog.2 _) h)
        cases o with
        | write i v => rfl
        | read i => exact ⟨fun _ => rfl, rfl⟩
        | usleep us => rfl

/-- What a driver does in a run of a register file. -/
lemma exec_memory_of_exec {b : ℕ} {s : ℕ → RegisterFile b} {master : ℕ → Master (b + 2)} {p : ℕ}
    (hnext : ∀ t, ∃ axi out, s (t + 1) = (s t).advance axi (master t) out ∧
      ∀ k, shown k.val → out k = (s t).slvReg k)
    {prog : Driver α} {t t' : ℕ} (h : Exec (Bus.ofRegisterFile s master p).env prog t a t') :
    Exec (memory shown) prog (held (s t).slvReg) a (held (s t').slvReg) := by
  have hcall : ∀ (o : Access) (t : ℕ) (v : o.Answer) (t' : ℕ),
      (Bus.ofRegisterFile s master p).env o t v t' →
        memory shown o (held (s t).slvReg) v (held (s t').slvReg) := by
    intro o t v t' hcall
    have hone := fun hgood => eval_of_exec hnext (exec_perform.mpr hcall) (never_perform.mpr hgood)
    cases o with
    | write i w => exact (congrArg Prod.snd (hone id)).symm
    | usleep us => exact (congrArg Prod.snd (hone id)).symm
    | read i =>
        refine ⟨fun hshown => (congrArg Prod.fst (hone (not_not.mpr hshown))).symm, ?_⟩
        obtain ⟨u, htu, hno, -, rfl⟩ := hcall
        have hadvance : ∀ t, ∃ axi out, s (t + 1) = (s t).advance axi (master t) out := fun t => by
          obtain ⟨axi, out, hstep, -⟩ := hnext t
          exact ⟨axi, out, hstep⟩
        rw [Bus.slvReg_of_noWrites hadvance hno (htu.trans (Nat.le_succ u)) le_rfl]
  exact h.map (fun t => held (s t).slvReg) hcall

end Memory

end TrackerFpga.Mapped
