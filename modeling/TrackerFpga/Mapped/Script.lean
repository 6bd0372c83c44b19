import TrackerFpga.Mapped.Bus

/-!
# Drivers along a script

A register file whose AXI master follows a script performs access `n` of it in cycle `4 * n + 1`
(`Follows`; for the slave template `follows_of_template`).  A driver whose accesses stand in the
script therefore has a run: the access in slot `n` lasts from cycle `4 * n - 2` to cycle
`4 * (n + 1) - 2`.
-/

namespace TrackerFpga.Mapped

open AxiLite Interaction

variable {b k m n p : ℕ} {s : ℕ → RegisterFile b} {script : ℕ → Option (Job (b + 2))}
  {v : BitVec 32}

/-- The accesses of the script are performed, and no others. -/
structure Follows (s : ℕ → RegisterFile b) (script : ℕ → Option (Job (b + 2))) : Prop where
  write : ∀ {n k v} (hk : k < 2 ^ b), script n = some (.write (regAddr b k) v) →
    (s (4 * n + 1)).written (scripted script (4 * n + 1)) = some (⟨k, hk⟩, v)
  noWrite : ∀ t, ¬ (t % 4 = 1 ∧ ∃ addr data, script (t / 4) = some (.write addr data)) →
    (s t).written (scripted script t) = none
  read : ∀ {n k} (hk : k < 2 ^ b), script n = some (.read (regAddr b k)) →
    (s (4 * n + 1)).read (scripted script (4 * n + 1)) = some ⟨k, hk⟩

/-- In the slot of a write the master shows what is written. -/
lemma scripted_of_write {addr : BitVec (b + 2)} (h : script n = some (.write addr v)) :
    scripted script (4 * n + 1) = { (Master.quiet : Master (b + 2)) with
      awaddr := addr, awvalid := true, wdata := v, wstrb := 15#4, wvalid := true } := by
  rw [scripted_slot script n (by decide), h]
  rfl

/-- A slave follows the script of its master if its handshake is that of the template, whatever it
does to `aw_en`. -/
lemma follows_of_slave (haxi : ∀ t, ∃ e, (s t).axi =
    { slave .reset (scripted script) t with awEn := e }) : Follows s script := by
  have hwrenEq : ∀ t, (s t).axi.wren (scripted script t) =
      (slave .reset (scripted script) t).wren (scripted script t) := by
    intro t
    obtain ⟨e, he⟩ := haxi t
    rw [he]
    rfl
  refine ⟨fun {n k v} hk h => ?_, fun t h => ?_, fun {n k} hk h => ?_⟩
  · obtain ⟨e, he⟩ := haxi (4 * n + 1)
    have hwren : (slave .reset (scripted script) (4 * n + 1)).wren
        (scripted script (4 * n + 1)) = true :=
      (wren_scripted_iff (by decide)).mpr ⟨rfl, _, _, h⟩
    have hready : (slave .reset (scripted script) (4 * n + 1)).wready = true := by
      simp only [Slave.wren, Bool.and_eq_true] at hwren
      exact hwren.1.1.1
    have haddr := (wren_of_wready (holds_scripted script).holdsWrites hready).2
    have hawaddr : (s (4 * n + 1)).axi.awaddr =
        (slave .reset (scripted script) (4 * n + 1)).awaddr := by
      rw [he]
    rw [RegisterFile.written, hwrenEq, if_pos hwren, hawaddr, haddr, scripted_of_write h]
    simp only [locAddr_regAddr hk, strobe_all]
  · have hslot : Slave.wren (scripted script (4 * (t / 4) + t % 4))
          (slave .reset (scripted script) (4 * (t / 4) + t % 4)) = true ↔
        t % 4 = 1 ∧ ∃ addr data, script (t / 4) = some (.write addr data) :=
      wren_scripted_iff (Nat.mod_lt t (by decide))
    rw [Nat.div_add_mod t 4] at hslot
    rw [RegisterFile.written, hwrenEq, if_neg (mt hslot.mp h)]
  · obtain ⟨e, he⟩ := haxi (4 * n + 1)
    have hrden := rden_scripted h
    have haddr := araddr_of_rden (holds_scripted script) hrden
    have hmaster : (scripted script (4 * n + 1)).araddr = regAddr b k := by
      rw [scripted_slot script n (by decide), h]
      rfl
    have hrdenEq : (s (4 * n + 1)).axi.rden (scripted script (4 * n + 1)) = true := by
      rw [he]
      exact hrden
    have haraddr : (s (4 * n + 1)).axi.araddr =
        (slave .reset (scripted script) (4 * n + 1)).araddr := by
      rw [he]
    rw [RegisterFile.read, if_pos hrdenEq, haraddr, haddr, hmaster, locAddr_regAddr hk]

/-- A slave of the template follows the script of its master. -/
lemma follows_of_template (haxi : ∀ t, (s t).axi = slave .reset (scripted script) t) :
    Follows s script := follows_of_slave fun t => ⟨_, haxi t⟩

section Follows

variable (hs : Follows s script)
include hs

/-- No write is performed in slots without one. -/
lemma noWrites_of_gap (hgap : ∀ j, m ≤ j → j < n → ∀ addr data,
    script j ≠ some (.write addr data)) :
    (Bus.ofRegisterFile s (scripted script) p).NoWrites (4 * m - 2) (4 * n + 1) := by
  intro x hx hxn
  refine hs.noWrite x ?_
  rintro ⟨hmod, addr, data, hjob⟩
  exact hgap (x / 4) (by omega) (by omega) addr data hjob

lemma exec_write_slot (hk : k < 2 ^ b) (h : script n = some (.write (regAddr b k) v)) :
    Exec (Bus.ofRegisterFile s (scripted script) p).env (Driver.write k v) (4 * n - 2) ()
      (4 * (n + 1) - 2) :=
  Bus.exec_write.mpr ⟨4 * n + 1, by omega, noWrites_of_gap hs fun j hj hjn => by omega,
    ⟨hk, hs.write hk h⟩, by omega⟩

lemma exec_read_slot (hk : k < 2 ^ b) (h : script n = some (.read (regAddr b k))) :
    Exec (Bus.ofRegisterFile s (scripted script) p).env (Driver.read k) (4 * n - 2)
      (s (4 * n + 2)).axiRdata (4 * (n + 1) - 2) := by
  have hread := hs.read hk h
  refine Bus.exec_read.mpr ⟨4 * n + 1, by omega, ?_, ⟨hk, hread, rfl⟩, by omega⟩
  refine (noWrites_of_gap hs (m := n) (n := n + 1) fun j hj hjn addr data => ?_).mono le_rfl
    (by omega)
  obtain rfl : j = n := by omega
  simp [h]

lemma exec_usleep_slots {us : ℕ} (hlong : 4 * m - 2 + p * us ≤ 4 * n - 2)
    (hgap : ∀ j, m ≤ j → j < n → ∀ addr data, script j ≠ some (.write addr data)) :
    Exec (Bus.ofRegisterFile s (scripted script) p).env (Driver.usleep us) (4 * m - 2) ()
      (4 * n - 2) :=
  Bus.exec_usleep.mpr ⟨hlong, (noWrites_of_gap hs hgap).mono le_rfl (by omega)⟩

/-- What a register file writes along a script stands in the script. -/
lemma script_of_writes {x : ℕ} (hregs : ∀ j addr data, script j = some (.write addr data) →
      ∃ i < 2 ^ b, addr = regAddr b i)
    (h : (Bus.ofRegisterFile s (scripted script) p).Writes x k v) :
    x % 4 = 1 ∧ script (x / 4) = some (.write (regAddr b k) v) := by
  obtain ⟨hk, hwritten⟩ := h
  have hslot : x % 4 = 1 ∧ ∃ addr data, script (x / 4) = some (.write addr data) := by
    by_contra hno
    rw [hs.noWrite x hno] at hwritten
    exact absurd hwritten (by simp)
  obtain ⟨hmod, addr, data, hjob⟩ := hslot
  obtain ⟨i, hi, rfl⟩ := hregs _ _ _ hjob
  have hwrite := hs.write hi hjob
  have hx : 4 * (x / 4) + 1 = x := by omega
  rw [hx, hwritten] at hwrite
  obtain ⟨hik, rfl⟩ := Prod.mk.inj (Option.some.inj hwrite)
  obtain rfl : k = i := congrArg Fin.val hik
  exact ⟨hmod, hjob⟩

/-- A script whose writes go to registers is one of whole words. -/
lemma exec_words {α : Type} {prog : Driver α} {a : α} {t t' : ℕ}
    (hregs : ∀ j addr data, script j = some (.write addr data) → ∃ i < 2 ^ b, addr = regAddr b i)
    (h : Exec (Bus.ofRegisterFile s (scripted script) p).env prog t a t') :
    Exec (Bus.ofWords s (scripted script) p).env prog t a t' := by
  refine Bus.exec_restrict (fun x k v hwrite => ?_) h
  obtain ⟨hmod, hjob⟩ := script_of_writes hs hregs hwrite
  have hx : 4 * (x / 4) + 1 = x := by omega
  show StoresWord (scripted script x) k v
  rw [← hx, scripted_of_write hjob]
  exact ⟨rfl, rfl, rfl⟩

/-! ### Loops -/

lemma exec_forEach_slots {f : ℕ → BitVec 32} {off : ℕ} (n : ℕ) (hn : n + off ≤ 2 ^ b)
    (h : ∀ i < n, script (m + i) = some (.write (regAddr b (i + off)) (f i))) :
    Exec (Bus.ofRegisterFile s (scripted script) p).env
      (Driver.forEach (fun i => Driver.write (i + off) (f i)) n) (4 * m - 2) ()
      (4 * (m + n) - 2) := by
  induction n with
  | zero => exact exec_done.mpr ⟨rfl, rfl⟩
  | succ n ih =>
      exact exec_bind.mpr ⟨(), _, ih (by omega) fun i hi => h i (by omega),
        exec_write_slot hs (by omega) (h n (Nat.lt_succ_self n))⟩

lemma exec_collect_slots (off n : ℕ) (hn : n + off ≤ 2 ^ b)
    (h : ∀ i < n, script (m + i) = some (.read (regAddr b (i + off)))) :
    ∃ data, Exec (Bus.ofRegisterFile s (scripted script) p).env
      (Driver.collect (fun i => Driver.read (i + off)) n) (4 * m - 2) data
      (4 * (m + n) - 2) := by
  induction n with
  | zero => exact ⟨[], exec_done.mpr ⟨rfl, rfl⟩⟩
  | succ n ih =>
      obtain ⟨data, hdata⟩ := ih (by omega) fun i hi => h i (by omega)
      exact ⟨_, exec_bind.mpr ⟨data, _, hdata, exec_bind.mpr ⟨_, _,
        exec_read_slot hs (by omega) (h n (Nat.lt_succ_self n)), exec_done.mpr ⟨rfl, rfl⟩⟩⟩⟩

end Follows

/-! ## Lists of writes -/

/-- The script of a list of writes: in which slot, to which register, and what. -/
def scriptOf (b : ℕ) (writes : List (ℕ × ℕ × BitVec 32)) (n : ℕ) : Option (Job (b + 2)) :=
  (writes.lookup n).map fun w => .write (regAddr b w.1) w.2

section ScriptOf

variable {writes : List (ℕ × ℕ × BitVec 32)} {x : ℕ}

lemma scriptOf_of_lookup (h : writes.lookup n = some (k, v)) :
    scriptOf b writes n = some (.write (regAddr b k) v) := by
  rw [scriptOf, h, Option.map_some]

lemma mem_of_scriptOf {addr : BitVec (b + 2)} (h : scriptOf b writes n = some (.write addr v)) :
    ∃ i, addr = regAddr b i ∧ (n, i, v) ∈ writes := by
  obtain ⟨⟨i, w⟩, hlookup, heq⟩ := Option.map_eq_some_iff.mp h
  obtain ⟨rfl, rfl⟩ := Job.write.inj heq
  obtain ⟨l₁, l₂, hwrites, -⟩ := List.lookup_eq_some_iff.mp hlookup
  exact ⟨i, rfl, hwrites ▸ List.mem_append_right l₁ List.mem_cons_self⟩

variable (hs : Follows s (scriptOf b writes)) (hregs : ∀ w ∈ writes, w.2.1 < 2 ^ b)
include hs hregs

/-- What is written along a list of writes stands in the list. -/
lemma mem_of_writes
    (h : (Bus.ofRegisterFile s (scripted (scriptOf b writes)) p).Writes x k v) :
    ∃ n, x = 4 * n + 1 ∧ (n, k, v) ∈ writes := by
  obtain ⟨hk, -⟩ := id h
  obtain ⟨hmod, hjob⟩ := script_of_writes hs (fun j addr data hj => by
    obtain ⟨i, rfl, hmem⟩ := mem_of_scriptOf hj
    exact ⟨i, hregs _ hmem, rfl⟩) h
  obtain ⟨i, haddr, hmem⟩ := mem_of_scriptOf hjob
  have hik : (⟨k, hk⟩ : Fin (2 ^ b)) = ⟨i, hregs _ hmem⟩ := by
    rw [← locAddr_regAddr hk, haddr, locAddr_regAddr]
  obtain rfl : k = i := congrArg Fin.val hik
  exact ⟨x / 4, by omega, hmem⟩

/-- A register keeps what it holds until a slot of the list writes to it. -/
lemma slvReg_kept_of_list
    (hnext : ∀ t, ∃ axi out, s (t + 1) = (s t).advance axi (scripted (scriptOf b writes) t) out)
    (hk : k < 2 ^ b) (hmx : m ≤ x)
    (hgap : ∀ w ∈ writes, m ≤ 4 * w.1 + 1 → 4 * w.1 + 1 < x → w.2.1 ≠ k) :
    (s x).slvReg ⟨k, hk⟩ = (s m).slvReg ⟨k, hk⟩ := by
  refine Bus.slvReg_of_never_writes (p := 1) hnext hmx fun y hy hyx w hw => ?_
  obtain ⟨n, rfl, hmem⟩ := mem_of_writes hs hregs hw
  exact hgap _ hmem hy hyx rfl

/-- A register holds the word of a slot until a later slot writes to it. -/
lemma slvReg_of_list
    (hnext : ∀ t, ∃ axi out, s (t + 1) = (s t).advance axi (scripted (scriptOf b writes) t) out)
    (hk : k < 2 ^ b) (hlookup : writes.lookup n = some (k, v)) (hx : 4 * n + 2 ≤ x)
    (hgap : ∀ w ∈ writes, n < w.1 → 4 * w.1 + 1 < x → w.2.1 ≠ k) :
    (s x).slvReg ⟨k, hk⟩ = v := by
  obtain ⟨axi, out, hstep⟩ := hnext (4 * n + 1)
  obtain ⟨_, hnew⟩ := Bus.slvReg_of_writes (p := 1) hstep
    ⟨hk, hs.write hk (scriptOf_of_lookup hlookup)⟩
  rw [slvReg_kept_of_list hs hregs hnext hk hx fun w hw hm hwx => hgap w hw (by omega) hwx, hnew,
    Function.update_self]

end ScriptOf

end TrackerFpga.Mapped
