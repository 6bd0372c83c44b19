import TrackerFpga.Tools.Calctrl
import TrackerFpga.Tools.Dacctrl
import TrackerFpga.Tools.Syncctrl

/-!
# The server and the tools

The server and the tools map the same registers.  In every session in which requests are served and
tools are run, one after the other and in any order, the replies, what the tools print and their
return codes are those of one instrument (`clients_refine`).
-/

namespace TrackerFpga.Tools

open AxiLite ByteCodec CommandLine CString Interaction Labelled Mapped Server

/-! ## The registers of the cores

What a tool does to the registers is what it does in a run of the core.
-/

section Cores

variable {α : Type} {prog : Driver α} {a : α} {t t' : ℕ}

lemma exec_cal {r : Cal.Core.Run} (h : Exec r.bus.env prog t a t') :
    Exec (memory fun _ => True) prog (held (r.slvReg t)) a (held (r.slvReg t')) :=
  exec_memory_of_exec (fun u => ⟨_, _, r.file_succ u, fun _ _ => rfl⟩) h

lemma exec_dac {r : Dac.Core.Run} (h : Exec r.bus.env prog t a t') :
    Exec (memory fun _ => True) prog (held (r.slvReg t)) a (held (r.slvReg t')) :=
  exec_memory_of_exec (fun u => ⟨_, _, r.file_succ u, fun _ _ => rfl⟩) h

lemma exec_sync {r : Sync.Core.Run} (h : Exec r.bus.env prog t a t') :
    Exec (memory Syncctrl.Shown) prog (held (r.regs t).file.slvReg) a
      (held (r.regs t').file.slvReg) := by
  refine exec_memory_of_exec (fun u => ⟨_, _, r.file_succ u, fun k hk => ?_⟩) h
  rw [Sync.Core.regDataOut, if_neg hk.1, if_neg hk.2]

end Cores

/-! ## Sessions -/

/-- A request that was served, or a tool that was run with these words and ended so. -/
inductive Client
  | request (x : Served)
  | calctrl (args : List Arg) (e : Ended)
  | dacctrl (args : List Arg) (e : Ended)
  | syncctrl (args : List Arg) (e : Ended)

/-- What a client does to the server and the registers. -/
inductive Happens (o : WordOrder) (nVata : ℕ) (p : Process) : Client → Process → Prop
  | request {x : Served} {p' : Process} (h : p.Step nVata x p') : Happens o nVata p (.request x) p'
  | calctrl {args : List Arg} {e : Ended} {m : ℕ → BitVec 32}
      (h : Exec (memory fun _ => True) (Calctrl.main args) p.devices.cal e m) :
      Happens o nVata p (.calctrl args e) { p with devices.cal := m }
  | dacctrl {args : List Arg} {e : Ended} {m : ℕ → BitVec 32}
      (h : Exec (memory fun _ => True) (Dacctrl.main args) p.devices.dac e m) :
      Happens o nVata p (.dacctrl args e) { p with devices.dac := m }
  | syncctrl {args : List Arg} {e : Ended} {m : ℕ → BitVec 32}
      (h : Exec (memory Syncctrl.Shown) (Syncctrl.main o nVata args) p.devices.sync e m) :
      Happens o nVata p (.syncctrl args e) { p with devices.sync := m }

/-- A tool without words does nothing but print its usage. -/
structure NoArgs (i : Instrument) (args : List Arg) (e : Ended) (i' : Instrument) : Prop where
  nil : args = []
  usage : e = ⟨[], [], 1⟩
  same : i' = i

/-- What a client does to the instrument. -/
inductive Observes (nVata : ℕ) (i : Instrument) : Client → Instrument → Prop
  | request {x : Served} {i' : Instrument} (h : i.Step nVata x i') :
      Observes nVata i (.request x) i'
  | calctrl {args : List Arg} {e : Ended} {i' : Instrument}
      (h : NoArgs i args e i' ∨ args ≠ [] ∧ Calctrl.Does i args e i') :
      Observes nVata i (.calctrl args e) i'
  | dacctrl {args : List Arg} {e : Ended} {i' : Instrument}
      (h : NoArgs i args e i' ∨ args ≠ [] ∧ Dacctrl.tool.Does nVata i args e i') :
      Observes nVata i (.dacctrl args e) i'
  | syncctrl {args : List Arg} {e : Ended} {i' : Instrument}
      (h : NoArgs i args e i' ∨ args ≠ [] ∧ Syncctrl.tool.Does nVata i args e i') :
      Observes nVata i (.syncctrl args e) i'

section Clients

variable {o : WordOrder} {nVata : ℕ} {i i' : Instrument} {p p' : Process} {x : Client}
  {args : List Arg} {e : Ended} {m : ℕ → BitVec 32}

lemma Calctrl.Does.halted (h : Calctrl.Does i args e i') : i'.halted = i.halted := by
  cases h with
  | performed hreads hone =>
      rw [Calctrl.Line.apply]
      split_ifs <;> cases (Calctrl.lineOf _).fire with
      | none => rfl
      | some f =>
          cases f with
          | nPulses n =>
              rw [Option.elim, Calctrl.Fire.apply]
              split_ifs <;> rfl
          | _ => rfl
  | _ => rfl

/-- A tool is its loop, but for a line without words. -/
lemma of_main {main parseArgs : List Arg → Driver Ended} {shown : ℕ → Prop} {srv : LayerServer}
    {m' : ℕ → BitVec 32} {Does : Instrument → Prop} (put : (ℕ → BitVec 32) → Cores)
    (hmain : main args = if args = [] then pure ⟨[], [], 1⟩ else parseArgs args)
    (hdoes : Exec (memory shown) (parseArgs args) m e m' → ∃ i', Does i' ∧ Shows i' srv (put m'))
    (hi : Shows i srv (put m)) (h : Exec (memory shown) (main args) m e m') :
    ∃ i', (NoArgs i args e i' ∨ args ≠ [] ∧ Does i') ∧ Shows i' srv (put m') := by
  rw [hmain] at h
  split_ifs at h with hargs
  · obtain ⟨rfl, rfl⟩ := exec_done.mp h
    exact ⟨i, .inl ⟨hargs, rfl, rfl⟩, hi⟩
  · obtain ⟨i', hi', hshown⟩ := hdoes h
    exact ⟨i', .inr ⟨hargs, hi'⟩, hshown⟩

/-- **One client.** -/
lemma happens_refines (hi : p.ShownBy i) (h : Happens o nVata p x p') :
    ∃ i', Observes nVata i x i' ∧ p'.ShownBy i' := by
  cases h with
  | request h =>
      obtain ⟨i', hstep, hi'⟩ := step_refines hi h
      exact ⟨i', .request hstep, hi'⟩
  | @calctrl args e m' h =>
      obtain ⟨i', hdoes, hi'⟩ := of_main (fun m => ⟨m, p.devices.dac, p.devices.sync⟩) rfl
        (Calctrl.does_of_exec hi.toShows) hi.toShows h
      refine ⟨i', .calctrl hdoes, hi', hi.halted.trans ?_⟩
      rcases hdoes with hnone | ⟨-, hdoes⟩
      · rw [hnone.same]
      · exact hdoes.halted.symm
  | @dacctrl args e m' h =>
      obtain ⟨i', hdoes, hi'⟩ := of_main (fun m => ⟨p.devices.cal, m, p.devices.sync⟩) rfl
        (ran_of_exec Dacctrl.loops (Dacctrl.performs nVata p.devices.cal p.devices.sync p.srv)
          hi.toShows) hi.toShows h
      refine ⟨i', .dacctrl hdoes, hi', hi.halted.trans ?_⟩
      rcases hdoes with hnone | ⟨-, items, rest, -, hran⟩
      · rw [hnone.same]
      · exact hran.halted.symm
  | @syncctrl args e m' h =>
      obtain ⟨i', hdoes, hi'⟩ := of_main (fun m => ⟨p.devices.cal, p.devices.dac, m⟩) rfl
        (ran_of_exec (Syncctrl.loops o nVata)
          (Syncctrl.performs o nVata p.devices.cal p.devices.dac p.srv) hi.toShows) hi.toShows h
      refine ⟨i', .syncctrl hdoes, hi', hi.halted.trans ?_⟩
      rcases hdoes with hnone | ⟨-, items, rest, -, hran⟩
      · rw [hnone.same]
      · exact hran.halted.symm

/-- **All clients have one instrument.**  In every session of the server and the tools, what they
reply, print and return is what one instrument shows. -/
theorem clients_refine {xs : List Client} (h : Trace (Happens o nVata) .start xs p') :
    ∃ i', Trace (Observes nVata) .start xs i' ∧ p'.ShownBy i' := by
  have hsim : ∀ (i : Instrument) (p : Process) (x : Client) (p' : Process), p.ShownBy i →
      Happens o nVata p x p' → ∃ i', Observes nVata i x i' ∧ p'.ShownBy i' :=
    fun _ _ _ _ hi hstep => happens_refines hi hstep
  exact h.simulates hsim shownBy_start

/-- The words of a line that sets a delay and gets it. -/
def delayArgs : List Arg := [bytes "--set-delay", bytes "100", bytes "--get-delay"]

/-- After it a request is served. -/
def delayThenWidth : List Client :=
  [.dacctrl delayArgs ⟨[bytes "100"], [], 0⟩, .request pulseWidth300]

lemma happens_delay : ∃ p', Happens .lowFirst 12 .start
    (.dacctrl delayArgs ⟨[bytes "100"], [], 0⟩) p' ∧ p'.exited = false := by
  have hvalue : ((Dacctrl.main delayArgs).eval registers Devices.reset.dac).1 =
      ⟨[bytes "100"], [], 0⟩ := by decide +kernel
  have hexec := (exec_memory_iff (never_hidden_of_all (Dacctrl.main delayArgs))).mpr
    (Prod.ext hvalue rfl)
  exact ⟨_, .dacctrl hexec, rfl⟩

/-- The delay is printed, and the request is answered. -/
theorem delayThenWidth_refines : ∃ p' i', Trace (Happens .lowFirst 12) .start delayThenWidth p' ∧
    Trace (Observes 12) .start delayThenWidth i' ∧ p'.ShownBy i' := by
  obtain ⟨p₁, hfirst, hgo⟩ := happens_delay
  obtain ⟨i₁, -, hi₁⟩ := happens_refines shownBy_start hfirst
  obtain ⟨p', hstep⟩ := step_of_form hi₁ (hi₁.halted ▸ hgo) pulseWidth300_resembles rfl
  have htrace : Trace (Happens .lowFirst 12) .start delayThenWidth p' :=
    .cons hfirst (.cons (.request hstep) (.nil p'))
  obtain ⟨i', hi', hshown⟩ := clients_refine htrace
  exact ⟨p', i', htrace, hi', hshown⟩

end Clients

end TrackerFpga.Tools
