import TrackerFpga.Lib.CNumber
import TrackerFpga.Sync.Core
import TrackerFpga.Mapped.Memory
import TrackerFpga.Server.Handled

/-!
# The server and its devices

A `World` is the server's process with the registers behind its drivers: those of the calibrator,
of the DACs and of the synchroniser, and the hold delay of each core.  In it the methods of
`CalCtrl`, `DacCtrl` and `SyncCtrl` that a request calls do to the registers what their drivers do,
and return what these return (`world`).  What the server gets from elsewhere, such as the counter,
the files and the other methods of `VataCtrl`, is in `others`.

`Ends p w a ms acts d` says that `p` returns `a` from the world `w`, having sent the messages `ms`
and performed the actions `acts`, and leaves the devices `d`.  A method that refuses its argument is
no action (`actions`).  Every end in a world is a run of the server's process (`exec_of_world`).
-/

namespace TrackerFpga.Server

open AxiLite ByteCodec CString Interaction Mapped

/-! ## The drivers -/

/-- The method of `CalCtrl` that is called. -/
def CalAction.method : CalAction → Driver ℤ
  | .writeSettings settings => do
      settings.writeSettings
      pure 0
  | .nPulses settings n => settings.nPulses n
  | .startInfPulses settings => settings.startInfPulses
  | .stopInfPulses => Cal.CalCtrl.stopInfPulses

/-- The method of `DacCtrl` that is called. -/
def DacQuery.method : DacQuery → Driver (BitVec 32)
  | .getDelay => Dac.DacCtrl.getDelay
  | .getInput => Dac.DacCtrl.getInput

/-- A method that returns nothing. -/
def void (p : Driver Unit) : Driver ℤ := do
  p
  pure 0

/-- The method of `SyncCtrl` that is called. -/
def SyncAction.method (nVata : ℕ) : SyncAction → Driver ℤ
  | .counterReset => void Sync.SyncCtrl.counterReset
  | .forceTrigger => void Sync.SyncCtrl.forceTrigger
  | .globalHitEnable => void Sync.SyncCtrl.globalHitEnable
  | .globalHitDisable => void Sync.SyncCtrl.globalHitDisable
  | .asicHitEnable asic => Sync.SyncCtrl.asicHitEnable nVata asic
  | .asicHitDisable asic => Sync.SyncCtrl.asicHitDisable nVata asic

/-! ## The registers of the cores

What a method does to the registers of its device is what it does in a run of the core.
-/

section Cores

variable {t t' : ℕ} {α : Type}

lemma never_hidden_calMethod (a : CalAction) : Never (Hidden fun _ => True) a.method := by
  cases a <;> simp [CalAction.method, Cal.CalCtrl.writeSettings, Cal.CalCtrl.nPulses,
    Cal.CalCtrl.startInfPulses, Cal.CalCtrl.stopInfPulses, Program.bind_assoc]

lemma cal_eval_of_exec {r : Cal.Core.Run} {a : CalAction} {ret : ℤ}
    (h : Exec r.bus.env a.method t ret t') :
    a.method.eval registers (held (r.slvReg t)) = (ret, held (r.slvReg t')) :=
  eval_of_exec (fun u => ⟨_, _, r.file_succ u, fun _ _ => rfl⟩) h (never_hidden_calMethod a)

lemma never_hidden_dacMethod (a : DacAction) : Never (Hidden fun _ => True) a.method := by
  cases a <;> simp [Dac.DacCtrl.Call.method, Dac.DacCtrl.setDelay, Dac.DacCtrl.setCounts]

lemma dac_eval_of_exec {r : Dac.Core.Run} {a : DacAction} {ret : ℤ}
    (h : Exec r.bus.env a.method t ret t') :
    a.method.eval registers (held (r.slvReg t)) = (ret, held (r.slvReg t')) :=
  eval_of_exec (fun u => ⟨_, _, r.file_succ u, fun _ _ => rfl⟩) h (never_hidden_dacMethod a)

lemma dacQuery_eval_of_exec {r : Dac.Core.Run} {q : DacQuery} {v : BitVec 32}
    (h : Exec r.bus.env q.method t v t') :
    q.method.eval registers (held (r.slvReg t)) = (v, held (r.slvReg t')) := by
  have hquery : Never (Hidden fun _ => True) q.method := by
    cases q <;> simp [DacQuery.method, Dac.DacCtrl.getDelay, Dac.DacCtrl.getInput]
  exact eval_of_exec (fun u => ⟨_, _, r.file_succ u, fun _ _ => rfl⟩) h hquery

/-- The registers `1` and `2` of the synchroniser show the counter. -/
lemma sync_eval_of_exec {r : Sync.Core.Run} {p : Driver α} {a : α}
    (hp : Never (Hidden fun k => k ≠ 1 ∧ k ≠ 2) p) (h : Exec r.bus.env p t a t') :
    p.eval registers (held (r.regs t).file.slvReg) = (a, held (r.regs t').file.slvReg) := by
  refine eval_of_exec (fun u => ⟨_, _, r.file_succ u, fun k hk => ?_⟩) h hp
  rw [Sync.Core.regDataOut, if_neg hk.1, if_neg hk.2]

lemma never_hidden_syncMethod (nVata : ℕ) (a : SyncAction) :
    Never (Hidden fun k => k ≠ 1 ∧ k ≠ 2) (a.method nVata) := by
  cases a <;> simp [SyncAction.method, void, Sync.SyncCtrl.counterReset,
    Sync.SyncCtrl.forceTrigger, Sync.SyncCtrl.globalHitEnable, Sync.SyncCtrl.globalHitDisable,
    Sync.SyncCtrl.asicHitEnable, Sync.SyncCtrl.asicHitDisable]

lemma never_hidden_isGlobalHitEnabled :
    Never (Hidden fun k => k ≠ 1 ∧ k ≠ 2) Sync.SyncCtrl.isGlobalHitEnabled := by
  simp [Sync.SyncCtrl.isGlobalHitEnabled]

lemma never_hidden_getAsicHitDisableMask :
    Never (Hidden fun k => k ≠ 1 ∧ k ≠ 2) Sync.SyncCtrl.getAsicHitDisableMask := by
  simp [Sync.SyncCtrl.getAsicHitDisableMask]

end Cores

/-! ## Worlds -/

/-- The registers of the devices, by their numbers.  `counter` is what a load of the synchronous
counter returns, and `hold n` the hold delay of core `n`. -/
structure Devices where
  cal : ℕ → BitVec 32
  dac : ℕ → BitVec 32
  sync : ℕ → BitVec 32
  counter : BitVec 64
  hold : ℕ → BitVec 32

/-- The devices after a method of `CalCtrl`. -/
def Devices.afterCal (d : Devices) (a : CalAction) : Devices :=
  { d with cal := (a.method.eval registers d.cal).2 }

/-- The devices after a method of `DacCtrl`. -/
def Devices.afterDac (d : Devices) (a : DacAction) : Devices :=
  { d with dac := (a.method.eval registers d.dac).2 }

/-- The devices after a method of `SyncCtrl`. -/
def Devices.afterSync (nVata : ℕ) (d : Devices) (a : SyncAction) : Devices :=
  { d with sync := ((a.method nVata).eval registers d.sync).2 }

/-- The devices after `set_hold_delay` for core `n`. -/
def Devices.afterHold (d : Devices) (n : ℕ) (delay : BitVec 32) : Devices :=
  { d with hold := Function.update d.hold n delay }

@[simp] lemma Devices.afterHold_hold (d : Devices) (n : ℕ) (delay : BitVec 32) :
    (d.afterHold n delay).hold n = delay := Function.update_self ..

/-- The server's process and the devices. -/
structure World extends Machine where
  devices : Devices

/-- What a call returns, and the devices after it.  A call that is not about the devices gets its
answer from `others`. -/
def answer (nVata : ℕ) (others : (o : Call) → Option o.Answer) :
    (o : Call) → List Token → Devices → Option (o.Answer × Devices)
  | .strtok (some s), _, d => some ((tokens s).head?, d)
  | .strtok none, ts, d => some (ts.head?, d)
  | .send _, _, d => some ((), d)
  | .cal a, _, d => some ((a.method.eval registers d.cal).1, d.afterCal a)
  | .dac a, _, d => some ((a.method.eval registers d.dac).1, d.afterDac a)
  | .dacQuery q, _, d => some ((q.method.eval registers d.dac).1, d)
  | .sync a, _, d => some (((a.method nVata).eval registers d.sync).1, d.afterSync nVata a)
  | .syncCounter, _, d => some (d.counter, d)
  | .isGlobalHitEnabled, _, d =>
      some ((Sync.SyncCtrl.isGlobalHitEnabled.eval registers d.sync).1, d)
  | .asicHitDisableMask, _, d =>
      some ((Sync.SyncCtrl.getAsicHitDisableMask.eval registers d.sync).1, d)
  | .vata nvata (.setHoldDelay delay), _, d => some (0, d.afterHold nvata delay)
  | .vataQuery nvata .getHoldDelay, _, d => some (d.hold nvata, d)
  | .inprocSend _, _, d => some ((), d)
  | .joinEmitter, _, d => some ((), d)
  | o, _, d => (others o).map fun ans => (ans, d)

/-- The world after a call. -/
def World.after (w : World) (o : Call) (ans : o.Answer) (d : Devices) : World where
  toMachine := w.toMachine.after o ans
  devices := d

/-- The world in which all registers are `0` and nothing is logged. -/
def World.start : World where
  tokens := []
  log := []
  devices := ⟨fun _ => 0#32, fun _ => 0#32, fun _ => 0#32, 0#64, fun _ => 0#32⟩

/-- The world with other tokens left. -/
def World.rest (w : World) (ts : List Token) : World := { w with tokens := ts }

/-- What the calls of the server do in a world. -/
def world (nVata : ℕ) (others : (o : Call) → Option o.Answer) :
    PartialHandler Call Call.Answer World := fun o w =>
  (answer nVata others o w.tokens w.devices).map fun r => (r.1, w.after o r.1 r.2)

/-- What a call does besides the parsing and the replies: a method of a driver that did not refuse,
or a message to the emitter. -/
def action : Event → Option Call
  | ⟨.cal a, ret⟩ => if (ret : ℤ) = 0 then some (.cal a) else none
  | ⟨.dac a, ret⟩ => if (ret : ℤ) = 0 then some (.dac a) else none
  | ⟨.sync a, ret⟩ => if (ret : ℤ) = 0 then some (.sync a) else none
  | ⟨.dacQuery q, _⟩ => some (.dacQuery q)
  | ⟨.syncCounter, _⟩ => some .syncCounter
  | ⟨.isGlobalHitEnabled, _⟩ => some .isGlobalHitEnabled
  | ⟨.asicHitDisableMask, _⟩ => some .asicHitDisableMask
  | ⟨.inprocSend msg, _⟩ => some (.inprocSend msg)
  | ⟨.joinEmitter, _⟩ => some .joinEmitter
  | _ => none

/-- The actions in a log. -/
def actions (es : List Event) : List Call := es.filterMap action

@[simp] lemma actions_append (es es' : List Event) :
    actions (es ++ es') = actions es ++ actions es' := List.filterMap_append

/-- A world is a restriction of the server's process. -/
lemma exec_of_world {α : Type} {nVata : ℕ} {others : (o : Call) → Option o.Answer} {p : Method α}
    {w w' : World} {a : α} (h : p.evalPartial (world nVata others) w = some (a, w')) :
    Exec env p w.toMachine a w'.toMachine := by
  refine exec_of_evalPartial World.toMachine (fun o w ans w' hcall => ?_) h
  obtain ⟨⟨ans', d⟩, hanswer, hafter⟩ := Option.map_eq_some_iff.mp hcall
  obtain ⟨rfl, rfl⟩ := Prod.mk.inj hafter
  refine ⟨?_, rfl⟩
  cases o with
  | strtok s =>
      cases s with
      | none => exact (congrArg Prod.fst (Option.some.inj hanswer)).symm
      | some s => exact (congrArg Prod.fst (Option.some.inj hanswer)).symm
  | _ => trivial

/-! ## Ends -/

/-- From the world `w` the program returns `a`; it sends the messages `ms`, performs the actions
`acts`, and leaves the devices `d`. -/
def Ends {α : Type} (nVata : ℕ) (others : (o : Call) → Option o.Answer) (p : Method α) (w : World)
    (a : α) (ms : List (List Byte)) (acts : List Call) (d : Devices) : Prop :=
  ∃ w', p.evalPartial (world nVata others) w = some (a, w') ∧
    sockets w'.log = sockets w.log ++ ms.map .send ∧
    actions w'.log = actions w.log ++ acts ∧ w'.devices = d

section Ends

variable {α β : Type} {nVata : ℕ} {others : (o : Call) → Option o.Answer} {w : World} {a a' : α}
  {b : β} {ms ms' : List (List Byte)} {acts acts' : List Call} {d d' : Devices}

/-- A program has one end. -/
lemma Ends.unique {p : Method α} (h : Ends nVata others p w a ms acts d)
    (h' : Ends nVata others p w a' ms' acts' d') :
    a = a' ∧ ms = ms' ∧ acts = acts' ∧ d = d' := by
  obtain ⟨w₁, heval, hsent, hacts, rfl⟩ := h
  obtain ⟨w₂, heval', hsent', hacts', rfl⟩ := h'
  obtain ⟨rfl, rfl⟩ := Prod.mk.inj (Option.some.inj (heval.symm.trans heval'))
  have hmap := List.append_cancel_left (hsent.symm.trans hsent')
  have hinj : Function.Injective SocketEvent.send := fun _ _ => SocketEvent.send.inj
  exact ⟨rfl, List.map_injective_iff.mpr hinj hmap,
    List.append_cancel_left (hacts.symm.trans hacts'), rfl⟩

/-- What a program does depends on the tokens and the devices, and not on what was logged. -/
lemma evalPartial_rest {p : Method α} {w' w₁ : World} (htokens : w'.tokens = w.tokens)
    (hdevices : w'.devices = w.devices)
    (h : p.evalPartial (world nVata others) w = some (a, w₁)) :
    ∃ es, w₁.log = w.log ++ es ∧
      ∃ w₂, p.evalPartial (world nVata others) w' = some (a, w₂) ∧ w₂.log = w'.log ++ es ∧
        w₂.devices = w₁.devices := by
  induction p generalizing w w' with
  | done b =>
      obtain ⟨rfl, rfl⟩ := Prod.mk.inj (Option.some.inj h)
      exact ⟨[], by simp, w', rfl, by simp, hdevices⟩
  | call o next ih =>
      obtain ⟨⟨ans, t⟩, hstep, hrest⟩ := Option.bind_eq_some_iff.mp h
      obtain ⟨⟨ans', d'⟩, hanswer, hafter⟩ := Option.map_eq_some_iff.mp hstep
      obtain ⟨rfl, rfl⟩ := Prod.mk.inj hafter
      have hsame : answer nVata others o w'.tokens w'.devices = some (ans', d') := by
        rw [htokens, hdevices, hanswer]
      have hleft : (w'.after o ans' d').tokens = (w.after o ans' d').tokens :=
        congrArg (Machine.tokensAfter o) htokens
      obtain ⟨es, hlog, w₂, heval, hlog₂, hdevices₂⟩ := ih ans' hleft rfl hrest
      refine ⟨⟨o, ans'⟩ :: es, ?_, w₂, ?_, ?_, hdevices₂⟩
      · rw [hlog]
        exact List.append_assoc _ _ _
      · rw [evalPartial_call, world, hsame]
        exact heval
      · rw [hlog₂]
        exact List.append_assoc _ _ _

lemma Ends.of_same {p : Method α} {w' : World} (h : Ends nVata others p w a ms acts d)
    (htokens : w'.tokens = w.tokens) (hdevices : w'.devices = w.devices) :
    Ends nVata others p w' a ms acts d := by
  obtain ⟨w₁, heval, hsent, hacts, rfl⟩ := h
  obtain ⟨es, hlog, w₂, heval', hlog', hdevices'⟩ := evalPartial_rest htokens hdevices heval
  rw [hlog, sockets_append] at hsent
  rw [hlog, actions_append] at hacts
  refine ⟨w₂, heval', ?_, ?_, hdevices'⟩
  · rw [hlog', sockets_append, List.append_cancel_left hsent]
  · rw [hlog', actions_append, List.append_cancel_left hacts]

lemma ends_pure (hd : w.devices = d) : Ends nVata others (pure a) w a [] [] d :=
  ⟨w, rfl, by simp, by simp, hd⟩

/-- What comes after a program sees its value and the devices that it leaves. -/
lemma ends_bind {p : Method α} {f : α → Method β} (hp : Ends nVata others p w a ms acts d)
    (hf : ∀ w' : World, w'.devices = d → Ends nVata others (f a) w' b ms' acts' d') :
    Ends nVata others (p >>= f) w b (ms ++ ms') (acts ++ acts') d' := by
  obtain ⟨w₁, heval, hsent, hacts, hdevices⟩ := hp
  obtain ⟨w₂, heval', hsent', hacts', rfl⟩ := hf w₁ hdevices
  refine ⟨w₂, ?_, ?_, ?_, rfl⟩
  · rw [evalPartial_bind, heval]
    exact heval'
  · rw [hsent', hsent, List.map_append, List.append_assoc]
  · rw [hacts', hacts, List.append_assoc]

/-- What comes after a program only returns something. -/
lemma ends_bind_pure {p : Method α} {g : α → β} (hp : Ends nVata others p w a ms acts d) :
    Ends nVata others (p >>= fun a => pure (g a)) w (g a) ms acts d := by
  have hend : Ends nVata others (p >>= fun a => pure (g a)) w (g a) (ms ++ []) (acts ++ []) d :=
    ends_bind hp fun _ hdevices => ends_pure hdevices
  rwa [List.append_nil, List.append_nil] at hend

lemma ends_of_bind_pure {p : Method α}
    (h : Ends nVata others (p >>= fun a => pure a) w a ms acts d) :
    Ends nVata others p w a ms acts d := by
  obtain ⟨w', heval, hrest⟩ := h
  rw [evalPartial_bind] at heval
  obtain ⟨⟨a', w₁⟩, hp, hpure⟩ := Option.bind_eq_some_iff.mp heval
  obtain ⟨rfl, rfl⟩ := Prod.mk.inj (Option.some.inj hpure)
  exact ⟨_, hp, hrest⟩

/-- What comes after a program replies for it. -/
lemma ends_bind_reply {p : Method α} {f : α → Method β} (hp : Ends nVata others p w a [] acts d)
    (hf : ∀ w' : World, w'.devices = d → Ends nVata others (f a) w' b ms [] d) :
    Ends nVata others (p >>= f) w b ms acts d := by
  have hend := ends_bind hp hf
  rwa [List.nil_append, List.append_nil] at hend

/-- A call whose answer is known, and what comes after it. -/
lemma ends_call {o : Call} {f : o.Answer → Method β} {ans : o.Answer}
    (hanswer : answer nVata others o w.tokens w.devices = some (ans, d))
    (hsent : (socketEvent ⟨o, ans⟩).toList = ms.map .send)
    (hacts : (action ⟨o, ans⟩).toList = acts)
    (hf : ∀ w' : World, w'.tokens = Machine.tokensAfter o w.tokens → w'.devices = d →
      Ends nVata others (f ans) w' b ms' acts' d') :
    Ends nVata others (Program.perform o >>= f) w b (ms ++ ms') (acts ++ acts') d' := by
  have hlog : (w.after o ans d).log = w.log ++ [⟨o, ans⟩] := rfl
  have hsockets : sockets [⟨o, ans⟩] = (socketEvent ⟨o, ans⟩).toList := by
    rw [sockets, List.filterMap_cons]
    cases socketEvent ⟨o, ans⟩ <;> rfl
  have hactions : actions [⟨o, ans⟩] = (action ⟨o, ans⟩).toList := by
    rw [actions, List.filterMap_cons]
    cases action ⟨o, ans⟩ <;> rfl
  obtain ⟨w₁, heval, hsent', hacts', hdevices⟩ := hf (w.after o ans d) rfl rfl
  refine ⟨w₁, ?_, ?_, ?_, hdevices⟩
  · rw [Program.perform_bind, evalPartial_call, world, hanswer]
    exact heval
  · rw [hsent', hlog, sockets_append, hsockets, hsent, List.map_append, List.append_assoc]
  · rw [hacts', hlog, actions_append, hactions, hacts, List.append_assoc]

/-- A message, and what comes after it. -/
lemma ends_send {msg : List Byte} {f : Unit → Method β}
    (hf : ∀ w' : World, w'.devices = w.devices → Ends nVata others (f ()) w' b ms acts d) :
    Ends nVata others (Method.send msg >>= f) w b (msg :: ms) acts d := by
  have hend : Ends nVata others (Method.send msg >>= f) w b ([msg] ++ ms) ([] ++ acts) d :=
    ends_call rfl rfl rfl fun w' _ hdevices => hf w' hdevices
  exact hend

/-- The last message and the value after it. -/
lemma ends_send_pure {msg : List Byte} (hd : w.devices = d) :
    Ends nVata others (Method.send msg >>= fun _ => pure b) w b [msg] [] d :=
  ends_send fun _ hdevices => ends_pure (hdevices.trans hd)

/-- A call that sends nothing and is no action. -/
lemma ends_quiet {o : Call} {f : o.Answer → Method β} {ans : o.Answer}
    (hanswer : answer nVata others o w.tokens w.devices = some (ans, d))
    (hsent : socketEvent ⟨o, ans⟩ = none) (hacts : action ⟨o, ans⟩ = none)
    (hf : ∀ w' : World, w'.tokens = Machine.tokensAfter o w.tokens → w'.devices = d →
      Ends nVata others (f ans) w' b ms acts d') :
    Ends nVata others (Program.perform o >>= f) w b ms acts d' := by
  have hend : Ends nVata others (Program.perform o >>= f) w b ([] ++ ms) ([] ++ acts) d' :=
    ends_call hanswer (by rw [hsent]; rfl) (by rw [hacts]; rfl) hf
  exact hend

/-- A call that is an action. -/
lemma ends_act {o : Call} {f : o.Answer → Method β} {ans : o.Answer}
    (hanswer : answer nVata others o w.tokens w.devices = some (ans, d))
    (hsent : socketEvent ⟨o, ans⟩ = none) (hacts : action ⟨o, ans⟩ = some o)
    (hf : ∀ w' : World, w'.tokens = Machine.tokensAfter o w.tokens → w'.devices = d →
      Ends nVata others (f ans) w' b ms acts d') :
    Ends nVata others (Program.perform o >>= f) w b ms (o :: acts) d' := by
  have hend : Ends nVata others (Program.perform o >>= f) w b ([] ++ ms) ([o] ++ acts) d' :=
    ends_call hanswer (by rw [hsent]; rfl) (by rw [hacts]; rfl) hf
  exact hend

/-! ### The methods of the drivers -/

/-- `CalCtrl` refuses nothing. -/
lemma calMethod_ret (a : CalAction) (m : ℕ → BitVec 32) : (a.method.eval registers m).1 = 0 := by
  cases a <;> simp [CalAction.method, Cal.CalCtrl.nPulses, Cal.CalCtrl.startInfPulses,
    Cal.CalCtrl.stopInfPulses]

lemma ends_cal {a : CalAction} {f : ℤ → Method β}
    (hf : ∀ w' : World, w'.devices = w.devices.afterCal a →
      Ends nVata others (f 0) w' b ms acts d) :
    Ends nVata others (Method.cal a >>= f) w b ms (.cal a :: acts) d := by
  refine ends_act rfl rfl ?_ fun w' _ hdevices => ?_
  · exact if_pos (calMethod_ret a _)
  · rw [calMethod_ret]
    exact hf w' hdevices

lemma ends_dac {a : DacAction} {f : ℤ → Method β}
    (hret : (a.method.eval registers w.devices.dac).1 = 0)
    (hf : ∀ w' : World, w'.devices = w.devices.afterDac a →
      Ends nVata others (f 0) w' b ms acts d) :
    Ends nVata others (Method.dac a >>= f) w b ms (.dac a :: acts) d := by
  refine ends_act rfl rfl ?_ fun w' _ hdevices => ?_
  · exact if_pos hret
  · rw [hret]
    exact hf w' hdevices

/-- A method of `DacCtrl` that refuses its argument is no action. -/
lemma ends_dac_refused {a : DacAction} {f : ℤ → Method β}
    (hrun : a.method.eval registers w.devices.dac = (1, w.devices.dac))
    (hf : ∀ w' : World, w'.devices = w.devices → Ends nVata others (f 1) w' b ms acts d) :
    Ends nVata others (Method.dac a >>= f) w b ms acts d := by
  have hsame : w.devices.afterDac a = w.devices := by rw [Devices.afterDac, hrun]
  refine ends_quiet rfl rfl ?_ fun w' _ hdevices => ?_
  · rw [action, hrun]
    rfl
  · rw [hrun]
    exact hf w' (hdevices.trans hsame)

lemma ends_sync {a : SyncAction} {f : ℤ → Method β}
    (hret : ((a.method nVata).eval registers w.devices.sync).1 = 0)
    (hf : ∀ w' : World, w'.devices = w.devices.afterSync nVata a →
      Ends nVata others (f 0) w' b ms acts d) :
    Ends nVata others (Method.sync a >>= f) w b ms (.sync a :: acts) d := by
  refine ends_act rfl rfl ?_ fun w' _ hdevices => ?_
  · exact if_pos hret
  · rw [hret]
    exact hf w' hdevices

/-- A method of `SyncCtrl` that refuses its argument is no action. -/
lemma ends_sync_refused {a : SyncAction} {f : ℤ → Method β}
    (hrun : (a.method nVata).eval registers w.devices.sync = (1, w.devices.sync))
    (hf : ∀ w' : World, w'.devices = w.devices → Ends nVata others (f 1) w' b ms acts d) :
    Ends nVata others (Method.sync a >>= f) w b ms acts d := by
  have hsame : w.devices.afterSync nVata a = w.devices := by rw [Devices.afterSync, hrun]
  refine ends_quiet rfl rfl ?_ fun w' _ hdevices => ?_
  · rw [action, hrun]
    rfl
  · rw [hrun]
    exact hf w' (hdevices.trans hsame)

end Ends

/-! ## Tokens -/

namespace LayerServer

open Method

/-- What `strtok` leaves of a token is read to its end only if it is a number. -/
lemma notParsed_iff {s t : List Byte} (ht : t ∈ tokens s) :
    notParsed (strtol 0 t).2 = true ↔ number t = none := by
  cases hnumber : number t with
  | some n => simp [strtol_of_number hnumber, notParsed]
  | none =>
      have hrest := strtol_of_not_number (ne_nil_of_mem_tokens ht) hnumber
      have hspace : (strtol 0 t).2.head? ≠ some 32#8 := fun hhead =>
        not_mem_of_mem_tokens ht ((strtol_suffix t).subset (List.mem_of_mem_head? hhead))
      simp [notParsed, hrest, hspace]

/-- The number of an argument is the nearest `int`, or `-1`. -/
lemma positiveInt_eq {s t : List Byte} (ht : t ∈ tokens s) :
    positiveInt t = (number t).elim (-1) clampLong := by
  rw [positiveInt]
  cases hnumber : number t with
  | some n =>
      have hparsed : ¬ notParsed (strtol 0 t).2 = true := by simp [notParsed_iff ht, hnumber]
      rw [if_neg hparsed, strtol_of_number hnumber]
      rfl
  | none =>
      rw [if_pos ((notParsed_iff ht).mpr hnumber)]
      rfl

section Tokens

variable {α : Type} {nVata : ℕ} {others : (o : Call) → Option o.Answer} {w : World} {a : α}
  {ms : List (List Byte)} {acts : List Call} {d : Devices}

/-- The next token. -/
lemma ends_strtok {f : Option Token → Method α}
    (hf : ∀ w' : World, w'.tokens = w.tokens.tail → w'.devices = w.devices →
      Ends nVata others (f w.tokens.head?) w' a ms acts d) :
    Ends nVata others (strtok none >>= f) w a ms acts d :=
  ends_quiet rfl rfl rfl hf

/-- The number of a command. -/
lemma ends_parse {f : ℤ × Option Token → Method α}
    (hf : ∀ w' : World, w'.tokens = w.tokens.tail → w'.devices = w.devices →
      Ends nVata others (f (parsed w.tokens.head?)) w' a ms acts d) :
    Ends nVata others (parsePositiveInt >>= f) w a ms acts d := by
  rw [parsePositiveInt, Program.bind_assoc]
  refine ends_strtok fun w' htokens hdevices => ?_
  have hrest := hf w' htokens hdevices
  cases hhead : w.tokens.head? with
  | none =>
      rw [hhead] at hrest
      exact hrest
  | some arg =>
      rw [hhead] at hrest
      exact hrest

/-- The second token of a message, if there is one. -/
lemma ends_secondToken {msg : List Byte} {cmd : Token} {ts : List Token} {f : Token → Method α}
    (htokens : (tokens msg).tail = cmd :: ts)
    (hf : ∀ w' : World, w'.tokens = ts → w'.devices = w.devices →
      Ends nVata others (f cmd) w' a ms acts d) :
    Ends nVata others (secondToken msg >>= f) w a ms acts d := by
  rw [secondToken, Program.bind_assoc]
  refine ends_quiet rfl rfl rfl fun w₁ htail hdevices => ?_
  replace htail : w₁.tokens = cmd :: ts := htail.trans htokens
  rw [Program.bind_assoc]
  refine ends_strtok fun w₂ htail' hdevices' => ?_
  rw [htail]
  refine hf w₂ ?_ (hdevices'.trans hdevices)
  rw [htail', htail]
  rfl

/-- Without one there is no end. -/
lemma not_ends_secondToken {msg : List Byte} {f : Token → Method α}
    (htokens : (tokens msg).tail = []) :
    ¬ Ends nVata others (secondToken msg >>= f) w a ms acts d := by
  rintro ⟨w', heval, -⟩
  have hexec := exec_of_world heval
  obtain ⟨cmd, t, hsecond, -⟩ := exec_bind.mp hexec
  obtain ⟨hcmd, -⟩ := exec_secondToken hsecond
  rw [htokens] at hcmd
  exact absurd hcmd (by simp)

lemma not_ends_dispatcher {β : Type} {msg : List Byte} {f : Token → Method β} {g : β → Method α}
    (htokens : (tokens msg).tail = []) :
    ¬ Ends nVata others (secondToken msg >>= f >>= g) w a ms acts d := by
  rw [Program.bind_assoc]
  exact not_ends_secondToken htokens

/-! ### Requests with a second token -/

variable {srv : LayerServer} {request : List Byte} {cmd : Token} {ts : List Token}

/-- A dispatcher does what its command does with the tokens after the second one. -/
lemma ends_dispatcher {β : Type} {f : Token → Method β} {b : β} {g : β → α}
    (htokens : (tokens (ofBuffer request)).tail = cmd :: ts)
    (h : Ends nVata others (f cmd) (w.rest ts) b ms acts d) :
    Ends nVata others (secondToken (ofBuffer request) >>= f >>= fun b => pure (g b)) w (g b)
      ms acts d :=
  ends_bind_pure (ends_secondToken htokens fun _ htokens' hdevices => h.of_same htokens' hdevices)

lemma ends_emit {r : ℤ × Bool} (hgroup : lookup groupTable (ofBuffer request) = some .emit)
    (htokens : (tokens (ofBuffer request)).tail = cmd :: ts)
    (h : Ends nVata others (emitCommand srv.dataEmitterRunning (lookup emitTable cmd))
      (w.rest ts) r ms acts d) :
    Ends nVata others (handle nVata srv request) w (r.1, { srv with dataEmitterRunning := r.2 })
      ms acts d := by
  rw [handle, hgroup]
  exact ends_dispatcher htokens h

lemma ends_calMsg {r : ℤ × CalCtrl} (hgroup : lookup groupTable (ofBuffer request) = some .cal)
    (htokens : (tokens (ofBuffer request)).tail = cmd :: ts)
    (h : Ends nVata others (calCommand srv.calctrl (lookup calTable cmd)) (w.rest ts) r ms acts d) :
    Ends nVata others (handle nVata srv request) w (r.1, { srv with calctrl := r.2 })
      ms acts d := by
  rw [handle, hgroup]
  exact ends_dispatcher htokens h

lemma ends_dacMsg {ret : ℤ} (hgroup : lookup groupTable (ofBuffer request) = some .dac)
    (htokens : (tokens (ofBuffer request)).tail = cmd :: ts)
    (h : Ends nVata others (dacCommand (lookup dacTable cmd)) (w.rest ts) ret ms acts d) :
    Ends nVata others (handle nVata srv request) w (ret, srv) ms acts d := by
  rw [handle, hgroup]
  exact ends_dispatcher htokens h

lemma ends_syncMsg {ret : ℤ} (hgroup : lookup groupTable (ofBuffer request) = some .sync)
    (htokens : (tokens (ofBuffer request)).tail = cmd :: ts)
    (h : Ends nVata others (syncCommand (lookup syncTable cmd)) (w.rest ts) ret ms acts d) :
    Ends nVata others (handle nVata srv request) w (ret, srv) ms acts d := by
  rw [handle, hgroup]
  exact ends_dispatcher htokens h

end Tokens

end LayerServer

end TrackerFpga.Server
