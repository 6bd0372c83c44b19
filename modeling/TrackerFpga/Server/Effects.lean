import TrackerFpga.Server.Accepts

/-!
# What a request leaves

The registers of the calibrator, the DACs and the synchroniser are after a program what the actions
make of them that it performed (`actions_of_evalPartial`), and so are the fields of the server after
a request (`leaves_handle`).  Every request but `halt` returns a status, with which the loop of the
server goes on (`status_handle`).
-/

namespace TrackerFpga.Server

open ByteCodec CString Interaction Mapped

/-! ## What actions do -/

/-- The registers behind the drivers of the calibrator, the DACs and the synchroniser. -/
structure Cores where
  cal : ℕ → BitVec 32
  dac : ℕ → BitVec 32
  sync : ℕ → BitVec 32

/-- These registers of the devices. -/
def Devices.cores (d : Devices) : Cores := ⟨d.cal, d.dac, d.sync⟩

/-- The registers after an action. -/
def Cores.after (nVata : ℕ) (c : Cores) : Call → Cores
  | .cal a => { c with cal := (a.method.eval registers c.cal).2 }
  | .dac a => { c with dac := (a.method.eval registers c.dac).2 }
  | .sync a => { c with sync := ((a.method nVata).eval registers c.sync).2 }
  | _ => c

/-- The fields of the server after a call. -/
def LayerServer.after (srv : LayerServer) : Call → LayerServer
  | .cal (.writeSettings settings) => { srv with calctrl := settings }
  | .inprocSend msg => { srv with dataEmitterRunning := decide (msg = bytes "start") }
  | _ => srv

section Actions

variable {α : Type} {nVata : ℕ} {others : (o : Call) → Option o.Answer} {w w' : World} {a : α}
  {p : Method α}

/-- A method of `DacCtrl` that refuses its argument writes nothing. -/
lemma dacMethod_refused {a : DacAction} {m : ℕ → BitVec 32}
    (h : (a.method.eval registers m).1 ≠ 0) : (a.method.eval registers m).2 = m := by
  cases a with
  | setDelay delay =>
      by_cases hdelay : Dac.DacCtrl.maxDelay < delay <;>
        simp_all [Dac.DacCtrl.Call.method, Dac.DacCtrl.setDelay]
  | setCounts side choice counts =>
      by_cases hcounts : Dac.DacCtrl.maxInput < counts <;>
        simp_all [Dac.DacCtrl.Call.method, Dac.DacCtrl.setCounts]

/-- Nor does one of `SyncCtrl`. -/
lemma syncMethod_refused {a : SyncAction} {m : ℕ → BitVec 32}
    (h : ((a.method nVata).eval registers m).1 ≠ 0) :
    ((a.method nVata).eval registers m).2 = m := by
  have hasic : ∀ ena n, (((LayerServer.asicHitAction ena n).method nVata).eval registers m).1 ≠ 0 →
      (((LayerServer.asicHitAction ena n).method nVata).eval registers m).2 = m := by
    intro ena n hret
    rw [LayerServer.asicHit_eval] at hret ⊢
    split_ifs at hret ⊢
    · exact absurd rfl hret
    · rfl
  cases a with
  | asicHitEnable n => exact hasic true n h
  | asicHitDisable n => exact hasic false n h
  | _ => exact absurd rfl h

/-- A call that is answered by `others` leaves the devices. -/
lemma devices_of_others {β : Type} {r : Option β} {b : β} {d d' : Devices}
    (h : r.map (fun b => (b, d)) = some (b, d')) : d' = d := by
  obtain ⟨b', -, heq⟩ := Option.map_eq_some_iff.mp h
  exact (Prod.mk.inj heq).2.symm

/-- The registers after one call. -/
lemma cores_of_answer {o : Call} {ts : List Token} {d d' : Devices} {ans : o.Answer}
    (h : answer nVata others o ts d = some (ans, d')) :
    d'.cores = (actions [⟨o, ans⟩]).foldl (Cores.after nVata) d.cores := by
  cases o with
  | cal a =>
      obtain ⟨rfl, rfl⟩ := Prod.mk.inj (Option.some.inj h)
      have haction : action ⟨.cal a, (a.method.eval registers d.cal).1⟩ = some (.cal a) :=
        if_pos (calMethod_ret a _)
      simp only [actions, List.filterMap_cons, haction]
      rfl
  | dac a =>
      obtain ⟨rfl, rfl⟩ := Prod.mk.inj (Option.some.inj h)
      by_cases hret : (a.method.eval registers d.dac).1 = 0
      · have haction : action ⟨.dac a, (a.method.eval registers d.dac).1⟩ = some (.dac a) :=
          if_pos hret
        simp only [actions, List.filterMap_cons, haction]
        rfl
      · have haction : action ⟨.dac a, (a.method.eval registers d.dac).1⟩ = none := if_neg hret
        simp only [actions, List.filterMap_cons, haction]
        simp [Devices.cores, Devices.afterDac, dacMethod_refused hret]
  | sync a =>
      obtain ⟨rfl, rfl⟩ := Prod.mk.inj (Option.some.inj h)
      by_cases hret : ((a.method nVata).eval registers d.sync).1 = 0
      · have haction : action ⟨.sync a, ((a.method nVata).eval registers d.sync).1⟩ =
            some (.sync a) := if_pos hret
        simp only [actions, List.filterMap_cons, haction]
        rfl
      · have haction : action ⟨.sync a, ((a.method nVata).eval registers d.sync).1⟩ = none :=
          if_neg hret
        simp only [actions, List.filterMap_cons, haction]
        simp [Devices.cores, Devices.afterSync, syncMethod_refused hret]
  | strtok s => cases s <;> rw [← (Prod.mk.inj (Option.some.inj h)).2] <;> rfl
  | vata n v =>
      cases v with
      | setHoldDelay delay =>
          rw [← (Prod.mk.inj (Option.some.inj h)).2]
          rfl
      | _ =>
          rw [devices_of_others h]
          rfl
  | vataQuery n q =>
      cases q with
      | getHoldDelay =>
          rw [← (Prod.mk.inj (Option.some.inj h)).2]
          rfl
      | _ =>
          rw [devices_of_others h]
          rfl
  | send | dacQuery | syncCounter | isGlobalHitEnabled | asicHitDisableMask | inprocSend
  | joinEmitter =>
      rw [← (Prod.mk.inj (Option.some.inj h)).2]
      rfl
  | _ =>
      rw [devices_of_others h]
      rfl

/-- The fields of the server change with the actions. -/
lemma server_of_answer {o : Call} {ts : List Token} {d d' : Devices} {ans : o.Answer}
    (h : answer nVata others o ts d = some (ans, d')) (srv : LayerServer) :
    srv.after o = (actions [⟨o, ans⟩]).foldl LayerServer.after srv := by
  cases o with
  | cal a =>
      obtain ⟨rfl, rfl⟩ := Prod.mk.inj (Option.some.inj h)
      have haction : action ⟨.cal a, (a.method.eval registers d.cal).1⟩ = some (.cal a) :=
        if_pos (calMethod_ret a _)
      simp only [actions, List.filterMap_cons, haction]
      rfl
  | dac a => by_cases hret : (ans : ℤ) = 0 <;> simp [actions, action, hret, LayerServer.after]
  | sync a => by_cases hret : (ans : ℤ) = 0 <;> simp [actions, action, hret, LayerServer.after]
  | _ => rfl

/-- **The actions** make the registers what they are, and the fields of the server. -/
lemma actions_of_evalPartial (h : p.evalPartial (world nVata others) w = some (a, w')) :
    ∃ es, w'.log = w.log ++ es ∧
      w'.devices.cores = (actions es).foldl (Cores.after nVata) w.devices.cores ∧
      ∀ {good : α → LayerServer → Prop} {srv : LayerServer},
        Tracks (fun o _ srv => LayerServer.after srv o) good p srv →
          good a ((actions es).foldl LayerServer.after srv) := by
  induction p generalizing w with
  | done b =>
      obtain ⟨rfl, rfl⟩ := Prod.mk.inj (Option.some.inj h)
      exact ⟨[], by simp, rfl, id⟩
  | call o next ih =>
      obtain ⟨⟨ans, t⟩, hstep, hrest⟩ := Option.bind_eq_some_iff.mp h
      obtain ⟨⟨ans', d'⟩, hanswer, hafter⟩ := Option.map_eq_some_iff.mp hstep
      obtain ⟨rfl, rfl⟩ := Prod.mk.inj hafter
      obtain ⟨es, hlog, hcores, hserver⟩ := ih ans' hrest
      refine ⟨⟨o, ans'⟩ :: es, ?_, ?_, fun {good srv} htracks => ?_⟩
      · rw [hlog]
        exact List.append_assoc _ _ _
      · rw [hcores, ← List.singleton_append, actions_append, List.foldl_append,
          ← cores_of_answer hanswer]
        rfl
      · rw [← List.singleton_append, actions_append, List.foldl_append,
          ← server_of_answer hanswer]
        exact hserver (htracks ans')

end Actions

/-! ## The fields of the server -/

namespace LayerServer

open Method

/-- The fields of the server after a call that was answered. -/
abbrev track (o : Call) (_ : o.Answer) (srv : LayerServer) : LayerServer := srv.after o

/-- The calls that change the fields. -/
inductive Changes : Call → Prop
  | settings (settings : CalCtrl) : Changes (.cal (.writeSettings settings))
  | emitter (msg : List Byte) : Changes (.inprocSend msg)

section Track

variable {nVata nvata : ℕ} {srv : LayerServer} {calctrl : CalCtrl} {running : Bool}

lemma track_of_not_changes {o : Call} (ho : ¬ Changes o) (ans : o.Answer) (srv : LayerServer) :
    track o ans srv = srv := by
  cases o with
  | cal a =>
      cases a with
      | writeSettings settings => exact absurd (.settings settings) ho
      | _ => rfl
  | inprocSend msg => exact absurd (.emitter msg) ho
  | _ => rfl

/-- The program leaves the server with `g`. -/
abbrev LeavesServer {α : Type} (p : Method α) (g : α → LayerServer) (srv : LayerServer) : Prop :=
  Tracks track (fun a s => g a = s) p srv

lemma leaves_emitCommand {command : Option EmitCommand} :
    LeavesServer (emitCommand srv.dataEmitterRunning command)
      (fun r => { srv with dataEmitterRunning := r.2 }) srv := by
  obtain ⟨calctrl, running⟩ := srv
  rcases command with - | c
  · simp [LeavesServer, emitCommand, sendMsg, send, track, after]
  cases c <;> cases running <;>
    simp [LeavesServer, emitCommand, sendMsg, send, track, after, startPacketEmitter,
      stopPacketEmitter, inprocSend, bytes]

lemma leaves_calReply {command : Method (ℤ × CalCtrl)} {retmsg : String}
    (h : LeavesServer command (fun r => { srv with calctrl := r.2 }) srv) :
    LeavesServer (calReply command retmsg) (fun r => { srv with calctrl := r.2 }) srv := by
  refine Tracks.bind (h.mono fun r s hs => ?_)
  simp [sendMsg, send, track, after, hs]

lemma tracks_parse {α : Type} {good : α → LayerServer → Prop} {f : ℤ × Option Token → Method α}
    (hf : ∀ r, Tracks track good (f r) srv) : Tracks track good (parsePositiveInt >>= f) srv := by
  refine Tracks.bind (Tracks.bind fun cmd => ?_)
  cases cmd <;> exact hf _

lemma leaves_calCommand {command : Option CalCommand} :
    LeavesServer (calCommand srv.calctrl command) (fun r => { srv with calctrl := r.2 }) srv := by
  rcases command with - | c
  · simp [LeavesServer, calCommand, sendMsg, send, track, after]
  cases c with
  | nPulses =>
      refine Tracks.bind (tracks_parse fun r => ?_)
      simp [cal, sendMsg, send, track, after]
      exact fun _ _ _ => rfl
  | startInf => exact leaves_calReply (by simp [LeavesServer, cal, track, after])
  | stopInf => exact leaves_calReply (by simp [LeavesServer, cal, track, after])
  | _ =>
      refine leaves_calReply (tracks_parse fun r => ?_)
      simp [cal, track, after]

/-- The commands of `dac` change no field. -/
lemma leaves_dacCommand {command : Option DacCommand} :
    LeavesServer (dacCommand command) (fun _ => srv) srv := by
  have hreply : ∀ {p : Method ℤ} {unparsed outOfRange : String},
      LeavesServer p (fun _ => srv) srv →
        LeavesServer (dacReply p unparsed outOfRange) (fun _ => srv) srv := by
    intro p unparsed outOfRange hp
    refine Tracks.bind (hp.mono fun ret s hs => ?_)
    simp [sendMsg, send, track, after, hs]
  rcases command with - | c
  · simp [LeavesServer, dacCommand, sendMsg, send, track, after]
  cases c with
  | setDelay =>
      refine hreply (Tracks.bind fun arg => ?_)
      cases arg <;> simp [dac, track, after]
  | setCounts =>
      refine hreply (Tracks.bind fun side => ?_)
      cases side with
      | none => simp [track, after]
      | some side =>
          refine Tracks.bind fun choice => ?_
          cases choice with
          | none => simp [track, after]
          | some choice =>
              refine Tracks.bind fun count => ?_
              cases count with
              | none => simp [track, after]
              | some count =>
                  show Tracks track _ (dacCounts side choice count) srv
                  rw [dacCounts]
                  cases parseSilayerSide side with
                  | none => rfl
                  | some side => cases parseDacChoice choice <;> simp [dac, track, after]
  | _ => simp [LeavesServer, dacCommand, dacGetDelay, dacGetInput, dacSend, dacQuery, send, track,
      after]

/-- Nor do those of `sync`. -/
lemma leaves_syncCommand {command : Option SyncCommand} :
    LeavesServer (syncCommand command) (fun _ => srv) srv := by
  have hasic : ∀ f : ℤ → SyncAction,
      LeavesServer (syncReply (syncSetAsicHitEnable f)) (fun _ => srv) srv := by
    intro f
    refine Tracks.bind (tracks_parse fun r => ?_)
    simp [sync, sendMsg, send, track, after]
  rcases command with - | c
  · simp [LeavesServer, syncCommand, sendMsg, send, track, after]
  cases c with
  | asicHitEnable => exact hasic _
  | asicHitDisable => exact hasic _
  | _ => simp [LeavesServer, syncCommand, syncThenOk, syncGetCounter, syncGetGlobalHitEnable,
      syncGetAsicHitDisableMask, sync, syncCounter, isGlobalHitEnabled, asicHitDisableMask, sendMsg,
      send, track, after]

lemma leaves_secondToken {msg : List Byte} :
    LeavesServer (secondToken msg) (fun _ => srv) srv := by
  refine Tracks.bind fun _ => Tracks.bind fun cmd => ?_
  cases cmd with
  | none => exact fun ans => ans.elim
  | some cmd => rfl

lemma leaves_processVataMsg {msg : List Byte} :
    LeavesServer (processVataMsg nVata msg) (fun _ => srv) srv := by
  have hnever : Never Changes (processVataMsg nVata msg) := by
    refine never_processVataMsg (fun o ho hchange => ?_) ?_
    · cases hchange <;> cases ho
    · rintro ⟨⟩
  exact (hnever.tracks fun _ => track_of_not_changes).mono fun _ _ hs => hs.symm

/-- **The server** after a request is what the calls make of it. -/
lemma leaves_handle {request : List Byte} :
    LeavesServer (handle nVata srv request) (fun r => r.2) srv := by
  have hdispatch : ∀ {α β : Type} {f : Token → Method α} {g : α → β} {h : β → LayerServer},
      (∀ cmd, LeavesServer (f cmd) (fun a => h (g a)) srv) →
        LeavesServer (secondToken (ofBuffer request) >>= f >>= fun a => pure (g a)) h srv := by
    intro α β f g h hf
    refine Tracks.bind (Tracks.bind (leaves_secondToken.mono ?_))
    rintro cmd _ rfl
    exact hf cmd
  rw [handle]
  cases lookup groupTable (ofBuffer request) with
  | none => simp [LeavesServer, sendCouldNotProcessMsg, sendMsg, send, track, after]
  | some group =>
      cases group with
      | emit => exact hdispatch fun cmd => leaves_emitCommand
      | cal => exact hdispatch fun cmd => leaves_calCommand
      | dac => exact hdispatch fun cmd => leaves_dacCommand
      | sync => exact hdispatch fun cmd => leaves_syncCommand
      | vata => exact Tracks.bind leaves_processVataMsg
      | getNVata => simp [LeavesServer, send, track, after]
      | halt =>
          simp [LeavesServer, killPacketEmitter, inprocSend, joinEmitter, track, after, bytes]

/-! ## Return values -/

/-- What a handled request other than `halt` returns. -/
def IsStatus (ret : ℤ) : Prop := 0 ≤ ret ∧ ret ≤ 3

/-- The program returns a status. -/
abbrev ReturnsStatus {α : Type} (p : Method α) (ret : α → ℤ) : Prop :=
  Tracks (fun _ _ u => u) (fun a _ => IsStatus (ret a)) p ()

lemma status_orError {p : Method ℤ} {retmsg : String} : ReturnsStatus (orError p retmsg) id := by
  refine tracks_bind_of_forall fun ret _ => ?_
  simp [sendMsg, send, IsStatus]

lemma status_ignoring {p : Method ℤ} : ReturnsStatus (ignoring p) id :=
  tracks_bind_of_forall fun _ _ => by simp [IsStatus]

lemma status_vataCommand {command : Option VataCommand} :
    ReturnsStatus (vataCommand nvata command) id := by
  rcases command with - | c
  · simp [ReturnsStatus, vataCommand, sendMsg, send, IsStatus]
  cases c with
  | setConfigBinary =>
      refine tracks_bind_of_forall fun _ _ => tracks_bind_of_forall fun received _ => ?_
      rw [tracks_ite]
      refine ⟨fun _ => tracks_bind_of_forall fun msg _ => ?_, fun _ => by simp [IsStatus]⟩
      rw [applyConfig]
      simp [sendMsg, send, setCheckConfig, IsStatus]
  | getConfigBinary =>
      simp [ReturnsStatus, vataCommand, getConfigBinary, vataGetConfig, send, IsStatus]
  | fsmIdle => simp [ReturnsStatus, vataCommand, fsmIdle, vata, sendMsg, send, IsStatus]
  | setConfig | getConfig | setHold | getHold | getCounters | resetCounters => exact status_orError
  | triggerEnableBit | triggerDisableBit | triggerEnableAsic | triggerDisableAsic =>
      exact status_orError
  | getEventCount | resetEventCount | getNFifo => exact status_orError
  | _ => exact status_ignoring

lemma status_processVataMsg {msg : List Byte} : ReturnsStatus (processVataMsg nVata msg) id := by
  refine tracks_bind_of_forall fun num _ => ?_
  cases vataNumber nVata num with
  | none => simp [sendCouldNotProcessMsg, sendMsg, send, IsStatus]
  | some nvata =>
      refine tracks_bind_of_forall fun cmd _ => ?_
      cases cmd with
      | none => simp [sendCouldNotProcessMsg, sendMsg, send, IsStatus]
      | some cmd => exact status_vataCommand

lemma status_emitCommand {command : Option EmitCommand} :
    ReturnsStatus (emitCommand running command) Prod.fst := by
  rcases command with - | c
  · simp [ReturnsStatus, emitCommand, sendMsg, send, IsStatus]
  cases c <;> cases running <;>
    simp [ReturnsStatus, emitCommand, sendMsg, send, startPacketEmitter, stopPacketEmitter,
      inprocSend, IsStatus]

lemma status_calCommand {command : Option CalCommand} :
    ReturnsStatus (calCommand calctrl command) Prod.fst := by
  rcases command with - | c
  · simp [ReturnsStatus, calCommand, sendMsg, send, IsStatus]
  cases c with
  | nPulses =>
      refine tracks_bind_of_forall fun ret _ => ?_
      simp [sendMsg, send, IsStatus]
  | _ =>
      refine tracks_bind_of_forall fun r _ => ?_
      simp [sendMsg, send, IsStatus]

lemma status_dacCommand {command : Option DacCommand} : ReturnsStatus (dacCommand command) id := by
  rcases command with - | c
  · simp [ReturnsStatus, dacCommand, sendMsg, send, IsStatus]
  cases c with
  | setDelay | setCounts =>
      refine tracks_bind_of_forall fun ret _ => ?_
      simp [sendMsg, send, IsStatus]
  | getDelay | getInput =>
      simp [ReturnsStatus, dacCommand, dacGetDelay, dacGetInput, dacSend, dacQuery, send, IsStatus]

lemma status_syncCommand {command : Option SyncCommand} :
    ReturnsStatus (syncCommand command) id := by
  rcases command with - | c
  · simp [ReturnsStatus, syncCommand, sendMsg, send, IsStatus]
  cases c with
  | asicHitEnable | asicHitDisable =>
      refine tracks_bind_of_forall fun ret _ => ?_
      simp [sendMsg, send, IsStatus]
  | _ => simp [ReturnsStatus, syncCommand, syncThenOk, syncGetCounter, syncGetGlobalHitEnable,
      syncGetAsicHitDisableMask, sync, syncCounter, isGlobalHitEnabled, asicHitDisableMask, sendMsg,
      send, IsStatus]

/-- A `halt` returns the exit code. -/
lemma exits_handle {request : List Byte} (hhalt : IsHalt request) :
    Tracks (fun _ _ u => u) (fun r _ => r.1 = exitReqRecvCode) (handle nVata srv request) () := by
  rw [handle, show lookup groupTable (ofBuffer request) = some .halt from hhalt]
  simp [killPacketEmitter, inprocSend, joinEmitter]

/-- A request that is no `halt` returns a status, and so the loop goes on. -/
lemma status_handle {request : List Byte} (hhalt : ¬ IsHalt request) :
    ReturnsStatus (handle nVata srv request) Prod.fst := by
  have hdispatch : ∀ {α β : Type} {f : Token → Method α} {g : α → β} {ret : β → ℤ},
      (∀ cmd, ReturnsStatus (f cmd) fun a => ret (g a)) →
        ReturnsStatus (secondToken (ofBuffer request) >>= f >>= fun a => pure (g a)) ret :=
    fun hf => Tracks.bind (tracks_bind_of_forall fun cmd _ => hf cmd)
  rw [handle]
  cases hgroup : lookup groupTable (ofBuffer request) with
  | none => simp [ReturnsStatus, sendCouldNotProcessMsg, sendMsg, send, IsStatus]
  | some group =>
      cases group with
      | emit => exact hdispatch fun cmd => status_emitCommand
      | cal => exact hdispatch fun cmd => status_calCommand
      | dac => exact hdispatch fun cmd => status_dacCommand
      | sync => exact hdispatch fun cmd => status_syncCommand
      | vata => exact Tracks.bind status_processVataMsg
      | getNVata => simp [ReturnsStatus, send, IsStatus]
      | halt => exact absurd hgroup hhalt

end Track

end LayerServer

end TrackerFpga.Server
