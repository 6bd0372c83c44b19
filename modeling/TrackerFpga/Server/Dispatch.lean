import TrackerFpga.Server.LayerServer

/-!
# The dispatchers of `LayerServer`

The five groups of commands, each with its table of keywords, and `process_req`.  The commands of
`cal` and `emit` change fields of the server; they return them with their status.
-/

namespace TrackerFpga.Server

open ByteCodec CString Interaction

namespace LayerServer

open Method

/-! ## `emit` -/

/-- The sub-commands of `emit`. -/
inductive EmitCommand
  | status
  | start
  | stop
  deriving DecidableEq

/-- The chain of `_process_emit_msg`. -/
def emitTable : List (Keyword EmitCommand) :=
  [⟨"status", 6, .status⟩, ⟨"start", 5, .start⟩, ⟨"stop", 4, .stop⟩]

/-- `LayerServer::stop_packet_emitter`: `data_emitter_running` after it. -/
def stopPacketEmitter : Method Bool := do
  inprocSend (bytes "stop" ++ [0#8])
  pure false

/-- `LayerServer::start_packet_emitter`: `data_emitter_running` after it. -/
def startPacketEmitter (dataEmitterRunning : Bool) : Method Bool := do
  if dataEmitterRunning then do
    let _ ← stopPacketEmitter
    inprocSend (bytes "start")
    pure true
  else do
    inprocSend (bytes "start")
    pure true

/-- What an `emit` sub-command does: the status, and `data_emitter_running`. -/
def emitCommand (dataEmitterRunning : Bool) : Option EmitCommand → Method (ℤ × Bool)
  | some .status => do
      sendMsg (if dataEmitterRunning then "running" else "stopped")
      pure (0, dataEmitterRunning)
  | some .start =>
      if dataEmitterRunning then do
        sendMsg "ERROR: emitter already running"
        pure (0, dataEmitterRunning)
      else do
        let running ← startPacketEmitter dataEmitterRunning
        sendMsg "ok"
        pure (0, running)
  | some .stop =>
      if !dataEmitterRunning then do
        sendMsg "ERROR: emitter not running"
        pure (0, dataEmitterRunning)
      else do
        let running ← stopPacketEmitter
        sendMsg "ok"
        pure (0, running)
  | none => do
      sendMsg "ERROR: unsupported emit command."
      pure (1, dataEmitterRunning)

/-- The start of every dispatcher: the second token of the message. -/
def secondToken (msg : List Byte) : Method Token := do
  let _ ← strtok (some msg)
  let cmd ← strtok none
  deref cmd

/-- `LayerServer::_process_emit_msg`. -/
def processEmitMsg (dataEmitterRunning : Bool) (msg : List Byte) : Method (ℤ × Bool) := do
  let cmd ← secondToken msg
  emitCommand dataEmitterRunning (lookup emitTable cmd)

/-! ## `cal` -/

/-- The sub-commands of `cal`. -/
inductive CalCommand
  | pulseEna
  | triggerEna
  | fastOrDisable
  | pulseWidth
  | triggerDelay
  | repeatDelay
  | startInf
  | stopInf
  | nPulses
  deriving DecidableEq

/-- The chain of `_process_cal_msg`. -/
def calTable : List (Keyword CalCommand) :=
  [⟨"pulse-ena", 9, .pulseEna⟩, ⟨"trigger-ena", 11, .triggerEna⟩,
    ⟨"fast-or-disable", 15, .fastOrDisable⟩, ⟨"pulse-width", 11, .pulseWidth⟩,
    ⟨"trigger-delay", 13, .triggerDelay⟩, ⟨"repeat-delay", 12, .repeatDelay⟩,
    ⟨"start-inf", 9, .startInf⟩, ⟨"stop-inf", 8, .stopInf⟩, ⟨"n-pulses", 8, .nPulses⟩]

/-- The commands that set a flag of the calibrator: the status, and the settings. -/
def calFlag (calctrl : CalCtrl) (set : Bool → CalCtrl) : Method (ℤ × CalCtrl) := do
  let ena ← parsePositiveInt
  if ena.1 < 0 then
    pure (1, calctrl)
  else if ena.1 = 0 then do
    let _ ← cal (.writeSettings (set false))
    pure (0, set false)
  else if ena.1 = 1 then do
    let _ ← cal (.writeSettings (set true))
    pure (0, set true)
  else
    pure (1, calctrl)

/-- `LayerServer::_cal_pulse_ena`. -/
def calPulseEna (calctrl : CalCtrl) : Method (ℤ × CalCtrl) :=
  calFlag calctrl fun ena => { calctrl with calPulseEna := ena }

/-- `LayerServer::_cal_trigger_ena`. -/
def calTriggerEna (calctrl : CalCtrl) : Method (ℤ × CalCtrl) :=
  calFlag calctrl fun ena => { calctrl with vataTriggerEna := ena }

/-- `LayerServer::_cal_fast_or_disable`. -/
def calFastOrDisable (calctrl : CalCtrl) : Method (ℤ × CalCtrl) :=
  calFlag calctrl fun dis => { calctrl with vataFastOrDisable := dis }

/-- The commands that set a number of the calibrator. -/
def calNumber (calctrl : CalCtrl) (set : BitVec 32 → CalCtrl) : Method (ℤ × CalCtrl) := do
  let n ← parsePositiveInt
  if n.1 < 0 then
    pure (1, calctrl)
  else do
    let _ ← cal (.writeSettings (set (BitVec.ofInt 32 n.1)))
    pure (0, set (BitVec.ofInt 32 n.1))

/-- `LayerServer::_cal_pulse_width`. -/
def calPulseWidth (calctrl : CalCtrl) : Method (ℤ × CalCtrl) :=
  calNumber calctrl fun n => { calctrl with calPulseWidth := n }

/-- `LayerServer::_cal_trigger_delay`. -/
def calTriggerDelay (calctrl : CalCtrl) : Method (ℤ × CalCtrl) :=
  calNumber calctrl fun n => { calctrl with vataTriggerDelay := n }

/-- `LayerServer::_cal_repeat_delay`. -/
def calRepeatDelay (calctrl : CalCtrl) : Method (ℤ × CalCtrl) :=
  calNumber calctrl fun n => { calctrl with repetitionDelay := n }

/-- `LayerServer::_cal_n_pulses`. -/
def calNPulses (calctrl : CalCtrl) : Method ℤ := do
  let n ← parsePositiveInt
  if n.1 < 0 then
    pure 1
  else if n.1 = 0 then
    pure 2
  else
    cal (.nPulses calctrl (BitVec.ofInt 32 n.1))

/-- The reply to a `cal` command that returns its status and the settings. -/
def calReply (command : Method (ℤ × CalCtrl)) (retmsg : String) : Method (ℤ × CalCtrl) := do
  let r ← command
  if r.1 ≠ 0 then do
    sendMsg retmsg
    pure (1, r.2)
  else do
    sendMsg "ok"
    pure (0, r.2)

/-- What a `cal` sub-command does. -/
def calCommand (calctrl : CalCtrl) : Option CalCommand → Method (ℤ × CalCtrl)
  | some .pulseEna => calReply (calPulseEna calctrl) "ERROR: could not parse pulse-ena command"
  | some .triggerEna =>
      calReply (calTriggerEna calctrl) "ERROR: could not parse trigger-ena command"
  | some .fastOrDisable =>
      calReply (calFastOrDisable calctrl) "ERROR: could not parse fast-or-disable command"
  | some .pulseWidth =>
      calReply (calPulseWidth calctrl) "ERROR: could not parse pulse-width command"
  | some .triggerDelay =>
      calReply (calTriggerDelay calctrl) "ERROR: could not parse trigger-delay command"
  | some .repeatDelay =>
      calReply (calRepeatDelay calctrl) "ERROR: could not parse repeat-delay command"
  | some .startInf =>
      calReply (do
        let ret ← cal (.startInfPulses calctrl)
        pure (ret, calctrl)) "ERROR: could not do start-inf command"
  | some .stopInf =>
      calReply (do
        let ret ← cal .stopInfPulses
        pure (ret, calctrl)) "ERROR: could not do stop-inf command"
  | some .nPulses => do
      let ret ← calNPulses calctrl
      if ret = 1 then do
        sendMsg "ERROR: could not parse n-pulses command"
        pure (1, calctrl)
      else if ret = 2 then do
        sendMsg "ERROR: number of pulses must be > 0"
        pure (1, calctrl)
      else do
        sendMsg "ok"
        pure (0, calctrl)
  | none => do
      sendMsg "ERROR: unsupported cal command."
      pure (1, calctrl)

/-- `LayerServer::_process_cal_msg`. -/
def processCalMsg (calctrl : CalCtrl) (msg : List Byte) : Method (ℤ × CalCtrl) := do
  let cmd ← secondToken msg
  calCommand calctrl (lookup calTable cmd)

/-! ## `dac` -/

/-- The sub-commands of `dac`. -/
inductive DacCommand
  | setDelay
  | getDelay
  | setCounts
  | getInput
  deriving DecidableEq

/-- The chain of `_process_dac_msg`; the two queries are compared with their NUL. -/
def dacTable : List (Keyword DacCommand) :=
  [⟨"set-delay", 9, .setDelay⟩, ⟨"get-delay", 10, .getDelay⟩,
    ⟨"set-counts", 10, .setCounts⟩, ⟨"get-input", 10, .getInput⟩]

/-- `parse_silayer_side`. -/
def parseSilayerSide (side : Token) : Option SilayerSide :=
  if strncmp (bytes "A") side 1 then some .sideA
  else if strncmp (bytes "B") side 1 then some .sideB
  else none

/-- `parse_dac_choice`. -/
def parseDacChoice (choice : Token) : Option DacChoice :=
  if strncmp (bytes "cal") choice 3 then some .calDac
  else if strncmp (bytes "vth") choice 3 then some .vthDac
  else none

/-- `LayerServer::_dac_set_delay`. -/
def dacSetDelay : Method ℤ := do
  let delayStr ← strtok none
  match delayStr with
  | none => pure 1
  | some delayStr => do
      let ret ← dac (.setDelay (BitVec.ofInt 32 (atoi delayStr)))
      pure (if ret ≠ 0 then 2 else 0)

/-- What `_dac_set_counts` does once it has its three tokens. -/
def dacCounts (sideStr choiceStr countStr : Token) : Method ℤ :=
  match parseSilayerSide sideStr with
  | none => pure 1
  | some side =>
      match parseDacChoice choiceStr with
      | none => pure 1
      | some choice => do
          let ret ← dac (.setCounts side choice (BitVec.ofInt 32 (atoi countStr)))
          pure (if ret ≠ 0 then 2 else 0)

/-- `LayerServer::_dac_set_counts`. -/
def dacSetCounts : Method ℤ := do
  let sideStr ← strtok none
  match sideStr with
  | none => pure 1
  | some sideStr => do
      let choiceStr ← strtok none
      match choiceStr with
      | none => pure 1
      | some choiceStr => do
          let countStr ← strtok none
          match countStr with
          | none => pure 1
          | some countStr => dacCounts sideStr choiceStr countStr

/-- The reply to a `dac` command that sets something. -/
def dacReply (command : Method ℤ) (unparsed outOfRange : String) : Method ℤ := do
  let ret ← command
  if ret = 1 then do
    sendMsg unparsed
    pure 1
  else if ret = 2 then do
    sendMsg outOfRange
    pure 1
  else do
    sendMsg "ok"
    pure 0

/-- The `dac` commands that reply with a `u32`. -/
def dacSend (q : DacQuery) : Method ℤ := do
  let v ← dacQuery q
  send (encodeLE 4 v.toNat)
  pure 0

/-- `LayerServer::_dac_get_delay`. -/
def dacGetDelay : Method ℤ := dacSend .getDelay

/-- `LayerServer::_dac_get_input`. -/
def dacGetInput : Method ℤ := dacSend .getInput

/-- What a `dac` sub-command does. -/
def dacCommand : Option DacCommand → Method ℤ
  | some .setDelay =>
      dacReply dacSetDelay "ERROR: could not parse set-delay command"
        "ERROR: delay value out of range"
  | some .getDelay => dacGetDelay
  | some .setCounts =>
      dacReply dacSetCounts "ERROR: could not parse set-counts command"
        "ERROR: count value out of range"
  | some .getInput => dacGetInput
  | none => do
      sendMsg "ERROR: unsupported dac command."
      pure 1

/-- `LayerServer::_process_dac_msg`. -/
def processDacMsg (msg : List Byte) : Method ℤ := do
  let cmd ← secondToken msg
  dacCommand (lookup dacTable cmd)

/-! ## `sync` -/

/-- The sub-commands of `sync`. -/
inductive SyncCommand
  | counterReset
  | getCounter
  | forceTrigger
  | getGlobalHitEna
  | globalHitEnable
  | globalHitDisable
  | asicHitEnable
  | asicHitDisable
  | getAsicHitDisableMask
  deriving DecidableEq

/-- The chain of `_process_sync_msg`. -/
def syncTable : List (Keyword SyncCommand) :=
  [⟨"counter-reset", 13, .counterReset⟩, ⟨"get-counter", 11, .getCounter⟩,
    ⟨"force-trigger", 13, .forceTrigger⟩, ⟨"get-global-hit-ena", 18, .getGlobalHitEna⟩,
    ⟨"global-hit-enable", 17, .globalHitEnable⟩, ⟨"global-hit-disable", 18, .globalHitDisable⟩,
    ⟨"asic-hit-enable", 15, .asicHitEnable⟩, ⟨"asic-hit-disable", 16, .asicHitDisable⟩,
    ⟨"get-asic-hit-disable-mask", 25, .getAsicHitDisableMask⟩]

/-- `LayerServer::_sync_get_counter`. -/
def syncGetCounter : Method ℤ := do
  let counter ← syncCounter
  send (encodeLE 8 counter.toNat)
  pure 0

/-- `LayerServer::_sync_get_global_hit_enable`. -/
def syncGetGlobalHitEnable : Method ℤ := do
  let isEnabled ← isGlobalHitEnabled
  send [if isEnabled then 1#8 else 0#8]
  pure 0

/-- `LayerServer::_sync_get_asic_hit_disable_mask`. -/
def syncGetAsicHitDisableMask : Method ℤ := do
  let mask ← asicHitDisableMask
  send (encodeLE 4 mask.toNat)
  pure 0

/-- `LayerServer::_sync_set_asic_hit_enable`, with the method of `SyncCtrl` that `ena` selects. -/
def syncSetAsicHitEnable (action : ℤ → SyncAction) : Method ℤ := do
  let asic ← parsePositiveInt
  if asic.1 < 0 then
    pure 1
  else do
    let ret ← sync (action asic.1)
    pure (if ret ≠ 0 then 1 else 0)

/-- A `sync` command that acts and replies `ok`. -/
def syncThenOk (a : SyncAction) : Method ℤ := do
  let _ ← sync a
  sendMsg "ok"
  pure 0

/-- The reply to a `sync` command for one asic. -/
def syncReply (command : Method ℤ) : Method ℤ := do
  let ret ← command
  if ret ≠ 0 then do
    sendMsg "error"
    pure 1
  else do
    sendMsg "ok"
    pure 0

/-- What a `sync` sub-command does. -/
def syncCommand : Option SyncCommand → Method ℤ
  | some .counterReset => syncThenOk .counterReset
  | some .getCounter => syncGetCounter
  | some .forceTrigger => syncThenOk .forceTrigger
  | some .getGlobalHitEna => syncGetGlobalHitEnable
  | some .globalHitEnable => syncThenOk .globalHitEnable
  | some .globalHitDisable => syncThenOk .globalHitDisable
  | some .asicHitEnable => syncReply (syncSetAsicHitEnable .asicHitEnable)
  | some .asicHitDisable => syncReply (syncSetAsicHitEnable .asicHitDisable)
  | some .getAsicHitDisableMask => syncGetAsicHitDisableMask
  | none => do
      sendMsg "ERROR: unsupported sync command."
      pure 1

/-- `LayerServer::_process_sync_msg`. -/
def processSyncMsg (msg : List Byte) : Method ℤ := do
  let cmd ← secondToken msg
  syncCommand (lookup syncTable cmd)

/-! ## `vata` -/

/-- The sub-commands of `vata`. -/
inductive VataCommand
  | setConfigBinary
  | setConfig
  | getConfigBinary
  | getConfig
  | setHold
  | getHold
  | getCounters
  | resetCounters
  | triggerEnableBit
  | triggerDisableBit
  | triggerEnableAsic
  | triggerDisableAsic
  | triggerEnableTmHit
  | triggerDisableTmHit
  | triggerEnableTmAck
  | triggerDisableTmAck
  | triggerEnableForced
  | triggerDisableForced
  | getTriggerEnaMask
  | getEventCount
  | resetEventCount
  | getNFifo
  | clearFifo
  | fsmIdle
  deriving DecidableEq

/-- The chain of `_process_vata_msg`. -/
def vataTable : List (Keyword VataCommand) :=
  [⟨"set-config-binary", 17, .setConfigBinary⟩, ⟨"set-config", 10, .setConfig⟩,
    ⟨"get-config-binary", 17, .getConfigBinary⟩, ⟨"get-config", 10, .getConfig⟩,
    ⟨"set-hold", 8, .setHold⟩, ⟨"get-hold", 8, .getHold⟩, ⟨"get-counters", 12, .getCounters⟩,
    ⟨"reset-counters", 14, .resetCounters⟩, ⟨"trigger-enable-bit", 18, .triggerEnableBit⟩,
    ⟨"trigger-disable-bit", 19, .triggerDisableBit⟩,
    ⟨"trigger-enable-asic", 19, .triggerEnableAsic⟩,
    ⟨"trigger-disable-asic", 20, .triggerDisableAsic⟩,
    ⟨"trigger-enable-tm-hit", 21, .triggerEnableTmHit⟩,
    ⟨"trigger-disable-tm-hit", 22, .triggerDisableTmHit⟩,
    ⟨"trigger-enable-tm-ack", 21, .triggerEnableTmAck⟩,
    ⟨"trigger-disable-tm-ack", 22, .triggerDisableTmAck⟩,
    ⟨"trigger-enable-forced", 21, .triggerEnableForced⟩,
    ⟨"trigger-disable-forced", 22, .triggerDisableForced⟩,
    ⟨"get-trigger-ena-mask", 20, .getTriggerEnaMask⟩, ⟨"get-event-count", 15, .getEventCount⟩,
    ⟨"reset-event-count", 17, .resetEventCount⟩, ⟨"get-n-fifo", 10, .getNFifo⟩,
    ⟨"clear-fifo", 10, .clearFifo⟩, ⟨"fsm-idle", 8, .fsmIdle⟩]

/-- A command whose status the dispatcher ignores. -/
def ignoring (command : Method ℤ) : Method ℤ := do
  let _ ← command
  pure 0

/-- What a `vata` sub-command does. -/
def vataCommand (nvata : ℕ) : Option VataCommand → Method ℤ
  | some .setConfigBinary => setConfigBinary nvata
  | some .setConfig => orError (setConfig nvata) "ERROR: could not parse set-config command"
  | some .getConfigBinary => getConfigBinary nvata
  | some .getConfig => orError (getConfig nvata) "ERROR: could not parse get-config command"
  | some .setHold => orError (setHold nvata) "ERROR: could not parse set-hold command"
  | some .getHold => orError (getHold nvata) "ERROR: could not parse get-hold command"
  | some .getCounters => orError (getCounters nvata) "ERROR: could not parse get-counters command"
  | some .resetCounters =>
      orError (resetCounters nvata) "ERROR: could not parse reset-counters command"
  | some .triggerEnableBit =>
      orError (triggerEnableBit nvata) "ERROR: could not parse trigger-enable-bit command"
  | some .triggerDisableBit =>
      orError (triggerDisableBit nvata) "ERROR: could not parse trigger-disable-bit command"
  | some .triggerEnableAsic =>
      orError (triggerEnableAsic nvata) "ERROR: could not parse trigger-enable-asic command"
  | some .triggerDisableAsic =>
      orError (triggerDisableAsic nvata) "ERROR: could not parse trigger-disable-asic command"
  | some .triggerEnableTmHit => ignoring (triggerEnableTmHit nvata)
  | some .triggerDisableTmHit => ignoring (triggerDisableTmHit nvata)
  | some .triggerEnableTmAck => ignoring (triggerEnableTmAck nvata)
  | some .triggerDisableTmAck => ignoring (triggerDisableTmAck nvata)
  | some .triggerEnableForced => ignoring (triggerEnableForced nvata)
  | some .triggerDisableForced => ignoring (triggerDisableForced nvata)
  | some .getTriggerEnaMask => ignoring (getTriggerEnaMask nvata)
  | some .getEventCount =>
      orError (getEventCount nvata) "ERROR: could not parse get-event-count command"
  | some .resetEventCount =>
      orError (resetEventCount nvata) "ERROR: could not parse reset-event-count command"
  | some .getNFifo => orError (getNFifo nvata) "ERROR: could not parse get-n-fifo command"
  | some .clearFifo => ignoring (clearFifo nvata)
  | some .fsmIdle => do
      let _ ← fsmIdle nvata
      sendMsg "ok"
      pure 0
  | none => do
      sendMsg "ERROR: vata sub-command invalid"
      pure 1

/-- The number in front of a `vata` sub-command, if it is one of `nVata` cores. -/
def vataNumber (nVata : ℕ) (cmd : Token) : Option ℕ :=
  if notParsed (strtol 0 cmd).2 then none
  else if (strtol 0 cmd).1 < 0 ∨ (nVata : ℤ) ≤ (strtol 0 cmd).1 then none
  else some (strtol 0 cmd).1.toNat

/-- `LayerServer::_process_vata_msg`. -/
def processVataMsg (nVata : ℕ) (msg : List Byte) : Method ℤ := do
  let cmd ← secondToken msg
  match vataNumber nVata cmd with
  | none => do
      sendCouldNotProcessMsg
      pure 1
  | some nvata => do
      let cmd ← strtok none
      match cmd with
      | none => do
          sendCouldNotProcessMsg
          pure 1
      | some cmd => vataCommand nvata (lookup vataTable cmd)

/-! ## `process_req` -/

/-- The first words of the requests. -/
inductive Group
  | emit
  | cal
  | dac
  | sync
  | vata
  | getNVata
  | halt
  deriving DecidableEq

/-- The chain of `process_req`. -/
def groupTable : List (Keyword Group) :=
  [⟨"emit", 4, .emit⟩, ⟨"cal", 3, .cal⟩, ⟨"dac", 3, .dac⟩, ⟨"sync", 4, .sync⟩, ⟨"vata", 4, .vata⟩,
    ⟨"get-n-vata", 10, .getNVata⟩, ⟨"halt", 4, .halt⟩]

/-- `LayerServer::_kill_packet_emitter`: `data_emitter_running` after it. -/
def killPacketEmitter : Method Bool := do
  inprocSend (bytes "halt")
  joinEmitter
  pure false

/-- What `process_req` does with a request: its value, and the server after it. -/
def handle (nVata : ℕ) (srv : LayerServer) (request : List Byte) : Method (ℤ × LayerServer) :=
  let cReq := ofBuffer request
  match lookup groupTable cReq with
  | some .emit => do
      let r ← processEmitMsg srv.dataEmitterRunning cReq
      pure (r.1, { srv with dataEmitterRunning := r.2 })
  | some .cal => do
      let r ← processCalMsg srv.calctrl cReq
      pure (r.1, { srv with calctrl := r.2 })
  | some .dac => do
      let ret ← processDacMsg cReq
      pure (ret, srv)
  | some .sync => do
      let ret ← processSyncMsg cReq
      pure (ret, srv)
  | some .vata => do
      let ret ← processVataMsg nVata cReq
      pure (ret, srv)
  | some .getNVata => do
      send [BitVec.ofNat 8 nVata]
      pure (0, srv)
  | some .halt => do
      let running ← killPacketEmitter
      pure (exitReqRecvCode, { srv with dataEmitterRunning := running })
  | none => do
      sendCouldNotProcessMsg
      pure (1, srv)

/-- `LayerServer::process_req`. -/
def processReq (nVata : ℕ) (srv : LayerServer) : Method (ℤ × LayerServer) := do
  let request ← recv .request
  handle nVata srv request

end LayerServer

end TrackerFpga.Server
