import TrackerFpga.Server.Calls

/-!
# `LayerServer`: dispatching requests

`process_req` receives a message and passes it to the dispatcher of its first word, which takes
the message apart with `strtok` and runs one of its commands.  Every `else if` chain is a table of
keywords in the order of the source, and what a command does is a definition under its name.

Whether a command sends its reply itself or leaves that to the dispatcher is part of each
command: those of the `set-config` kind reply on success only, and the dispatcher replies when
they fail (`orError`).
-/

namespace TrackerFpga.Server

open ByteCodec CString Interaction

/-- The fields of `LayerServer` that requests read or change. -/
structure LayerServer where
  calctrl : CalCtrl
  dataEmitterRunning : Bool
  deriving DecidableEq

/-- `EXIT_REQ_RECV_CODE`. -/
def exitReqRecvCode : ℤ := 1785

/-- `SET_CONFIG_BINARY_TIMEOUT`. -/
def setConfigBinaryTimeout : ℕ := 1000

namespace LayerServer

open Method

/-! ## Parsing -/

/-- `*chk != ' ' && *chk != '\0'`. -/
def notParsed (chk : List Byte) : Bool := chk ≠ [] ∧ chk.head? ≠ some 32#8

/-- The number of an argument, or `-1`. -/
def positiveInt (arg : Token) : ℤ :=
  if notParsed (strtol 0 arg).2 then -1 else (strtol 0 arg).1

/-- `LayerServer::_parse_positive_int`: what it returns, and `cmd`. -/
def parsePositiveInt : Method (ℤ × Option Token) := do
  let cmd ← strtok none
  match cmd with
  | none => pure (-1, none)
  | some arg => pure (positiveInt arg, some arg)

/-- The reply of a dispatcher when a command fails. -/
def orError (command : Method ℤ) (retmsg : String) : Method ℤ := do
  let ret ← command
  if ret ≠ 0 then do
    sendMsg retmsg
    pure 1
  else
    pure 0

/-- `LayerServer::_send_could_not_process_msg`. -/
def sendCouldNotProcessMsg : Method Unit := sendMsg "ERROR: could not process message"

/-! ## The commands of `vata` -/

/-- `LayerServer::_set_config`. -/
def setConfig (nvata : ℕ) : Method ℤ := do
  let cmd ← strtok none
  match cmd with
  | none => pure 1
  | some fname => do
      let good ← fileGood fname
      if good then do
        let set ← setCheckConfig nvata (.file fname)
        if set then do
          sendOk
          pure 0
        else
          pure 1
      else
        pure 1

/-- The words of a configuration in a message. -/
def configOf (msg : List Byte) : Vata.Ctrl.Config :=
  Vector.ofFn fun i => BitVec.ofNat 32 (decodeLE ((msg.drop (4 * i)).take 4))

/-- What `_set_config_binary` does with the message that it received. -/
def applyConfig (nvata : ℕ) (configMsg : List Byte) : Method ℤ :=
  if configMsg.length ≠ Vata.Ctrl.nCfgReg * 4 then do
    sendMsg "error: req_sz"
    pure 2
  else do
    let set ← setCheckConfig nvata (.data (configOf configMsg))
    if set then do
      sendMsg "ok"
      pure 0
    else do
      sendMsg "error: config_check"
      pure 3

/-- `LayerServer::_set_config_binary`. -/
def setConfigBinary (nvata : ℕ) : Method ℤ := do
  send (bytes "ready")
  let received ← poll setConfigBinaryTimeout
  if received then do
    let configMsg ← recv .configData
    applyConfig nvata configMsg
  else
    pure 1

/-- `LayerServer::_get_config`. -/
def getConfig (nvata : ℕ) : Method ℤ := do
  let cmd ← strtok none
  match cmd with
  | none => pure 1
  | some fname => do
      let ret ← vata nvata (.getConfigFile fname)
      if ret ≠ 0 then
        pure 1
      else do
        sendOk
        pure 0

/-- `LayerServer::_get_config_binary`. -/
def getConfigBinary (nvata : ℕ) : Method ℤ := do
  let data ← vataGetConfig nvata
  send (data.toList.flatMap fun w => encodeLE 4 w.toNat)
  pure 0

/-- `LayerServer::_set_hold`. -/
def setHold (nvata : ℕ) : Method ℤ := do
  let cmd ← strtok none
  match cmd with
  | none => pure 1
  | some arg =>
      if notParsed (strtol 0 arg).2 then
        pure 1
      else do
        let _ ← vata nvata (.setHoldDelay (BitVec.ofInt 32 (strtol 0 arg).1))
        sendOk
        pure 0

/-- A command that replies with a `u32`. -/
def sendQuery (nvata : ℕ) (q : VataQuery) : Method ℤ := do
  let v ← vataQuery nvata q
  send (encodeLE 4 v.toNat)
  pure 0

/-- `LayerServer::_get_hold`. -/
def getHold (nvata : ℕ) : Method ℤ := sendQuery nvata .getHoldDelay

/-- `LayerServer::_get_trigger_ena_mask`. -/
def getTriggerEnaMask (nvata : ℕ) : Method ℤ := sendQuery nvata .getTriggerEnaMask

/-- `LayerServer::_get_event_count`. -/
def getEventCount (nvata : ℕ) : Method ℤ := sendQuery nvata .getEventCount

/-- `LayerServer::_get_n_fifo`. -/
def getNFifo (nvata : ℕ) : Method ℤ := sendQuery nvata .getNFifo

/-- `LayerServer::_get_counters`. -/
def getCounters (nvata : ℕ) : Method ℤ := do
  let counters ← vataCounters nvata
  send (encodeLE 8 counters.1.toNat ++ encodeLE 8 counters.2.toNat)
  pure 0

/-- A command that acts and replies `ok`. -/
def actThenOk (nvata : ℕ) (a : VataAction) : Method ℤ := do
  let _ ← vata nvata a
  sendOk
  pure 0

/-- `LayerServer::_reset_counters`. -/
def resetCounters (nvata : ℕ) : Method ℤ := actThenOk nvata .resetCounters

/-- `LayerServer::_reset_event_count`. -/
def resetEventCount (nvata : ℕ) : Method ℤ := actThenOk nvata .resetEventCount

/-- The commands for one bit of the trigger mask or for all. -/
def triggerBit (nvata : ℕ) (one : ℤ → TriggerAction) (all : TriggerAction) : Method ℤ := do
  let bitnum ← parsePositiveInt
  if 0 ≤ bitnum.1 then do
    let ret ← vata nvata (.trigger (one bitnum.1))
    if ret ≠ 0 then
      pure 1
    else do
      sendOk
      pure 0
  else do
    let cmd ← deref bitnum.2
    if strncmp cmd (bytes "all") 3 then do
      let _ ← vata nvata (.trigger all)
      sendOk
      pure 0
    else
      pure 1

/-- `LayerServer::_trigger_enable_bit`. -/
def triggerEnableBit (nvata : ℕ) : Method ℤ := triggerBit nvata .enable .enableAll

/-- `LayerServer::_trigger_disable_bit`. -/
def triggerDisableBit (nvata : ℕ) : Method ℤ := triggerBit nvata .disable .disableAll

/-- `LayerServer::_trigger_enable_asic`: it also replies when it cannot parse the number. -/
def triggerEnableAsic (nvata : ℕ) : Method ℤ := do
  let asicnum ← parsePositiveInt
  if 0 ≤ asicnum.1 then do
    let ret ← vata nvata (.trigger (.enableLocalAsic asicnum.1))
    if ret ≠ 0 then
      pure 1
    else do
      sendOk
      pure 0
  else do
    let cmd ← deref asicnum.2
    if strncmp cmd (bytes "all") 3 then do
      let _ ← vata nvata (.trigger .enableAllLocalAsics)
      sendOk
      pure 0
    else do
      sendMsg "E: could not parse asic number"
      pure 1

/-- `LayerServer::_trigger_disable_asic`: it also replies when it fails. -/
def triggerDisableAsic (nvata : ℕ) : Method ℤ := do
  let asicnum ← parsePositiveInt
  if 0 ≤ asicnum.1 then do
    let ret ← vata nvata (.trigger (.disableLocalAsic asicnum.1))
    if ret ≠ 0 then do
      sendMsg "E: trigger_disable_local_asic failed."
      pure 1
    else do
      sendOk
      pure 0
  else do
    let cmd ← deref asicnum.2
    if strncmp cmd (bytes "all") 3 then do
      let _ ← vata nvata (.trigger .disableAllLocalAsics)
      sendOk
      pure 0
    else do
      sendMsg "E: could not parse asic number"
      pure 1

/-- `LayerServer::_trigger_enable_tm_hit`. -/
def triggerEnableTmHit (nvata : ℕ) : Method ℤ := do
  let ret ← vata nvata (.trigger .enableTmHit)
  if ret = 0 then do
    sendMsg "ok"
    pure ret
  else do
    sendMsg "E: trigger_enable_tm_hit failed."
    pure ret

/-- A command that replies `ok` before it acts. -/
def okThenTrigger (nvata : ℕ) (a : TriggerAction) : Method ℤ := do
  sendMsg "ok"
  vata nvata (.trigger a)

/-- `LayerServer::_trigger_disable_tm_hit`. -/
def triggerDisableTmHit (nvata : ℕ) : Method ℤ := okThenTrigger nvata .disableTmHit

/-- `LayerServer::_trigger_enable_tm_ack`. -/
def triggerEnableTmAck (nvata : ℕ) : Method ℤ := okThenTrigger nvata .enableTmAck

/-- `LayerServer::_trigger_disable_tm_ack`. -/
def triggerDisableTmAck (nvata : ℕ) : Method ℤ := okThenTrigger nvata .disableTmAck

/-- `LayerServer::_trigger_enable_forced`. -/
def triggerEnableForced (nvata : ℕ) : Method ℤ := okThenTrigger nvata .enableForced

/-- `LayerServer::_trigger_disable_forced`. -/
def triggerDisableForced (nvata : ℕ) : Method ℤ := okThenTrigger nvata .disableForced

/-- `LayerServer::_clear_fifo`. -/
def clearFifo (nvata : ℕ) : Method ℤ := do
  let k ← rounds
  whileLoop
    (do
      let nFifo ← vataQuery nvata .getNFifo
      pure (decide (0 < nFifo.toInt)))
    (do
      let _ ← vata nvata .readFifo
      pure ()) k
  sendMsg "ok"
  pure 0

/-- `LayerServer::_fsm_idle`. -/
def fsmIdle (nvata : ℕ) : Method ℤ := vata nvata .forceFsmToIdle

end LayerServer

end TrackerFpga.Server
