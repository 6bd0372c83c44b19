import TrackerFpga.Cal.Core
import TrackerFpga.Dac.Core
import TrackerFpga.Lib.CString
import TrackerFpga.Vata.Ctrl

/-!
# What the layer server calls

The methods of `LayerServer` are programs over its calls: the REP socket, `strtok`, the files, and
the drivers of the cores, the calibrator, the DACs and the synchroniser, with the results these
may have.  Passing a null pointer where a string is read is the call `nullToken`, which nothing
answers.
-/

namespace TrackerFpga.Server

open ByteCodec CString Interaction

export Cal (CalCtrl)
export Dac (SilayerSide DacChoice)

/-- A string between spaces. -/
abbrev Token := List Byte

/-! ## The drivers -/

/-- The methods of `VataCtrl` for the trigger mask. -/
inductive TriggerAction
  | enable (bit : ℤ)
  | disable (bit : ℤ)
  | enableAll
  | disableAll
  | enableLocalAsic (asic : ℤ)
  | disableLocalAsic (asic : ℤ)
  | enableAllLocalAsics
  | disableAllLocalAsics
  | enableTmHit
  | disableTmHit
  | enableTmAck
  | disableTmAck
  | enableForced
  | disableForced
  deriving DecidableEq

/-- The methods of `VataCtrl` that return a status. -/
inductive VataAction
  | getConfigFile (fname : Token)
  | setHoldDelay (delay : BitVec 32)
  | resetCounters
  | trigger (a : TriggerAction)
  | resetEventCount
  | readFifo
  | forceFsmToIdle
  deriving DecidableEq

/-- The methods of `VataCtrl` that return a `u32`. -/
inductive VataQuery
  | getHoldDelay
  | getTriggerEnaMask
  | getEventCount
  | getNFifo
  deriving DecidableEq

/-- What `set_check_config` is called with. -/
inductive ConfigSource
  | file (fname : Token)
  | data (config : Vata.Ctrl.Config)
  deriving DecidableEq

/-- The methods of `CalCtrl`, with the settings that they write. -/
inductive CalAction
  | writeSettings (settings : CalCtrl)
  | nPulses (settings : CalCtrl) (n : BitVec 32)
  | startInfPulses (settings : CalCtrl)
  | stopInfPulses
  deriving DecidableEq

/-- The methods of `DacCtrl` that return a status. -/
abbrev DacAction := Dac.DacCtrl.Call

/-- The methods of `DacCtrl` that return a `u32`. -/
inductive DacQuery
  | getDelay
  | getInput
  deriving DecidableEq

/-- The methods of `SyncCtrl` that act, with the status of those that return one. -/
inductive SyncAction
  | counterReset
  | forceTrigger
  | globalHitEnable
  | globalHitDisable
  | asicHitEnable (asic : ℤ)
  | asicHitDisable (asic : ℤ)
  deriving DecidableEq

/-! ## Calls -/

/-- Where a message is received: at the start of `process_req`, or in `_set_config_binary`. -/
inductive RecvSite
  | request
  | configData
  deriving DecidableEq

/-- The calls of the layer server.  `rounds` is how often a `while` loop goes round. -/
inductive Call
  | recv (site : RecvSite)
  | send (msg : List Byte)
  | poll (timeoutMs : ℕ)
  | strtok (s : Option (List Byte))
  | nullToken
  | rounds
  | loopOver
  | fileGood (fname : Token)
  | vata (nvata : ℕ) (a : VataAction)
  | vataQuery (nvata : ℕ) (q : VataQuery)
  | vataCounters (nvata : ℕ)
  | setCheckConfig (nvata : ℕ) (source : ConfigSource)
  | getConfig (nvata : ℕ)
  | cal (a : CalAction)
  | dac (a : DacAction)
  | dacQuery (q : DacQuery)
  | sync (a : SyncAction)
  | syncCounter
  | isGlobalHitEnabled
  | asicHitDisableMask
  | inprocSend (msg : List Byte)
  | joinEmitter
  deriving DecidableEq

/-- What a call returns. -/
@[reducible] def Call.Answer : Call → Type
  | .recv _ => List Byte
  | .send _ => Unit
  | .poll _ => Bool
  | .strtok _ => Option Token
  | .nullToken => Empty
  | .rounds => ℕ
  | .loopOver => Empty
  | .fileGood _ => Bool
  | .vata _ _ => ℤ
  | .vataQuery _ _ => BitVec 32
  | .vataCounters _ => BitVec 64 × BitVec 64
  | .setCheckConfig _ _ => Bool
  | .getConfig _ => Vata.Ctrl.Config
  | .cal _ => ℤ
  | .dac _ => ℤ
  | .dacQuery _ => BitVec 32
  | .sync _ => ℤ
  | .syncCounter => BitVec 64
  | .isGlobalHitEnabled => Bool
  | .asicHitDisableMask => BitVec 32
  | .inprocSend _ => Unit
  | .joinEmitter => Unit

/-- A method of the layer server. -/
abbrev Method := Program Call Call.Answer

namespace Method

/-- `strtok(s, " ")`. -/
def strtok (s : Option (List Byte)) : Method (Option Token) := Program.perform (Call.strtok s)

/-- A use of a token as a string. -/
def deref : Option Token → Method Token
  | some t => pure t
  | none => Program.call Call.nullToken Empty.elim

/-- `socket.recv`. -/
def recv (site : RecvSite) : Method (List Byte) := Program.perform (Call.recv site)

/-- `zmq::poll`: whether there is a message before the timeout. -/
def poll (timeoutMs : ℕ) : Method Bool := Program.perform (Call.poll timeoutMs)

/-- `socket.send`. -/
def send (msg : List Byte) : Method Unit := Program.perform (Call.send msg)

/-- `LayerServer::_send_msg(retmsg, sizeof(retmsg))`: the terminating NUL is sent too. -/
def sendMsg (retmsg : String) : Method Unit := send (bytes retmsg ++ [0#8])

/-- A response of the two bytes of `ok`. -/
def sendOk : Method Unit := send (bytes "ok")

/-- A method of `VataCtrl` that returns a status. -/
def vata (nvata : ℕ) (a : VataAction) : Method ℤ := Program.perform (Call.vata nvata a)

/-- A method of `VataCtrl` that returns a `u32`. -/
def vataQuery (nvata : ℕ) (q : VataQuery) : Method (BitVec 32) :=
  Program.perform (Call.vataQuery nvata q)

/-- `VataCtrl::get_counters`. -/
def vataCounters (nvata : ℕ) : Method (BitVec 64 × BitVec 64) :=
  Program.perform (Call.vataCounters nvata)

/-- `VataCtrl::set_check_config`. -/
def setCheckConfig (nvata : ℕ) (source : ConfigSource) : Method Bool :=
  Program.perform (Call.setCheckConfig nvata source)

/-- `VataCtrl::get_config`. -/
def vataGetConfig (nvata : ℕ) : Method Vata.Ctrl.Config := Program.perform (Call.getConfig nvata)

/-- `std::ifstream cfg_check(fname)` and `cfg_check.good()`. -/
def fileGood (fname : Token) : Method Bool := Program.perform (Call.fileGood fname)

/-- A method of `CalCtrl`. -/
def cal (a : CalAction) : Method ℤ := Program.perform (Call.cal a)

/-- A method of `DacCtrl` that returns a status. -/
def dac (a : DacAction) : Method ℤ := Program.perform (Call.dac a)

/-- A method of `SyncCtrl` that acts. -/
def sync (a : SyncAction) : Method ℤ := Program.perform (Call.sync a)

/-- A method of `DacCtrl` that returns a `u32`. -/
def dacQuery (q : DacQuery) : Method (BitVec 32) := Program.perform (Call.dacQuery q)

/-- `SyncCtrl::get_counter`. -/
def syncCounter : Method (BitVec 64) := Program.perform Call.syncCounter

/-- `SyncCtrl::is_global_hit_enabled`. -/
def isGlobalHitEnabled : Method Bool := Program.perform Call.isGlobalHitEnabled

/-- `SyncCtrl::get_asic_hit_disable_mask`. -/
def asicHitDisableMask : Method (BitVec 32) := Program.perform Call.asicHitDisableMask

/-- `inproc_sock.send`. -/
def inprocSend (msg : List Byte) : Method Unit := Program.perform (Call.inprocSend msg)

/-- `emitter_thread.join`. -/
def joinEmitter : Method Unit := Program.perform Call.joinEmitter

/-- How often a loop goes round. -/
def rounds : Method ℕ := Program.perform Call.rounds

/-- `while (cond) body`, at most `k` times around: a run that does not leave the loop by then is
none. -/
def whileLoop (cond : Method Bool) (body : Method Unit) : ℕ → Method Unit
  | 0 => do
      let again ← cond
      if again then Program.call Call.loopOver Empty.elim else pure ()
  | k + 1 => do
      let again ← cond
      if again then do
        body
        whileLoop cond body k
      else
        pure ()

end Method

/-! ## Tables of commands -/

/-- A line of an `else if` chain: `strncmp(text, cmd, len) == 0`. -/
structure Keyword (γ : Type) where
  text : String
  len : ℕ
  command : γ

/-- The first line that matches. -/
def lookup {γ : Type} (table : List (Keyword γ)) (cmd : List Byte) : Option γ :=
  (table.find? fun k => strncmp (bytes k.text) cmd k.len).map Keyword.command

end TrackerFpga.Server
