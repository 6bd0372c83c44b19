import TrackerFpga.Server.Handled

/-!
# Missing tokens

`strtok` returns `NULL` where a request has too few tokens.  A request is checked if no run of it
comes to a use of a null pointer, and a missed token is answered by one error.  The requests that
are not are those of a group with no second token, and the commands for bits and asics of the
trigger mask with no argument.
-/

namespace TrackerFpga.Server

open ByteCodec CString Interaction

namespace LayerServer

open Method

/-- No run of the program uses a null pointer, whatever its calls return. -/
abbrev Safe {α : Type} (p : Method α) : Prop := Never (fun o => o = Call.nullToken) p

/-- No run of the program uses a null pointer or sends a message to the emitter. -/
abbrev Plain {α : Type} (p : Method α) : Prop :=
  Never (fun o => o = Call.nullToken ∨ ∃ msg, o = Call.inprocSend msg) p

lemma Plain.safe {α : Type} {p : Method α} (h : Plain p) : Safe p := h.mono fun _ => .inl

/-- The run may come to a use of a null pointer. -/
abbrev MayDeref {α : Type} (p : Method α) (m : Machine) : Prop :=
  MayCall env (fun o => o = Call.nullToken) p m

/-! ## The commands -/

/-- The commands for bits and asics of the trigger mask. -/
def triggerCommands : List VataCommand :=
  [.triggerEnableBit, .triggerDisableBit, .triggerEnableAsic, .triggerDisableAsic]

/-- The calls of the requests of `vata` that have their tokens. -/
inductive VataCall : Call → Prop
  | recv (site : RecvSite) : VataCall (.recv site)
  | send (msg : List Byte) : VataCall (.send msg)
  | poll (timeoutMs : ℕ) : VataCall (.poll timeoutMs)
  | strtok (s : Option (List Byte)) : VataCall (.strtok s)
  | rounds : VataCall .rounds
  | loopOver : VataCall .loopOver
  | fileGood (fname : Token) : VataCall (.fileGood fname)
  | vata (nvata : ℕ) (a : VataAction) : VataCall (.vata nvata a)
  | vataQuery (nvata : ℕ) (q : VataQuery) : VataCall (.vataQuery nvata q)
  | vataCounters (nvata : ℕ) : VataCall (.vataCounters nvata)
  | setCheckConfig (nvata : ℕ) (source : ConfigSource) : VataCall (.setCheckConfig nvata source)
  | getConfig (nvata : ℕ) : VataCall (.getConfig nvata)

attribute [simp] VataCall.recv VataCall.send VataCall.poll VataCall.strtok VataCall.rounds
  VataCall.loopOver VataCall.fileGood VataCall.vata VataCall.vataQuery VataCall.vataCounters
  VataCall.setCheckConfig VataCall.getConfig

section Never

variable {α : Type} {nVata nvata : ℕ} {bad : Call → Prop}

@[simp] lemma never_strtok_bind {s : Option (List Byte)} {f : Option Token → Method α} :
    Never bad (strtok s >>= f) ↔
      ¬ bad (.strtok s) ∧ Never bad (f none) ∧ ∀ t, Never bad (f (some t)) := by
  rw [strtok, Program.perform_bind, never_call]
  refine and_congr_right fun _ => ⟨fun h => ⟨h none, fun t => h (some t)⟩, fun h ans => ?_⟩
  cases ans with
  | none => exact h.1
  | some t => exact h.2 t

lemma never_deref (hnull : ¬ bad .nullToken) (t : Option Token) : Never bad (deref t) := by
  cases t <;> simp [deref, hnull]

variable (hbad : ∀ o, VataCall o → ¬ bad o)
include hbad

/-- `_parse_positive_int` itself uses no null pointer. -/
lemma never_parsePositiveInt : Never bad parsePositiveInt := by
  simp [parsePositiveInt, hbad]

lemma never_parse_bind {f : ℤ × Option Token → Method α} (h : ∀ r, Never bad (f r)) :
    Never bad (parsePositiveInt >>= f) := Never.bind (never_parsePositiveInt hbad) h

lemma never_orError {command : Method ℤ} {retmsg : String} (h : Never bad command) :
    Never bad (orError command retmsg) := by
  refine Never.bind h fun ret => ?_
  simp [sendMsg, send, hbad]

lemma never_setConfig : Never bad (setConfig nvata) := by
  simp [setConfig, fileGood, setCheckConfig, sendOk, send, hbad]

lemma never_setConfigBinary : Never bad (setConfigBinary nvata) := by
  simp [setConfigBinary, applyConfig, poll, recv, setCheckConfig, sendMsg, send, hbad]

lemma never_getConfig : Never bad (getConfig nvata) := by
  simp [getConfig, vata, sendOk, send, hbad]

lemma never_getConfigBinary : Never bad (getConfigBinary nvata) := by
  simp [getConfigBinary, vataGetConfig, send, hbad]

lemma never_setHold : Never bad (setHold nvata) := by
  simp [setHold, vata, sendOk, send, hbad]

lemma never_sendQuery {q : VataQuery} : Never bad (sendQuery nvata q) := by
  simp [sendQuery, vataQuery, send, hbad]

lemma never_getCounters : Never bad (getCounters nvata) := by
  simp [getCounters, vataCounters, send, hbad]

lemma never_actThenOk {a : VataAction} : Never bad (actThenOk nvata a) := by
  simp [actThenOk, vata, sendOk, send, hbad]

lemma never_triggerEnableTmHit : Never bad (triggerEnableTmHit nvata) := by
  simp [triggerEnableTmHit, vata, sendMsg, send, hbad]

lemma never_okThenTrigger {a : TriggerAction} : Never bad (okThenTrigger nvata a) := by
  simp [okThenTrigger, vata, sendMsg, send, hbad]

lemma never_whileLoop {cond : Method Bool} {body : Method Unit} (hcond : Never bad cond)
    (hbody : Never bad body) (k : ℕ) : Never bad (whileLoop cond body k) := by
  induction k with
  | zero =>
      refine Never.bind hcond fun again => ?_
      cases again <;> simp [hbad]
  | succ k ih =>
      refine Never.bind hcond fun again => ?_
      cases again with
      | false => exact never_done
      | true => exact Never.bind hbody fun _ => ih

lemma never_clearFifo : Never bad (clearFifo nvata) := by
  refine Never.bind (never_perform.mpr (hbad _ .rounds)) fun k => Never.bind ?_ fun _ => ?_
  · refine never_whileLoop hbad ?_ ?_ k
    · simp [vataQuery, hbad]
    · simp [vata, hbad]
  · simp [sendMsg, send, hbad]

lemma never_triggerBit (hnull : ¬ bad .nullToken) {one : ℤ → TriggerAction} {all : TriggerAction} :
    Never bad (triggerBit nvata one all) := by
  refine never_parse_bind hbad fun r => never_ite.mpr ⟨fun _ => ?_, fun _ => ?_⟩
  · simp [vata, sendOk, send, hbad]
  · refine Never.bind (never_deref hnull r.2) fun cmd => ?_
    simp [vata, sendOk, send, hbad]

lemma never_triggerEnableAsic (hnull : ¬ bad .nullToken) :
    Never bad (triggerEnableAsic nvata) := by
  refine never_parse_bind hbad fun r => never_ite.mpr ⟨fun _ => ?_, fun _ => ?_⟩
  · simp [vata, sendOk, send, hbad]
  · refine Never.bind (never_deref hnull r.2) fun cmd => ?_
    simp [vata, sendOk, sendMsg, send, hbad]

lemma never_triggerDisableAsic (hnull : ¬ bad .nullToken) :
    Never bad (triggerDisableAsic nvata) := by
  refine never_parse_bind hbad fun r => never_ite.mpr ⟨fun _ => ?_, fun _ => ?_⟩
  · simp [vata, sendOk, sendMsg, send, hbad]
  · refine Never.bind (never_deref hnull r.2) fun cmd => ?_
    simp [vata, sendOk, sendMsg, send, hbad]

/-- A command of `vata` calls what such commands call.  Those for bits and asics of the trigger mask
may use a null pointer. -/
lemma never_vataCommand {command : Option VataCommand}
    (hnull : bad .nullToken → ∀ c ∈ triggerCommands, command ≠ some c) :
    Never bad (vataCommand nvata command) := by
  rcases command with - | command
  · simp [vataCommand, sendMsg, send, hbad]
  have hargs : ∀ c ∈ triggerCommands, command = c → ¬ bad .nullToken := fun c hc heq hno =>
    hnull hno c hc (congrArg some heq)
  have hignoring : ∀ {p : Method ℤ}, Never bad p → Never bad (ignoring p) := fun h =>
    Never.bind h fun _ => never_done
  cases command with
  | setConfigBinary => exact never_setConfigBinary hbad
  | setConfig => exact never_orError hbad (never_setConfig hbad)
  | getConfigBinary => exact never_getConfigBinary hbad
  | getConfig => exact never_orError hbad (never_getConfig hbad)
  | setHold => exact never_orError hbad (never_setHold hbad)
  | getHold => exact never_orError hbad (never_sendQuery hbad)
  | getCounters => exact never_orError hbad (never_getCounters hbad)
  | resetCounters => exact never_orError hbad (never_actThenOk hbad)
  | triggerEnableBit =>
      exact never_orError hbad (never_triggerBit hbad (hargs _ (by decide) rfl))
  | triggerDisableBit =>
      exact never_orError hbad (never_triggerBit hbad (hargs _ (by decide) rfl))
  | triggerEnableAsic =>
      exact never_orError hbad (never_triggerEnableAsic hbad (hargs _ (by decide) rfl))
  | triggerDisableAsic =>
      exact never_orError hbad (never_triggerDisableAsic hbad (hargs _ (by decide) rfl))
  | triggerEnableTmHit => exact hignoring (never_triggerEnableTmHit hbad)
  | triggerDisableTmHit => exact hignoring (never_okThenTrigger hbad)
  | triggerEnableTmAck => exact hignoring (never_okThenTrigger hbad)
  | triggerDisableTmAck => exact hignoring (never_okThenTrigger hbad)
  | triggerEnableForced => exact hignoring (never_okThenTrigger hbad)
  | triggerDisableForced => exact hignoring (never_okThenTrigger hbad)
  | getTriggerEnaMask => exact hignoring (never_sendQuery hbad)
  | getEventCount => exact never_orError hbad (never_sendQuery hbad)
  | resetEventCount => exact never_orError hbad (never_actThenOk hbad)
  | getNFifo => exact never_orError hbad (never_sendQuery hbad)
  | clearFifo => exact hignoring (never_clearFifo hbad)
  | fsmIdle => simp [vataCommand, fsmIdle, vata, sendMsg, send, hbad]

lemma never_secondToken (hnull : ¬ bad .nullToken) {msg : List Byte} :
    Never bad (secondToken msg) := by
  simp [secondToken, never_deref hnull, hbad]

lemma never_processVataMsg (hnull : ¬ bad .nullToken) {msg : List Byte} :
    Never bad (processVataMsg nVata msg) := by
  refine Never.bind (never_secondToken hbad hnull) fun num => ?_
  cases vataNumber nVata num with
  | none => simp [sendCouldNotProcessMsg, sendMsg, send, hbad]
  | some nvata =>
      have hcommand : ∀ cmd, Never bad (vataCommand nvata (lookup vataTable cmd)) := fun cmd =>
        never_vataCommand hbad fun hno => absurd hno hnull
      simp [sendCouldNotProcessMsg, sendMsg, send, hcommand, hbad]

end Never

section Plain

variable {α : Type} {nvata : ℕ}

/-- The calls of `vata` requests are plain. -/
lemma not_bad_of_vataCall {o : Call} (h : VataCall o) :
    ¬ (o = .nullToken ∨ ∃ msg, o = .inprocSend msg) := by
  rintro (rfl | ⟨msg, rfl⟩)
  · cases h
  · cases h

lemma plain_parse_bind {f : ℤ × Option Token → Method α} (h : ∀ r, Plain (f r)) :
    Plain (parsePositiveInt >>= f) := never_parse_bind (fun _ => not_bad_of_vataCall) h

/-- The commands for bits and asics of the trigger mask use their argument. -/
lemma plain_vataCommand {command : Option VataCommand}
    (h : ∀ c ∈ triggerCommands, command ≠ some c) : Plain (vataCommand nvata command) :=
  never_vataCommand (fun _ => not_bad_of_vataCall) fun _ => h

lemma safe_emitCommand {running : Bool} {command : Option EmitCommand} :
    Safe (emitCommand running command) := by
  rcases command with - | - | - | - <;> cases running <;>
    simp [emitCommand, sendMsg, send, startPacketEmitter, stopPacketEmitter, inprocSend]

lemma plain_calReply {command : Method (ℤ × CalCtrl)} {retmsg : String} (h : Plain command) :
    Plain (calReply command retmsg) := by
  refine Never.bind h fun r => ?_
  simp [sendMsg, send]

lemma plain_calFlag {calctrl : CalCtrl} {set : Bool → CalCtrl} : Plain (calFlag calctrl set) :=
  plain_parse_bind fun r => by simp [cal]

lemma plain_calNumber {calctrl : CalCtrl} {set : BitVec 32 → CalCtrl} :
    Plain (calNumber calctrl set) := plain_parse_bind fun r => by simp [cal]

lemma plain_calCommand {calctrl : CalCtrl} {command : Option CalCommand} :
    Plain (calCommand calctrl command) := by
  rcases command with - | command
  · simp [calCommand, sendMsg, send]
  cases command with
  | pulseEna => exact plain_calReply plain_calFlag
  | triggerEna => exact plain_calReply plain_calFlag
  | fastOrDisable => exact plain_calReply plain_calFlag
  | pulseWidth => exact plain_calReply plain_calNumber
  | triggerDelay => exact plain_calReply plain_calNumber
  | repeatDelay => exact plain_calReply plain_calNumber
  | startInf => exact plain_calReply (by simp [cal])
  | stopInf => exact plain_calReply (by simp [cal])
  | nPulses =>
      refine Never.bind (plain_parse_bind fun r => ?_) fun ret => ?_
      · simp [cal]
      · simp [sendMsg, send]

lemma plain_dacReply {command : Method ℤ} {unparsed outOfRange : String} (h : Plain command) :
    Plain (dacReply command unparsed outOfRange) := by
  refine Never.bind h fun ret => ?_
  simp [sendMsg, send]

lemma plain_dacCounts {sideStr choiceStr countStr : Token} :
    Plain (dacCounts sideStr choiceStr countStr) := by
  rw [dacCounts]
  cases parseSilayerSide sideStr with
  | none => exact never_done
  | some side => cases parseDacChoice choiceStr <;> simp [dac]

lemma plain_dacCommand {command : Option DacCommand} : Plain (dacCommand command) := by
  rcases command with - | command
  · simp [dacCommand, sendMsg, send]
  cases command with
  | setDelay => exact plain_dacReply (by simp [dacSetDelay, dac])
  | getDelay => simp [dacCommand, dacGetDelay, dacSend, dacQuery, send]
  | setCounts => exact plain_dacReply (by simp [dacSetCounts, plain_dacCounts])
  | getInput => simp [dacCommand, dacGetInput, dacSend, dacQuery, send]

lemma plain_syncReply {action : ℤ → SyncAction} :
    Plain (syncReply (syncSetAsicHitEnable action)) := by
  refine Never.bind (plain_parse_bind fun r => ?_) fun ret => ?_
  · simp [sync]
  · simp [sendMsg, send]

lemma plain_syncCommand {command : Option SyncCommand} : Plain (syncCommand command) := by
  rcases command with - | command
  · simp [syncCommand, sendMsg, send]
  cases command with
  | counterReset => simp [syncCommand, syncThenOk, sync, sendMsg, send]
  | getCounter => simp [syncCommand, syncGetCounter, syncCounter, send]
  | forceTrigger => simp [syncCommand, syncThenOk, sync, sendMsg, send]
  | getGlobalHitEna => simp [syncCommand, syncGetGlobalHitEnable, isGlobalHitEnabled, send]
  | globalHitEnable => simp [syncCommand, syncThenOk, sync, sendMsg, send]
  | globalHitDisable => simp [syncCommand, syncThenOk, sync, sendMsg, send]
  | asicHitEnable => exact plain_syncReply
  | asicHitDisable => exact plain_syncReply
  | getAsicHitDisableMask =>
      simp [syncCommand, syncGetAsicHitDisableMask, asicHitDisableMask, send]

end Plain

/-! ## Uses of a missing token -/

section MayDeref

variable {α β : Type} {nVata nvata : ℕ} {m : Machine} {msg : List Byte}

/-- What comes after a program does not matter if it is safe. -/
lemma mayDeref_bind {p : Method β} {f : β → Method α} (hf : ∀ b, Safe (f b)) :
    MayDeref (p >>= f) m ↔ MayDeref p m := by
  rw [MayDeref, mayCall_bind]
  refine or_iff_left ?_
  rintro ⟨b, t, -, hmay⟩
  exact (hf b).not_mayCall hmay

lemma mayDeref_strtok_bind {f : Option Token → Method α} :
    MayDeref (strtok none >>= f) m ↔
      MayDeref (f m.tokens.head?) (m.after (.strtok none) m.tokens.head?) := by
  rw [strtok, Program.perform_bind, MayDeref, mayCall_call]
  constructor
  · rintro (hbad | ⟨ans, t, ⟨hans, rfl⟩, hmay⟩)
    · exact absurd hbad (by simp)
    · obtain rfl : ans = m.tokens.head? := hans
      exact hmay
  · exact fun hmay => .inr ⟨_, _, ⟨rfl, rfl⟩, hmay⟩

lemma mayDeref_start_bind {f : Option Token → Method α} :
    MayDeref (strtok (some msg) >>= f) m ↔
      MayDeref (f (tokens msg).head?) (m.after (.strtok (some msg)) (tokens msg).head?) := by
  rw [strtok, Program.perform_bind, MayDeref, mayCall_call]
  constructor
  · rintro (hbad | ⟨ans, t, ⟨hans, rfl⟩, hmay⟩)
    · exact absurd hbad (by simp)
    · obtain rfl : ans = (tokens msg).head? := hans
      exact hmay
  · exact fun hmay => .inr ⟨_, _, ⟨rfl, rfl⟩, hmay⟩

lemma mayDeref_deref_none {f : Token → Method α} : MayDeref (deref none >>= f) m := .inl rfl

/-- A dispatcher uses its second token. -/
lemma mayDeref_secondToken_bind {f : Token → Method α} {P : Prop}
    (hf : ∀ cmd ts t, (tokens msg).tail = cmd :: ts → t.tokens = ts → (MayDeref (f cmd) t ↔ P)) :
    MayDeref (secondToken msg >>= f) m ↔ (tokens msg).tail = [] ∨ ((tokens msg).tail ≠ [] ∧ P) := by
  rw [secondToken, Program.bind_assoc, mayDeref_start_bind, Program.bind_assoc,
    mayDeref_strtok_bind]
  have htokens : (m.after (.strtok (some msg)) (tokens msg).head?).tokens = (tokens msg).tail := rfl
  rw [htokens]
  cases htail : (tokens msg).tail with
  | nil => simpa using mayDeref_deref_none
  | cons cmd ts =>
      have hrest := hf cmd ts ((m.after (.strtok (some msg)) (tokens msg).head?).after
        (.strtok none) (some cmd)) htail (congrArg List.tail htail)
      simpa [deref] using hrest

lemma mayDeref_orError {command : Method ℤ} {retmsg : String} :
    MayDeref (orError command retmsg) m ↔ MayDeref command m :=
  mayDeref_bind fun ret => by simp [sendMsg, send]

lemma mayDeref_parse_bind {f : ℤ × Option Token → Method α}
    (hnone : ∀ t, MayDeref (f (-1, none)) t) (hsome : ∀ arg, Safe (f (positiveInt arg, some arg))) :
    MayDeref (parsePositiveInt >>= f) m ↔ m.tokens.head? = none := by
  rw [parsePositiveInt, Program.bind_assoc, mayDeref_strtok_bind]
  cases m.tokens.head? with
  | none => simpa using hnone _
  | some arg => exact iff_of_false (Never.not_mayCall (hsome arg)) (by simp)

/-- They use their argument where it is no number, and so where it is missing. -/
lemma mayDeref_triggerBit {one : ℤ → TriggerAction} {all : TriggerAction} :
    MayDeref (triggerBit nvata one all) m ↔ m.tokens.head? = none := by
  refine mayDeref_parse_bind (fun t => ?_) fun arg => ?_
  · exact mayDeref_deref_none
  · simp [deref, vata, sendOk, send]

lemma mayDeref_triggerEnableAsic :
    MayDeref (triggerEnableAsic nvata) m ↔ m.tokens.head? = none := by
  refine mayDeref_parse_bind (fun t => ?_) fun arg => ?_
  · exact mayDeref_deref_none
  · simp [deref, vata, sendOk, sendMsg, send]

lemma mayDeref_triggerDisableAsic :
    MayDeref (triggerDisableAsic nvata) m ↔ m.tokens.head? = none := by
  refine mayDeref_parse_bind (fun t => ?_) fun arg => ?_
  · exact mayDeref_deref_none
  · simp [deref, vata, sendOk, sendMsg, send]

lemma mayDeref_vataCommand {command : VataCommand} :
    MayDeref (vataCommand nvata (some command)) m ↔
      command ∈ triggerCommands ∧ m.tokens.head? = none := by
  by_cases hcommand : command ∈ triggerCommands
  · rw [and_iff_right hcommand]
    simp only [triggerCommands, List.mem_cons, List.not_mem_nil, or_false] at hcommand
    rcases hcommand with rfl | rfl | rfl | rfl
    · exact mayDeref_orError.trans mayDeref_triggerBit
    · exact mayDeref_orError.trans mayDeref_triggerBit
    · exact mayDeref_orError.trans mayDeref_triggerEnableAsic
    · exact mayDeref_orError.trans mayDeref_triggerDisableAsic
  · refine iff_of_false (Never.not_mayCall (plain_vataCommand fun c hc heq => ?_).safe) ?_
    · exact hcommand (Option.some.inj heq ▸ hc)
    · exact fun h => hcommand h.1

/-- The `vata` message comes to such a command and has no argument for it. -/
def MissingArg (nVata : ℕ) (parts : List Token) : Prop :=
  ∃ r, vataParts nVata parts = some r ∧ r.command ∈ triggerCommands ∧ r.arg = none

lemma mayDeref_processVataMsg :
    MayDeref (processVataMsg nVata msg) m ↔
      (tokens msg).tail = [] ∨ MissingArg nVata (tokens msg).tail := by
  rw [processVataMsg, mayDeref_secondToken_bind (P := MissingArg nVata (tokens msg).tail)]
  · constructor
    · rintro (htail | ⟨-, hmissing⟩)
      · exact .inl htail
      · exact .inr hmissing
    · intro h
      by_cases htail : (tokens msg).tail = []
      · exact .inl htail
      · exact .inr ⟨htail, h.resolve_left htail⟩
  rintro num ts t htail rfl
  rw [htail]
  cases hnum : vataNumber nVata num with
  | none =>
      refine iff_of_false (Never.not_mayCall ?_) ?_
      · simp [sendCouldNotProcessMsg, sendMsg, send]
      · rintro ⟨r, hr, -⟩
        cases htokens : t.tokens <;> simp [htokens, vataParts, hnum] at hr
  | some nvata =>
      dsimp only
      rw [mayDeref_strtok_bind]
      cases htokens : t.tokens with
      | nil =>
          refine iff_of_false (Never.not_mayCall ?_) ?_
          · simp [sendCouldNotProcessMsg, sendMsg, send]
          · rintro ⟨r, hr, -⟩
            exact absurd hr (by simp [vataParts])
      | cons cmd args =>
          have hparts : vataParts nVata (num :: cmd :: args) =
              (lookup vataTable cmd).map fun command => ⟨nvata, command, args.head?⟩ := by
            cases hlookup : lookup vataTable cmd <;> simp [vataParts, hnum, hlookup]
          rw [MissingArg, hparts]
          dsimp only [List.head?_cons]
          cases lookup vataTable cmd with
          | none =>
              refine iff_of_false (Never.not_mayCall (plain_vataCommand fun c _ => by simp).safe) ?_
              rintro ⟨r, hr, -⟩
              exact absurd hr (by simp)
          | some command =>
              rw [mayDeref_vataCommand]
              have hargs : (t.after (.strtok none) (some cmd)).tokens = args :=
                congrArg List.tail htokens
              simp [hargs]

end MayDeref

/-! ## Requests -/

/-- The groups that take their message apart. -/
def tokenGroups : List Group := [.emit, .cal, .dac, .sync, .vata]

/-- The request of such a group is its first word only. -/
def FirstWordOnly (request : List Byte) : Prop :=
  (∃ group ∈ tokenGroups, lookup groupTable (ofBuffer request) = some group) ∧
    (tokens (ofBuffer request)).length < 2

/-- The request comes to a command for a bit or an asic of the trigger mask and has no argument
for it. -/
def MissingTriggerArg (nVata : ℕ) (request : List Byte) : Prop :=
  ∃ r, vataRequest nVata request = some r ∧ r.command ∈ triggerCommands ∧ r.arg = none

/-- No run of the request uses a null pointer, and where it misses a token it is answered by one
message, which tells of an error. -/
def ChecksTokens (nVata : ℕ) (srv : LayerServer) (request : List Byte) : Prop :=
  ∀ m, ¬ MayDeref (handle nVata srv request) m ∧
    DoesAt m (handle nVata srv request) fun _ es =>
      missed es = true → ∃ msg, sockets es = [.send msg] ∧ IsError msg

section Requests

variable {nVata : ℕ} {srv : LayerServer} {request : List Byte} {m : Machine}

lemma tail_eq_nil_iff {α : Type} {l : List α} : l.tail = [] ↔ l.length < 2 := by
  match l with
  | [] => simp
  | [_] => simp
  | _ :: _ :: _ => simp

/-- A dispatcher whose commands are safe. -/
lemma mayDeref_dispatcher {α β : Type} {msg : List Byte} {f : Token → Method α} {g : α → β}
    (hf : ∀ cmd, Safe (f cmd)) :
    MayDeref ((secondToken msg >>= f) >>= fun r => pure (g r)) m ↔ (tokens msg).length < 2 := by
  refine (mayDeref_bind fun _ => never_done).trans ?_
  rw [mayDeref_secondToken_bind (P := False), ← tail_eq_nil_iff]
  · simp
  · exact fun cmd ts t _ _ => iff_of_false (hf cmd).not_mayCall id

lemma mayDeref_handle :
    MayDeref (handle nVata srv request) m ↔
      FirstWordOnly request ∨ MissingTriggerArg nVata request := by
  have hmissing : ∀ group, group ≠ .vata → lookup groupTable (ofBuffer request) = some group →
      ¬ MissingTriggerArg nVata request := by
    rintro group hne hgroup ⟨r, hr, -⟩
    exact hne (Option.some.inj (hgroup.symm.trans (lookup_of_vataRequest hr)))
  rw [handle]
  cases hgroup : lookup groupTable (ofBuffer request) with
  | none =>
      refine iff_of_false (Never.not_mayCall ?_) ?_
      · simp [sendCouldNotProcessMsg, sendMsg, send]
      · rintro (⟨⟨group, -, hg⟩, -⟩ | ⟨r, hr, -⟩)
        · exact absurd (hgroup.symm.trans hg) (by simp)
        · exact absurd (hgroup.symm.trans (lookup_of_vataRequest hr)) (by simp)
  | some group =>
      have hfirst : group ∈ tokenGroups →
          (FirstWordOnly request ↔ (tokens (ofBuffer request)).length < 2) :=
        fun hmem => and_iff_right ⟨group, hmem, hgroup⟩
      cases group with
      | emit =>
          rw [hfirst (by decide), or_iff_left (hmissing _ (by decide) hgroup)]
          exact mayDeref_dispatcher fun _ => safe_emitCommand
      | cal =>
          rw [hfirst (by decide), or_iff_left (hmissing _ (by decide) hgroup)]
          exact mayDeref_dispatcher fun _ => plain_calCommand.safe
      | dac =>
          rw [hfirst (by decide), or_iff_left (hmissing _ (by decide) hgroup)]
          exact mayDeref_dispatcher fun _ => plain_dacCommand.safe
      | sync =>
          rw [hfirst (by decide), or_iff_left (hmissing _ (by decide) hgroup)]
          exact mayDeref_dispatcher fun _ => plain_syncCommand.safe
      | vata =>
          rw [hfirst (by decide), ← tail_eq_nil_iff, MissingTriggerArg, vataRequest, if_pos hgroup]
          exact (mayDeref_bind fun _ => never_done).trans mayDeref_processVataMsg
      | getNVata =>
          refine iff_of_false (Never.not_mayCall (by simp [send])) ?_
          rintro (⟨⟨group, hmem, hg⟩, -⟩ | hmiss)
          · obtain rfl := Option.some.inj (hgroup.symm.trans hg)
            exact absurd hmem (by decide)
          · exact hmissing _ (by decide) hgroup hmiss
      | halt =>
          refine iff_of_false (Never.not_mayCall ?_) ?_
          · simp [killPacketEmitter, inprocSend, joinEmitter]
          rintro (⟨⟨group, hmem, hg⟩, -⟩ | hmiss)
          · obtain rfl := Option.some.inj (hgroup.symm.trans hg)
            exact absurd hmem (by decide)
          · exact hmissing _ (by decide) hgroup hmiss

/-- A missed token is answered, if the request returns. -/
lemma Effect.error_of_missed {calls : List Event} (heffect : Effect nVata request calls)
    (hmissed : missed calls = true) : ∃ msg, sockets calls = [.send msg] ∧ IsError msg := by
  cases heffect with
  | halt _ hquiet => exact absurd (hquiet.2.symm.trans hmissed) Bool.false_ne_true
  | binary _ _ hnone => exact absurd (hnone.symm.trans hmissed) Bool.false_ne_true
  | asic _ _ hnone _ => exact absurd (hnone.symm.trans hmissed) Bool.false_ne_true
  | reply _ _ hreply =>
      obtain ⟨msg, hsockets, herror⟩ := hreply
      exact ⟨msg, hsockets, herror hmissed⟩

/-- **Missing tokens.** Whatever the server has done before, no run of a request uses a null
pointer and every missed token is answered by one error, if and only if the request has a second
token, where its group takes the message apart, and has an argument, where it comes to a command
for a bit or an asic of the trigger mask. -/
theorem checksTokens_iff (nVata : ℕ) (srv : LayerServer) (request : List Byte) :
    ChecksTokens nVata srv request ↔
      ¬ FirstWordOnly request ∧ ¬ MissingTriggerArg nVata request := by
  constructor
  · intro hchecks
    have hsafe := (hchecks ⟨[], []⟩).1
    rw [mayDeref_handle] at hsafe
    exact not_or.mp hsafe
  · rintro ⟨hfirst, hmissing⟩ m
    refine ⟨?_, (doesAt_handle m).mono fun _ es heffect => heffect.error_of_missed⟩
    rw [mayDeref_handle]
    exact not_or.mpr ⟨hfirst, hmissing⟩

end Requests

/-- A bare `emit` compares a null pointer with `status`. -/
theorem emit_not_checksTokens :
    ¬ ∀ (nVata : ℕ) (srv : LayerServer) (request : List Byte), ChecksTokens nVata srv request := by
  intro hchecks
  have hsafe := (hchecks 12 started (bytes "emit") ⟨[], []⟩).1
  exact hsafe (mayDeref_handle.mpr (.inl ⟨⟨.emit, by decide, by decide⟩, by decide⟩))

end LayerServer

end TrackerFpga.Server
