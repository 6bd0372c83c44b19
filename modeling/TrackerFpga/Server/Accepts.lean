import TrackerFpga.Server.Grammar
import TrackerFpga.Server.NullTokens

/-!
# What the server accepts

A request that is a form of the grammar should do what the form says, and every other request of
these groups should be answered by an error and do nothing (`FollowsGrammar`).  The code does what
the form says for every request that resembles one (`ends_form`), and answers the others by an error
if they have a second token (`ends_unsupported`).  So it follows the grammar for the requests that
resemble nothing but what they are (`followsGrammar_iff`).
-/

namespace TrackerFpga.Server

open ByteCodec CString Interaction Mapped

namespace LayerServer

open Method

/-! ## What the forms do -/

/-- What a command without a number does. -/
def PlainCommand.acts (srv : LayerServer) : PlainCommand → List Call
  | .emit .status => []
  | .emit .start => if srv.dataEmitterRunning then [] else [.inprocSend (bytes "start")]
  | .emit .stop => if srv.dataEmitterRunning then [.inprocSend (bytes "stop" ++ [0#8])] else []
  | .startInf => [.cal (.startInfPulses srv.calctrl)]
  | .stopInf => [.cal .stopInfPulses]
  | .dacQuery q => [.dacQuery q]
  | .counterReset => [.sync .counterReset]
  | .getCounter => [.syncCounter]
  | .forceTrigger => [.sync .forceTrigger]
  | .getGlobalHitEna => [.isGlobalHitEnabled]
  | .globalHitEnable => [.sync .globalHitEnable]
  | .globalHitDisable => [.sync .globalHitDisable]
  | .getAsicHitDisableMask => [.asicHitDisableMask]
  | .halt => [.inprocSend (bytes "halt"), .joinEmitter]

/-- What a command without a number is answered by. -/
def PlainCommand.replies (srv : LayerServer) (d : Devices) : PlainCommand → List (List Byte)
  | .emit .status => [bytes (if srv.dataEmitterRunning then "running" else "stopped") ++ [0#8]]
  | .emit .start =>
      [bytes (if srv.dataEmitterRunning then "ERROR: emitter already running" else "ok") ++ [0#8]]
  | .emit .stop =>
      [bytes (if srv.dataEmitterRunning then "ok" else "ERROR: emitter not running") ++ [0#8]]
  | .dacQuery q => [encodeLE 4 (q.method.eval registers d.dac).1.toNat]
  | .getCounter => [encodeLE 8 d.counter.toNat]
  | .getGlobalHitEna =>
      [[if (Sync.SyncCtrl.isGlobalHitEnabled.eval registers d.sync).1 then 1#8 else 0#8]]
  | .getAsicHitDisableMask =>
      [encodeLE 4 (Sync.SyncCtrl.getAsicHitDisableMask.eval registers d.sync).1.toNat]
  | .halt => []
  | _ => [bytes "ok" ++ [0#8]]

/-- What a form does. -/
def Form.acts (srv : LayerServer) : Form → List Call
  | .plain p => p.acts srv
  | .number c n => [c.call srv.calctrl n]

/-- What a form is answered by. -/
def Form.replies (srv : LayerServer) (d : Devices) : Form → List (List Byte)
  | .plain p => p.replies srv d
  | .number _ _ => [bytes "ok" ++ [0#8]]

section Plain

variable {nVata : ℕ} {others : (o : Call) → Option o.Answer} {w : World} {srv : LayerServer}
  {request : List Byte}

/-! ### The commands -/

lemma ends_emitCommand (c : EmitCommand) : ∃ r,
    Ends nVata others (emitCommand srv.dataEmitterRunning (some c)) w r
      ((PlainCommand.emit c).replies srv w.devices) ((PlainCommand.emit c).acts srv) w.devices := by
  cases hrunning : srv.dataEmitterRunning with
  | false =>
      simp only [PlainCommand.replies, PlainCommand.acts, hrunning]
      cases c with
      | status => exact ⟨(0, false), ends_send_pure rfl⟩
      | start =>
          exact ⟨(0, true), ends_act rfl rfl rfl fun _ _ hdevices => ends_send_pure hdevices⟩
      | stop => exact ⟨(0, false), ends_send_pure rfl⟩
  | true =>
      simp only [PlainCommand.replies, PlainCommand.acts, hrunning]
      cases c with
      | status => exact ⟨(0, true), ends_send_pure rfl⟩
      | start => exact ⟨(0, true), ends_send_pure rfl⟩
      | stop =>
          exact ⟨(0, false), ends_act rfl rfl rfl fun _ _ hdevices => ends_send_pure hdevices⟩

lemma ends_startInf {calctrl : CalCtrl} :
    Ends nVata others (calCommand calctrl (some .startInf)) w (0, calctrl) [bytes "ok" ++ [0#8]]
      [.cal (.startInfPulses calctrl)] (w.devices.afterCal (.startInfPulses calctrl)) :=
  ends_bind_reply (ends_cal fun _ hdevices => ends_pure hdevices) fun _ hdevices =>
    ends_send_pure hdevices

lemma ends_stopInf {calctrl : CalCtrl} :
    Ends nVata others (calCommand calctrl (some .stopInf)) w (0, calctrl) [bytes "ok" ++ [0#8]]
      [.cal .stopInfPulses] (w.devices.afterCal .stopInfPulses) :=
  ends_bind_reply (ends_cal fun _ hdevices => ends_pure hdevices) fun _ hdevices =>
    ends_send_pure hdevices

lemma ends_dacQuery (q : DacQuery) :
    Ends nVata others (dacCommand (some (queryCommand q))) w 0
      [encodeLE 4 (q.method.eval registers w.devices.dac).1.toNat] [.dacQuery q] w.devices := by
  have hend : Ends nVata others (dacSend q) w 0 _ _ _ :=
    ends_act rfl rfl rfl fun _ _ hdevices => ends_send_pure hdevices
  cases q with
  | getDelay => exact hend
  | getInput => exact hend

/-- The methods of `SyncCtrl` without an argument refuse nothing. -/
lemma ends_syncThenOk {a : SyncAction}
    (ha : a ∈ [.counterReset, .forceTrigger, .globalHitEnable, .globalHitDisable]) :
    Ends nVata others (syncThenOk a) w 0 [bytes "ok" ++ [0#8]] [.sync a]
      (w.devices.afterSync nVata a) := by
  refine ends_sync ?_ fun _ hdevices => ends_send_pure hdevices
  cases a with
  | asicHitEnable n => simp at ha
  | asicHitDisable n => simp at ha
  | _ => simp [SyncAction.method, void]

/-! ### The requests -/

section Requests

variable {ms : List (List Byte)} {acts : List Call}

lemma ends_of_cal {command : CalCommand} (hbegins : Begins [Group.cal.word, command.word] request)
    (h : ∀ args, ∃ r d,
      Ends nVata others (calCommand srv.calctrl (some command)) (w.rest args) r ms acts d) :
    ∃ r d, Ends nVata others (handle nVata srv request) w r ms acts d := by
  obtain ⟨hword, cmd, args, htail, hsub⟩ := begins_pair.mp hbegins
  obtain ⟨r, d, hend⟩ := h args
  rw [← (lookup_cal command).mpr hsub] at hend
  exact ⟨_, _, ends_calMsg ((lookup_group .cal).mpr hword) htail hend⟩

lemma ends_of_sync {command : SyncCommand}
    (hbegins : Begins [Group.sync.word, command.word] request)
    (h : ∀ args, ∃ ret d,
      Ends nVata others (syncCommand (some command)) (w.rest args) ret ms acts d) :
    ∃ r d, Ends nVata others (handle nVata srv request) w r ms acts d := by
  obtain ⟨hword, cmd, args, htail, hsub⟩ := begins_pair.mp hbegins
  obtain ⟨r, d, hend⟩ := h args
  rw [← (lookup_sync command).mpr hsub] at hend
  exact ⟨_, _, ends_syncMsg ((lookup_group .sync).mpr hword) htail hend⟩

end Requests

/-- A request that comes to a command without a number does what this does. -/
lemma ends_plain {p : PlainCommand} (hp : Resembles nVata request (.plain p)) : ∃ r d,
    Ends nVata others (handle nVata srv request) w r (p.replies srv w.devices) (p.acts srv) d := by
  obtain ⟨hbegins, hquery⟩ := hp
  cases p with
  | emit c =>
      obtain ⟨hword, cmd, args, htail, hsub⟩ := begins_pair.mp hbegins
      obtain ⟨r, hend⟩ : ∃ r, Ends nVata others (emitCommand srv.dataEmitterRunning (some c))
          (w.rest args) r _ _ _ := ends_emitCommand c
      rw [← (lookup_emit c).mpr hsub] at hend
      exact ⟨_, _, ends_emit ((lookup_group .emit).mpr hword) htail hend⟩
  | dacQuery q =>
      obtain ⟨hword, cmd, args, htail, -⟩ := begins_pair.mp hbegins
      have hsub := hquery q rfl
      rw [← List.getElem?_tail, htail, List.getElem?_cons_zero] at hsub
      have hend : Ends nVata others (dacCommand (some (queryCommand q))) (w.rest args) _ _ _ _ :=
        ends_dacQuery q
      rw [← (lookup_dac_get (by cases q <;> decide)).mpr (Option.some.inj hsub)] at hend
      exact ⟨_, _, ends_dacMsg ((lookup_group .dac).mpr hword) htail hend⟩
  | halt =>
      have hgroup := (lookup_group .halt).mpr (begins_cons.mp hbegins).1
      refine ⟨(exitReqRecvCode, { srv with dataEmitterRunning := false }), w.devices, ?_⟩
      rw [handle, hgroup]
      refine ends_act rfl rfl rfl fun _ _ hdevices₁ => ?_
      exact ends_act rfl rfl rfl fun _ _ hdevices₂ => ends_pure (hdevices₂.trans hdevices₁)
  | startInf => exact ends_of_cal hbegins fun _ => ⟨_, _, ends_startInf⟩
  | stopInf => exact ends_of_cal hbegins fun _ => ⟨_, _, ends_stopInf⟩
  | counterReset => exact ends_of_sync hbegins fun _ => ⟨_, _, ends_syncThenOk (by simp)⟩
  | forceTrigger => exact ends_of_sync hbegins fun _ => ⟨_, _, ends_syncThenOk (by simp)⟩
  | globalHitEnable => exact ends_of_sync hbegins fun _ => ⟨_, _, ends_syncThenOk (by simp)⟩
  | globalHitDisable => exact ends_of_sync hbegins fun _ => ⟨_, _, ends_syncThenOk (by simp)⟩
  | getCounter =>
      refine ends_of_sync hbegins fun _ => ⟨0, w.devices, ?_⟩
      exact ends_act rfl rfl rfl fun _ _ hdevices => ends_send_pure hdevices
  | getGlobalHitEna =>
      refine ends_of_sync hbegins fun _ => ⟨0, w.devices, ?_⟩
      exact ends_act rfl rfl rfl fun _ _ hdevices => ends_send_pure hdevices
  | getAsicHitDisableMask =>
      refine ends_of_sync hbegins fun _ => ⟨0, w.devices, ?_⟩
      exact ends_act rfl rfl rfl fun _ _ hdevices => ends_send_pure hdevices

/-- **What a request does that resembles a form.**  It is what the form says. -/
lemma ends_form {f : Form} (hf : Resembles nVata request f) : ∃ r d,
    Ends nVata others (handle nVata srv request) w r (f.replies srv w.devices) (f.acts srv) d := by
  cases f with
  | plain p => exact ends_plain hf
  | number c n =>
      obtain ⟨a, hr, hrange, hvalue⟩ := resembles_number_iff.mp hf
      exact ⟨_, _, (answers_number hr hvalue).accepts hrange⟩

end Plain

/-! ## What else is done -/

/-- The groups that the grammar is about. -/
def grammarGroups : List Group := [.emit, .cal, .dac, .sync]

/-- The request is one of `vata` or for the number of cores, which have no part in the grammar. -/
def OtherGroup (request : List Byte) : Prop :=
  Group.vata.word <+: ofBuffer request ∨ Group.getNVata.word <+: ofBuffer request

section Others

variable {nVata : ℕ} {others : (o : Call) → Option o.Answer} {w : World} {srv : LayerServer}
  {request : List Byte} {cmd : Token} {args : List Token}

/-! ### Unsupported commands -/

lemma lookup_cal_none (hplain : plainParts cmd .cal = none)
    (hnumber : numberParts cmd args .cal = none) : lookup calTable cmd = none := by
  cases hlookup : lookup calTable cmd with
  | none => rfl
  | some command =>
      cases command <;> simp [plainParts, numberParts, calPlainCommand, calNumberCommand, hlookup]
        at hplain hnumber

lemma lookup_dac_none (hplain : plainParts cmd .dac = none)
    (hnumber : numberParts cmd args .dac = none) : lookup dacTable cmd = none := by
  cases hlookup : lookup dacTable cmd with
  | none => rfl
  | some command =>
      cases command <;> simp [plainParts, numberParts, dacPlainCommand, hlookup] at hplain hnumber

lemma lookup_sync_none (hplain : plainParts cmd .sync = none)
    (hnumber : numberParts cmd args .sync = none) : lookup syncTable cmd = none := by
  cases hlookup : lookup syncTable cmd with
  | none => rfl
  | some command =>
      cases command <;>
        simp [plainParts, numberParts, syncPlainCommand, syncNumberCommand, hlookup]
          at hplain hnumber

/-- A second token that is no sub-command is answered by an error. -/
lemma ends_unsupported {group : Group}
    (hgroup : lookup groupTable (ofBuffer request) = some group)
    (htail : (tokens (ofBuffer request)).tail = cmd :: args) (hmem : group ∈ grammarGroups)
    (hplain : plainParts cmd group = none) (hnumber : numberParts cmd args group = none) :
    ∃ r msg, Ends nVata others (handle nVata srv request) w r [msg] [] w.devices ∧
      IsError msg := by
  cases group with
  | emit =>
      have hend : Ends nVata others (emitCommand srv.dataEmitterRunning none) (w.rest args)
          _ _ [] _ := ends_send_pure rfl
      rw [← show lookup emitTable cmd = none from Option.map_eq_none_iff.mp hplain] at hend
      exact ⟨_, _, ends_emit hgroup htail hend, isError_ofList (by decide)⟩
  | cal =>
      have hend : Ends nVata others (calCommand srv.calctrl none) (w.rest args) _ _ [] _ :=
        ends_send_pure rfl
      rw [← lookup_cal_none hplain hnumber] at hend
      exact ⟨_, _, ends_calMsg hgroup htail hend, isError_ofList (by decide)⟩
  | dac =>
      have hend : Ends nVata others (dacCommand none) (w.rest args) _ _ [] _ := ends_send_pure rfl
      rw [← lookup_dac_none hplain hnumber] at hend
      exact ⟨_, _, ends_dacMsg hgroup htail hend, isError_ofList (by decide)⟩
  | sync =>
      have hend : Ends nVata others (syncCommand none) (w.rest args) _ _ [] _ := ends_send_pure rfl
      rw [← lookup_sync_none hplain hnumber] at hend
      exact ⟨_, _, ends_syncMsg hgroup htail hend, isError_ofList (by decide)⟩
  | vata => exact absurd hmem (by decide)
  | getNVata => exact absurd hmem (by decide)
  | halt => exact absurd hmem (by decide)

/-- A request of no group is answered by an error. -/
lemma ends_no_group (hgroup : lookup groupTable (ofBuffer request) = none) :
    ∃ r msg, Ends nVata others (handle nVata srv request) w r [msg] [] w.devices ∧
      IsError msg := by
  refine ⟨(1, srv), bytes "ERROR: could not process message" ++ [0#8], ?_,
    isError_ofList (by decide)⟩
  rw [handle, hgroup]
  exact ends_send_pure rfl

/-- A request for a command with a number that resembles none of its forms is answered by an
error. -/
lemma ends_wrong_number {r : NumberRequest} (hr : numberRequest request = some r)
    (hno : ∀ f, ¬ Resembles nVata request f) :
    ∃ r msg, Ends nVata others (handle nVata srv request) w r [msg] [] w.devices ∧
      IsError msg := by
  obtain ⟨command, arg⟩ := r
  cases command with
  | none => exact ⟨_, _, ends_no_number hr, isError_ofList (by decide)⟩
  | some c =>
      have hrange : ¬ c.InRange nVata (c.value arg) := by
        cases arg with
        | none => exact not_inRange_value_none
        | some a =>
            exact fun hrange => hno _ (resembles_number_iff.mpr ⟨a, hr, hrange, rfl⟩)
      obtain ⟨msg, hend, herror⟩ := (answers_number hr rfl).refuses hrange
      exact ⟨_, msg, hend, herror⟩

/-- **What a request does that resembles no form.**  It is answered by an error, if it has a second
token where it needs one. -/
lemma ends_error (hno : ∀ f, ¬ Resembles nVata request f) (hother : ¬ OtherGroup request)
    (htwo : ∀ g ∈ grammarGroups, g.word <+: ofBuffer request →
      2 ≤ (tokens (ofBuffer request)).length) :
    ∃ r msg, Ends nVata others (handle nVata srv request) w r [msg] [] w.devices ∧
      IsError msg := by
  cases hr : numberRequest request with
  | some r => exact ends_wrong_number hr hno
  | none =>
      cases hgroup : lookup groupTable (ofBuffer request) with
      | none => exact ends_no_group hgroup
      | some group =>
          have hword := (lookup_group group).mp hgroup
          have hhalt : group ≠ .halt := by
            rintro rfl
            exact hno _ (plainRequest_iff.mp (plainRequest_of_halt hgroup))
          have hmem : group ∈ grammarGroups := by
            cases group with
            | vata => exact absurd (.inl hword) hother
            | getNVata => exact absurd (.inr hword) hother
            | halt => exact absurd rfl hhalt
            | _ => decide
          cases htail : (tokens (ofBuffer request)).tail with
          | nil => exact absurd (htwo group hmem hword) (not_le.mpr (tail_eq_nil_iff.mp htail))
          | cons cmd args =>
              refine ends_unsupported hgroup htail hmem ?_ ?_
              · rw [Option.eq_none_iff_forall_ne_some]
                exact fun p hp => hno _ (resembles_of_plainParts hgroup htail hp)
              · rwa [← numberRequest_of_parts hgroup htail]

/-- Where the second token is missing, there is no end. -/
lemma not_ends_of_missing {group : Group} {r : ℤ × LayerServer} {ms : List (List Byte)}
    {acts : List Call} {d : Devices} (hmem : group ∈ grammarGroups)
    (hword : group.word <+: ofBuffer request) (hlength : (tokens (ofBuffer request)).length < 2) :
    ¬ Ends nVata others (handle nVata srv request) w r ms acts d := by
  have htail := tail_eq_nil_iff.mpr hlength
  have hgroup := (lookup_group group).mpr hword
  intro hend
  rw [handle, hgroup] at hend
  cases group with
  | emit => exact not_ends_dispatcher htail hend
  | cal => exact not_ends_dispatcher htail hend
  | dac => exact not_ends_dispatcher htail hend
  | sync => exact not_ends_dispatcher htail hend
  | vata => exact absurd hmem (by decide)
  | getNVata => exact absurd hmem (by decide)
  | halt => exact absurd hmem (by decide)

end Others

/-! ## The law -/

/-- The law of the grammar.  A request that is a form does what this says; every other one is
answered by an error, and does nothing; and what is done for the other groups is none of this. -/
structure FollowsGrammar (nVata : ℕ) (request : List Byte) : Prop where
  performs : ∀ f, Spells nVata (tokens (ofBuffer request)) f →
    ∀ (others : (o : Call) → Option o.Answer) (srv : LayerServer) (w : World), ∃ r d,
      Ends nVata others (handle nVata srv request) w r (f.replies srv w.devices) (f.acts srv) d
  refuses : (¬ ∃ f, Spells nVata (tokens (ofBuffer request)) f) → ¬ OtherGroup request →
    ∀ (others : (o : Call) → Option o.Answer) (srv : LayerServer) (w : World), ∃ r msg,
      Ends nVata others (handle nVata srv request) w r [msg] [] w.devices ∧ IsError msg
  leaves : OtherGroup request → ∀ (srv : LayerServer) (m m' : Machine) (r : ℤ × LayerServer),
    Exec env (handle nVata srv request) m r m' → actions m'.log = actions m.log

/-- The requests for which the code has the grammar: one of the groups has a second token, a form
has no space in front of it, what resembles a form is one, and the number of a form is read as what
it is. -/
structure Strict (nVata : ℕ) (request : List Byte) : Prop where
  twoTokens : ∀ g ∈ grammarGroups, g.word <+: ofBuffer request →
    2 ≤ (tokens (ofBuffer request)).length
  noSpace : (∃ f, Spells nVata (tokens (ofBuffer request)) f) →
    (ofBuffer request).head? ≠ some 32#8
  form : ∀ f, Resembles nVata request f → Spells nVata (tokens (ofBuffer request)) f
  sameNumber : ∀ (c : NumberCommand) (n : ℤ) (a : Token),
    tokens (ofBuffer request) = c.words ++ [a] → c.InRange nVata n → c.Denotes a n → c.Reads a n

/-! ### Other groups -/

lemma not_acts_of_vataCall {o : Call} (h : VataCall o) : ¬ ∃ ans, action ⟨o, ans⟩ ≠ none := by
  rintro ⟨ans, hne⟩
  cases h <;> exact hne rfl

/-- A program without actions adds none to the log. -/
lemma actions_of_exec {α : Type} {p : Method α} {m m' : Machine} {a : α}
    (h : Exec env p m a m') (hp : Never (fun o => ∃ ans, action ⟨o, ans⟩ ≠ none) p) :
    actions m'.log = actions m.log := by
  refine h.keeps_of_never (I := fun m₁ => actions m₁.log = actions m.log) hp ?_ rfl
  rintro o m₁ ans m₂ hno hm ⟨-, rfl⟩
  have hnone : action ⟨o, ans⟩ = none := not_not.mp fun hne => hno ⟨ans, hne⟩
  have hlog : (m₁.after o ans).log = m₁.log ++ [⟨o, ans⟩] := rfl
  rw [hlog, actions_append, hm]
  simp [actions, hnone]

section Law

variable {nVata : ℕ} {others : (o : Call) → Option o.Answer} {w : World} {srv : LayerServer}
  {request : List Byte} {f f' : Form}

lemma actions_of_otherGroup {m m' : Machine} {r : ℤ × LayerServer} (hother : OtherGroup request)
    (h : Exec env (handle nVata srv request) m r m') : actions m'.log = actions m.log := by
  refine actions_of_exec h ?_
  rcases hother with hword | hword
  · rw [handle, (lookup_group .vata).mpr hword]
    refine Never.bind (never_processVataMsg (fun _ => not_acts_of_vataCall) ?_) fun _ => never_done
    rintro ⟨ans, -⟩
    exact ans.elim
  · rw [handle, (lookup_group .getNVata).mpr hword]
    simp [send, action]

/-! ### Which form it is -/

/-- What resembles a form begins with the word of its group. -/
lemma exists_group_of_resembles (hf : Resembles nVata request f) :
    ∃ g ∈ Group.halt :: grammarGroups, g.word <+: ofBuffer request := by
  cases f with
  | plain p =>
      have hbegins := hf.1
      cases p with
      | halt => exact ⟨.halt, by decide, (begins_cons.mp hbegins).1⟩
      | emit c => exact ⟨.emit, by decide, (begins_cons.mp hbegins).1⟩
      | startInf => exact ⟨.cal, by decide, (begins_cons.mp hbegins).1⟩
      | stopInf => exact ⟨.cal, by decide, (begins_cons.mp hbegins).1⟩
      | dacQuery q => exact ⟨.dac, by decide, (begins_cons.mp hbegins).1⟩
      | _ => exact ⟨.sync, by decide, (begins_cons.mp hbegins).1⟩
  | number c n =>
      have hbegins := hf.1
      cases c with
      | setDelay => exact ⟨.dac, by decide, (begins_cons.mp hbegins).1⟩
      | setCounts side choice => exact ⟨.dac, by decide, (begins_cons.mp hbegins).1⟩
      | asicHit ena =>
          cases ena with
          | false => exact ⟨.sync, by decide, (begins_cons.mp hbegins).1⟩
          | true => exact ⟨.sync, by decide, (begins_cons.mp hbegins).1⟩
      | _ => exact ⟨.cal, by decide, (begins_cons.mp hbegins).1⟩

lemma not_otherGroup_of_group {g : Group} (hg : g ∈ Group.halt :: grammarGroups)
    (hword : g.word <+: ofBuffer request) : ¬ OtherGroup request := by
  have hlookup := (lookup_group g).mpr hword
  rintro (hother | hother)
  · have heq := hlookup.symm.trans ((lookup_group .vata).mpr hother)
    obtain rfl := Option.some.inj heq
    exact absurd hg (by decide)
  · have heq := hlookup.symm.trans ((lookup_group .getNVata).mpr hother)
    obtain rfl := Option.some.inj heq
    exact absurd hg (by decide)

lemma head_ne_space_of_group {g : Group} (hword : g.word <+: ofBuffer request) :
    (ofBuffer request).head? ≠ some 32#8 := by
  obtain ⟨rest, hrest⟩ := hword
  have hhead : ∀ g : Group, g.word ≠ [] ∧ g.word.head? ≠ some 32#8 := by
    intro g
    cases g <;> decide
  obtain ⟨b, word, hcons⟩ := List.exists_cons_of_ne_nil (hhead g).1
  have hspace := (hhead g).2
  rw [hcons] at hrest hspace
  rw [← hrest]
  exact hspace

/-- A request does not come to a command with a number and to one without. -/
lemma plainRequest_of_number {r : NumberRequest} (hr : numberRequest request = some r) :
    plainRequest request = none := by
  obtain ⟨group, cmd, args, hgroup, htail, hparts⟩ := exists_parts_of_numberRequest hr
  have hhalt : group ≠ .halt := by
    rintro rfl
    simp [numberParts] at hparts
  rw [plainRequest_of_parts hgroup htail hhalt]
  cases group with
  | cal =>
      obtain ⟨command, hlookup, hparts⟩ := Option.bind_eq_some_iff.mp hparts
      rw [plainParts, hlookup]
      cases command <;> simp [calNumberCommand] at hparts <;> rfl
  | dac =>
      obtain ⟨command, hlookup, hparts⟩ := Option.bind_eq_some_iff.mp hparts
      rw [plainParts, hlookup]
      cases command <;> simp at hparts <;> rfl
  | sync =>
      obtain ⟨command, hlookup, hparts⟩ := Option.bind_eq_some_iff.mp hparts
      rw [plainParts, hlookup]
      cases command <;> simp [syncNumberCommand] at hparts <;> rfl
  | _ => simp [numberParts] at hparts

/-- Another number is another call. -/
lemma call_injective {c : NumberCommand} {calctrl : CalCtrl} {n k : ℤ} (hn : c.InRange nVata n)
    (hk : c.InRange nVata k) (h : c.call calctrl n = c.call calctrl k) : n = k := by
  cases c with
  | flag f =>
      have hset := CalAction.writeSettings.inj (Call.cal.inj h)
      have hget : ∀ b, f.get (f.set calctrl b) = b := by cases f <;> exact fun _ => rfl
      have hflag : decide (n = 1) = decide (k = 1) := by
        rw [← hget (decide (n = 1)), ← hget (decide (k = 1))]
        exact congrArg f.get hset
      have hone := decide_eq_decide.mp hflag
      have hint : (0 ≤ n ∧ n ≤ 1) ∧ 0 ≤ k ∧ k ≤ 1 := ⟨hn, hk⟩
      omega
  | setting f =>
      have hset := CalAction.writeSettings.inj (Call.cal.inj h)
      have hget : ∀ v, f.get (f.set calctrl v) = v := by cases f <;> exact fun _ => rfl
      have hword : BitVec.ofInt 32 n = BitVec.ofInt 32 k := by
        rw [← hget (BitVec.ofInt 32 n), ← hget (BitVec.ofInt 32 k)]
        exact congrArg f.get hset
      rw [← toNat_ofInt hn, ← toNat_ofInt hk, hword]
  | nPulses =>
      have hint : (1 ≤ n ∧ n ≤ 2147483647) ∧ 1 ≤ k ∧ k ≤ 2147483647 := ⟨hn, hk⟩
      have hword := (CalAction.nPulses.inj (Call.cal.inj h)).2
      rw [← toNat_ofInt (n := n) (by omega), ← toNat_ofInt (n := k) (by omega), hword]
  | setDelay =>
      have hint : (0 ≤ n ∧ n ≤ 65535) ∧ 0 ≤ k ∧ k ≤ 65535 := ⟨hn, hk⟩
      have hword := Dac.DacCtrl.Call.setDelay.inj (Call.dac.inj h)
      rw [← toNat_ofInt (n := n) (by omega), ← toNat_ofInt (n := k) (by omega), hword]
  | setCounts side choice =>
      have hint : (0 ≤ n ∧ n ≤ 4095) ∧ 0 ≤ k ∧ k ≤ 4095 := ⟨hn, hk⟩
      have hword := (Dac.DacCtrl.Call.setCounts.inj (Call.dac.inj h)).2.2
      rw [← toNat_ofInt (n := n) (by omega), ← toNat_ofInt (n := k) (by omega), hword]
  | asicHit ena =>
      cases ena with
      | false => exact SyncAction.asicHitDisable.inj (Call.sync.inj h)
      | true => exact SyncAction.asicHitEnable.inj (Call.sync.inj h)

/-- A form is more than one error, for some server. -/
lemma exists_visible (f : Form) : ∃ srv : LayerServer, ∀ d msg, IsError msg →
    ¬ (f.replies srv d = [msg] ∧ f.acts srv = []) := by
  have hreport : ¬ IsError (bytes "stopped" ++ [0#8]) := by decide
  cases f with
  | number c n =>
      refine ⟨started, ?_⟩
      rintro d msg - ⟨-, hacts⟩
      simp [Form.acts] at hacts
  | plain p =>
      cases p with
      | emit c =>
          cases c with
          | status =>
              refine ⟨started, ?_⟩
              rintro d msg herror ⟨hmsg, -⟩
              obtain rfl := List.head_eq_of_cons_eq hmsg
              exact hreport herror
          | start =>
              refine ⟨started, ?_⟩
              rintro d msg - ⟨-, hacts⟩
              simp [Form.acts, PlainCommand.acts, started] at hacts
          | stop =>
              refine ⟨{ started with dataEmitterRunning := true }, ?_⟩
              rintro d msg - ⟨-, hacts⟩
              simp [Form.acts, PlainCommand.acts] at hacts
      | _ =>
          refine ⟨started, ?_⟩
          rintro d msg - ⟨-, hacts⟩
          simp [Form.acts, PlainCommand.acts] at hacts

/-- What resembles one form and is spelled as another is this one, by the law. -/
lemma FollowsGrammar.eq_of_spells (hlaw : FollowsGrammar nVata request)
    (hf : Resembles nVata request f) (hf' : Spells nVata (tokens (ofBuffer request)) f') :
    f' = f := by
  obtain ⟨g, hg, hword⟩ := exists_group_of_resembles hf
  have hspace := head_ne_space_of_group hword
  cases f' with
  | plain p' =>
      have hp' : plainRequest request = some p' :=
        plainRequest_iff.mpr (resembles_of_spells hf' hspace (by simp))
      cases f with
      | plain p =>
          have hsame := hp'.symm.trans (plainRequest_iff.mpr hf)
          exact congrArg Form.plain (Option.some.inj hsame)
      | number c n =>
          obtain ⟨a, hr, -⟩ := resembles_number_iff.mp hf
          exact absurd (hp'.symm.trans (plainRequest_of_number hr)) (by simp)
  | number c' k =>
      have hspelled := hf'
      obtain ⟨hk, a', -, htokens⟩ := hf'
      have hr' := numberRequest_iff.mpr ⟨begins_of_tokens c'.words_ne_nil htokens hspace, rfl⟩
      cases f with
      | plain p =>
          exact absurd ((plainRequest_iff.mpr hf).symm.trans (plainRequest_of_number hr')) (by simp)
      | number c n =>
          obtain ⟨a, hr, hn, -⟩ := resembles_number_iff.mp hf
          obtain rfl : c' = c := by
            have hcommand := congrArg NumberRequest.command (Option.some.inj (hr'.symm.trans hr))
            exact Option.some.inj hcommand
          obtain ⟨r, d, hend⟩ := hlaw.performs _ hspelled (fun _ => none) started .start
          obtain ⟨r', d', hend'⟩ := ends_form hf
          obtain ⟨-, -, hacts, -⟩ := hend.unique hend'
          have hcall : c'.call _ k = c'.call _ n := List.head_eq_of_cons_eq hacts
          rw [call_injective hk hn hcall]

/-- By the law a form is not answered by an error only. -/
lemma FollowsGrammar.not_refused (hlaw : FollowsGrammar nVata request)
    (hf : Spells nVata (tokens (ofBuffer request)) f)
    (herror : ∀ srv : LayerServer, ∃ r msg, Ends nVata (fun _ => none) (handle nVata srv request)
      .start r [msg] [] World.start.devices ∧ IsError msg) : False := by
  obtain ⟨srv, hvisible⟩ := exists_visible f
  obtain ⟨r, d, hend⟩ := hlaw.performs f hf (fun _ => none) srv .start
  obtain ⟨r', msg, hend', hmsg⟩ := herror srv
  obtain ⟨-, hreplies, hacts, -⟩ := hend.unique hend'
  exact hvisible _ msg hmsg ⟨hreplies, hacts⟩

/-- By the law no form has a space in front of it. -/
lemma FollowsGrammar.noSpace (hlaw : FollowsGrammar nVata request)
    (hf : Spells nVata (tokens (ofBuffer request)) f) :
    (ofBuffer request).head? ≠ some 32#8 := by
  intro hspace
  have hgroup : lookup groupTable (ofBuffer request) = none := by
    rw [Option.eq_none_iff_forall_ne_some]
    exact fun g hg => head_ne_space_of_group ((lookup_group g).mp hg) hspace
  exact hlaw.not_refused hf fun srv => ends_no_group hgroup

/-- By the law the number of a form is read as what it is. -/
lemma FollowsGrammar.reads (hlaw : FollowsGrammar nVata request) {c : NumberCommand} {n : ℤ}
    {a : Token} (htokens : tokens (ofBuffer request) = c.words ++ [a]) (hn : c.InRange nVata n)
    (hdenotes : c.Denotes a n) : c.Reads a n := by
  have hf : Spells nVata (tokens (ofBuffer request)) (.number c n) := ⟨hn, a, hdenotes, htokens⟩
  have harg : (tokens (ofBuffer request))[c.words.length]? = some a := by
    rw [htokens, List.getElem?_append_right le_rfl, Nat.sub_self, List.getElem?_cons_zero]
  have hr := numberRequest_iff.mpr
    ⟨begins_of_tokens c.words_ne_nil htokens (hlaw.noSpace hf), harg.symm⟩
  have htaken : c.InRange nVata (c.value (some a)) := by
    by_contra hout
    refine hlaw.not_refused hf fun srv => ?_
    obtain ⟨msg, hend, hmsg⟩ := (answers_number hr rfl).refuses hout
    exact ⟨_, msg, hend, hmsg⟩
  obtain ⟨r, d, hend⟩ := hlaw.performs _ hf (fun _ => none) started .start
  obtain ⟨-, -, hacts, -⟩ := hend.unique ((answers_number hr rfl).accepts htaken)
  have hcall := List.head_eq_of_cons_eq hacts
  exact (value_eq_iff_reads (List.mem_of_getElem? harg) hn).mp (call_injective hn htaken hcall).symm

lemma FollowsGrammar.strict (hlaw : FollowsGrammar nVata request) : Strict nVata request where
  twoTokens g hg hword := by
    by_contra hlength
    by_cases hspelled : ∃ f, Spells nVata (tokens (ofBuffer request)) f
    · obtain ⟨f, hf⟩ := hspelled
      obtain ⟨r, d, hend⟩ := hlaw.performs f hf (fun _ => none) started .start
      exact not_ends_of_missing hg hword (not_le.mp hlength) hend
    · have hother := not_otherGroup_of_group (List.mem_cons_of_mem _ hg) hword
      obtain ⟨r, msg, hend, -⟩ := hlaw.refuses hspelled hother (fun _ => none) started .start
      exact not_ends_of_missing hg hword (not_le.mp hlength) hend
  noSpace := fun ⟨f, hf⟩ => hlaw.noSpace hf
  form f hf := by
    by_cases hspelled : ∃ f, Spells nVata (tokens (ofBuffer request)) f
    · obtain ⟨f', hf'⟩ := hspelled
      rwa [← hlaw.eq_of_spells hf hf']
    · obtain ⟨g, hg, hword⟩ := exists_group_of_resembles hf
      have hother := not_otherGroup_of_group hg hword
      obtain ⟨srv, hvisible⟩ := exists_visible f
      obtain ⟨r, msg, hend, hmsg⟩ := hlaw.refuses hspelled hother (fun _ => none) srv .start
      obtain ⟨r', d, hend'⟩ := ends_form hf
      obtain ⟨-, hreplies, hacts, -⟩ := hend'.unique hend
      exact absurd ⟨hreplies, hacts⟩ (hvisible _ msg hmsg)
  sameNumber c n a htokens hn hdenotes := hlaw.reads htokens hn hdenotes

/-- **The server accepts its grammar**, if and only if the request resembles nothing but what it
is. -/
theorem followsGrammar_iff (nVata : ℕ) (request : List Byte) :
    FollowsGrammar nVata request ↔ Strict nVata request := by
  refine ⟨FollowsGrammar.strict, fun hstrict => ⟨?_, ?_, ?_⟩⟩
  · intro f hf others srv w
    refine ends_form (resembles_of_spells hf (hstrict.noSpace ⟨f, hf⟩) ?_)
    rintro c n a rfl htokens hdenotes
    obtain ⟨hn, -⟩ := hf
    exact hstrict.sameNumber c n a htokens hn hdenotes
  · intro hspelled hother others srv w
    exact ends_error (fun f hf => hspelled ⟨f, hstrict.form f hf⟩) hother hstrict.twoTokens
  · exact fun hother srv m m' r h => actions_of_otherGroup hother h

end Law

/-- For the words that the code compares whole the grammar is met. -/
theorem getDelay_followsGrammar : FollowsGrammar 12 (bytes "dac get-delay") := by
  refine (followsGrammar_iff 12 _).mpr
    ⟨fun _ _ _ => by decide, fun _ => by decide, fun f hf => ?_, fun c n a htokens _ _ => ?_⟩
  · cases f with
    | plain p =>
        have hquery : plainRequest (bytes "dac get-delay") = some (.dacQuery .getDelay) := by decide
        obtain rfl := Option.some.inj (hquery.symm.trans (plainRequest_iff.mpr hf))
        exact (by decide : tokens (ofBuffer (bytes "dac get-delay")) =
          (PlainCommand.dacQuery .getDelay).words)
    | number c n =>
        obtain ⟨a, hnumber, -⟩ := resembles_number_iff.mp hf
        exact absurd ((by decide : numberRequest (bytes "dac get-delay") = none).symm.trans hnumber)
          (by simp)
  · have htwo : (tokens (ofBuffer (bytes "dac get-delay"))).length = 2 := by decide
    rw [htokens, List.length_append, List.length_singleton] at htwo
    have hwords : 2 ≤ c.words.length := by
      cases c with
      | asicHit ena => cases ena <;> simp [NumberCommand.words]
      | _ => simp [NumberCommand.words]
    omega

/-- A request that only begins with the word halts the server. -/
theorem halting_not_followsGrammar : ¬ FollowsGrammar 12 (bytes "halting") := by
  intro hlaw
  have hhalt : Resembles 12 (bytes "halting") (.plain .halt) := plainRequest_iff.mp (by decide)
  have hspelled : tokens (ofBuffer (bytes "halting")) = PlainCommand.halt.words :=
    hlaw.strict.form _ hhalt
  exact absurd hspelled (by decide)

end LayerServer

end TrackerFpga.Server
