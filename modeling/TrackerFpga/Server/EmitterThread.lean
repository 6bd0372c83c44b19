import TrackerFpga.Server.DataEmitter
import TrackerFpga.Server.NullTokens

/-!
# The emitter thread

`DataEmitter::operator()` runs in a thread of its own, and the server tells it by messages through
an inproc socket when to publish.  In each round of its loop the thread takes one message, which it
waits for only while it is not running, and then reads the FIFOs if it is.  The server does not ask
the thread for its state, but has a flag of its own.

The flag of the server is what the messages that are still queued will make of the flag of the
thread (`Between.expected_eq`).  What the thread publishes it publishes on the word of the message
of its last round (`Visits.obeys`).
-/

namespace TrackerFpga.Server

open ByteCodec CString Interaction

/-! ## `operator()` -/

namespace DataEmitter

/-- The test of a message for a word. -/
def received (word : String) (len : ℕ) (msg : List Byte) : Bool :=
  if msg.length < len then false else strncmp (bytes word) (ofBuffer msg) len

/-- `DataEmitter::halt_received`. -/
def haltReceived (msg : List Byte) : Bool := received "halt" 4 msg

/-- `DataEmitter::stop_received`. -/
def stopReceived (msg : List Byte) : Bool := received "stop" 4 msg

/-- `DataEmitter::start_received`. -/
def startReceived (msg : List Byte) : Bool := received "start" 5 msg

end DataEmitter

open DataEmitter

/-- Where the thread is in `operator()`: at the start of a round, at `check_fifos`, in `read_fifos`
with these cores left, or back from it. -/
inductive Position (n : ℕ)
  | round
  | checkFifos
  | readFifos (cores : List (Fin n))
  | returned
  deriving DecidableEq

/-- The emitter, its flag `running`, and where it is. -/
structure EmitterThread (n : ℕ) where
  emitter : DataEmitter n
  running : Bool
  position : Position n

variable {n : ℕ}

namespace EmitterThread

/-- The thread at its start. -/
def init : EmitterThread n := ⟨.init, false, .round⟩

/-- `running` after a message. -/
def afterMsg (running : Bool) (msg : List Byte) : Bool :=
  if haltReceived msg then running
  else if stopReceived msg then false
  else if startReceived msg then true
  else running

/-- What a round does with its message, which is empty if there was none. -/
def processMsg (t : EmitterThread n) (msg : List Byte) : EmitterThread n :=
  { t with
    running := afterMsg t.running msg
    position :=
      if haltReceived msg then .returned
      else if afterMsg t.running msg then .checkFifos
      else .round }

/-- `DataEmitter::check_fifos`, with what `get_n_fifo` returns for each core. -/
def checkFifos (t : EmitterThread n) (nFifo : Fin n → BitVec 32) : EmitterThread n :=
  { t with
    position :=
      if (List.finRange n).any fun i => 0 < (nFifo i).toInt then .readFifos (List.finRange n)
      else .round }

/-- The next call of `read_fifo` in `DataEmitter::read_fifos`. -/
def readFifo (t : EmitterThread n) (c : FifoRead n) (cores : List (Fin n)) :
    Option (EmitterThread n) := do
  let emitter ← t.emitter.readFifo c
  some { t with emitter, position := .readFifos cores }

end EmitterThread

/-! ## The channel -/

/-- What the thread has done: it took a message of the server, or published one. -/
inductive Activity
  | took (msg : List Byte)
  | published (msg : List Byte)
  deriving DecidableEq

/-- The message that was taken. -/
def Activity.taken : Activity → Option (List Byte)
  | .took msg => some msg
  | .published _ => none

/-- The message that was published. -/
def Activity.message : Activity → Option (List Byte)
  | .took _ => none
  | .published msg => some msg

/-- The inproc channel, the thread at its end, and what that has done. -/
structure EmitterLink (n : ℕ) where
  queue : List (List Byte)
  thread : EmitterThread n
  log : List Activity

namespace EmitterLink

open EmitterThread

/-- The channel at the start. -/
def start : EmitterLink n := ⟨[], .init, []⟩

/-- The server sends a message. -/
def send (l : EmitterLink n) (msg : List Byte) : EmitterLink n :=
  { l with queue := l.queue ++ [msg] }

/-- The thread has published what the emitter has sent since. -/
def publish (l : EmitterLink n) (t : EmitterThread n) : EmitterLink n where
  queue := l.queue
  thread := t
  log := l.log ++ (t.emitter.sent.drop l.thread.emitter.sent.length).map .published

/-- What the thread may do.  At the start of a round it takes the next message; if there is none,
it goes on if it is running, and waits otherwise. -/
inductive Step : EmitterLink n → EmitterLink n → Prop
  | take {l : EmitterLink n} {msg : List Byte} {queue : List (List Byte)}
      (hround : l.thread.position = .round) (hqueue : l.queue = msg :: queue) :
      Step l ⟨queue, l.thread.processMsg msg, l.log ++ [.took msg]⟩
  | nothing {l : EmitterLink n} (hround : l.thread.position = .round) (hqueue : l.queue = [])
      (hrunning : l.thread.running = true) : Step l { l with thread := l.thread.processMsg [] }
  | check {l : EmitterLink n} (nFifo : Fin n → BitVec 32)
      (hcheck : l.thread.position = .checkFifos) :
      Step l { l with thread := l.thread.checkFifos nFifo }
  | read {l : EmitterLink n} {c : FifoRead n} {cores : List (Fin n)} {t : EmitterThread n}
      (hread : l.thread.position = .readFifos (c.core :: cores))
      (ht : l.thread.readFifo c cores = some t) : Step l (l.publish t)
  | again {l : EmitterLink n} (hread : l.thread.position = .readFifos []) :
      Step l { l with thread := { l.thread with position := .round } }

/-- What the thread may do between two calls of the server. -/
abbrev Steps : EmitterLink n → EmitterLink n → Prop := Relation.ReflTransGen Step

/-- What a call of the server does to the channel: `join` waits until the thread has returned. -/
def Occurs : Call → EmitterLink n → EmitterLink n → Prop
  | .inprocSend msg, l, l' => l' = l.send msg
  | .joinEmitter, l, l' => l.thread.position = .returned ∧ l' = l
  | _, l, l' => l' = l

/-- The calls of the server between the steps of the thread. -/
def linkEnv : Env Call Call.Answer (Machine × EmitterLink n) := fun o σ ans σ' =>
  env o σ.1 ans σ'.1 ∧ ∃ l, Steps σ.2 l ∧ Occurs o l σ'.2

/-- `LayerServer::run` beside the thread: the states between two requests. -/
inductive Between (n : ℕ) : LayerServer → Machine × EmitterLink n → Prop
  | start {srv : LayerServer} (m : Machine) (hstart : srv.dataEmitterRunning = false) :
      Between n srv (m, EmitterLink.start)
  | steps {srv : LayerServer} {σ : Machine × EmitterLink n} {l : EmitterLink n}
      (hbetween : Between n srv σ) (hsteps : Steps σ.2 l) : Between n srv (σ.1, l)
  | next {srv srv' : LayerServer} {ret : ℤ} {σ σ' : Machine × EmitterLink n}
      (hbetween : Between n srv σ)
      (hreq : Exec linkEnv (LayerServer.processReq n srv) σ (ret, srv') σ')
      (hloop : ¬ (ret < 0 ∨ ret = exitReqRecvCode)) : Between n srv' σ'

/-- All the states of such a run, those in the middle of a request and after `halt` too. -/
def Visits (n : ℕ) (σ : Machine × EmitterLink n) : Prop :=
  ∃ srv σ₀ σ₁, Between n srv σ₀ ∧ Passes linkEnv (LayerServer.processReq n srv) σ₀ σ₁ ∧
    σ.1 = σ₁.1 ∧ Steps σ₁.2 σ.2

/-- The thread obeys: what it publishes is in the log; between a stop that it took and something
that it published it took a start; and after a halt that it took it publishes nothing. -/
structure Obeys (l : EmitterLink n) : Prop where
  published : l.thread.emitter.sent = l.log.filterMap Activity.message
  stopped : ∀ before stop between msg after,
    l.log = before ++ .took stop :: (between ++ .published msg :: after) →
      stopReceived stop = true → ∃ start, .took start ∈ between ∧ startReceived start = true
  halted : ∀ before halt after, l.log = before ++ .took halt :: after →
    haltReceived halt = true → ∀ msg, .published msg ∉ after

end EmitterLink

/-! ## Messages -/

namespace DataEmitter

section Sent

variable {e e' : DataEmitter n}

lemma sent_sweepFrom {currentTime : BitVec 64} {l : List (MapEntry n)}
    (h : sweepFrom sendThenEraseEntry currentTime l e = some e') : e.sent <+: e'.sent := by
  induction l generalizing e with
  | nil =>
      obtain rfl := Option.some.inj h
      exact List.prefix_rfl
  | cons it l ih =>
      rw [sweepFrom] at h
      split_ifs at h with htimed hmem hmem
      · exact (List.prefix_append _ _).trans (ih h)
      · exact ih h

lemma sent_findPacket {c : FifoRead n} (h : e.findPacket c = some e') : e.sent <+: e'.sent := by
  rw [findPacket] at h
  split_ifs at h with hmem
  · obtain rfl := Option.some.inj h
    exact List.prefix_rfl
  · obtain ⟨e₁, hstale, he⟩ := Option.bind_eq_some_iff.mp h
    obtain rfl := Option.some.inj he
    show e.sent <+: e₁.sent
    rw [checkStale] at hstale
    split_ifs at hstale with hsize
    · exact sent_sweepFrom (l := e.packets.toList) hstale
    · obtain rfl := Option.some.inj hstale
      exact List.prefix_rfl

/-- What was published stays published. -/
lemma sent_readFifo {c : FifoRead n} (h : e.readFifo c = some e') : e.sent <+: e'.sent := by
  rw [readFifo] at h
  split_ifs at h with hsuccess
  · obtain ⟨e₁, hfind, h⟩ := Option.bind_eq_some_iff.mp h
    obtain ⟨packet, -, h⟩ := Option.bind_eq_some_iff.mp h
    have hprefix := sent_findPacket hfind
    dsimp only at h
    split_ifs at h with hdone
    · obtain rfl := Option.some.inj h
      exact hprefix.trans (List.prefix_append _ _)
    · obtain rfl := Option.some.inj h
      exact hprefix
  · obtain rfl := Option.some.inj h
    exact List.prefix_rfl

end Sent

lemma received_start_of_afterMsg {msg : List Byte}
    (h : EmitterThread.afterMsg false msg = true) : startReceived msg = true := by
  rw [EmitterThread.afterMsg] at h
  split_ifs at h with hhalt hstop hstart
  exact hstart

end DataEmitter

namespace EmitterLink

open EmitterThread

/-! ## The flag of the server -/

/-- What the queued messages will make of `running`. -/
def expected (l : EmitterLink n) : Bool := l.queue.foldl afterMsg l.thread.running

section Expected

variable {α : Type} {l l' : EmitterLink n} {σ σ' : Machine × EmitterLink n}

@[simp] lemma expected_send (msg : List Byte) :
    (l.send msg).expected = afterMsg l.expected msg := by simp [expected, send, List.foldl_append]

/-- Whatever the thread does, it is expected of it. -/
lemma Step.expected_eq (h : Step l l') : l'.expected = l.expected := by
  cases h with
  | take hround hqueue =>
      rw [expected, expected, hqueue, List.foldl_cons]
      rfl
  | nothing hround hqueue hrunning =>
      have hempty : afterMsg l.thread.running [] = l.thread.running := rfl
      simp only [expected, processMsg, hempty]
  | check nFifo hcheck => rfl
  | read hread ht =>
      obtain ⟨emitter, -, hemitter⟩ := Option.bind_eq_some_iff.mp ht
      obtain rfl := Option.some.inj hemitter
      rfl
  | again hread => rfl

lemma Steps.expected_eq (h : Steps l l') : l'.expected = l.expected := by
  induction h with
  | refl => rfl
  | tail _ hstep ih => rw [hstep.expected_eq, ih]

/-- No message is sent to the emitter. -/
abbrev Silent (p : Method α) : Prop := Never (fun o => ∃ msg, o = Call.inprocSend msg) p

/-- Only what the server sends changes what is expected. -/
lemma expected_of_silent {p : Method α} {a : α} (hp : Silent p) (h : Exec linkEnv p σ a σ') :
    σ'.2.expected = σ.2.expected := by
  refine h.keeps_of_never (I := fun τ => τ.2.expected = σ.2.expected) hp ?_ rfl
  rintro o τ ans τ' hno hτ ⟨-, l, hsteps, hoccurs⟩
  rw [← hτ, ← Steps.expected_eq hsteps]
  cases o with
  | inprocSend msg => exact absurd ⟨msg, rfl⟩ hno
  | joinEmitter => rw [hoccurs.2]
  | _ => exact congrArg expected hoccurs

/-! ### The requests -/

section Silent

variable {nVata nvata : ℕ} {msg : List Byte}

open LayerServer Method

lemma silent_of_plain {p : Method α} (h : Plain p) : Silent p := h.mono fun _ => .inr

lemma not_sends_of_vataCall {o : Call} (h : VataCall o) : ¬ ∃ msg, o = .inprocSend msg := by
  rintro ⟨msg, rfl⟩
  cases h

lemma silent_secondToken : Silent (secondToken msg) :=
  never_secondToken (fun _ => not_sends_of_vataCall) (by simp)

lemma silent_processVataMsg : Silent (processVataMsg nVata msg) :=
  never_processVataMsg (fun _ => not_sends_of_vataCall) (by simp)

end Silent

lemma expected_inprocSend {msg : List Byte} {u : Unit}
    (h : Exec linkEnv (Method.inprocSend msg) σ u σ') :
    σ'.2.expected = afterMsg σ.2.expected msg := by
  obtain ⟨-, l, hsteps, hoccurs⟩ := exec_perform.mp h
  have hsend : σ'.2 = l.send msg := hoccurs
  rw [hsend, expected_send, Steps.expected_eq hsteps]

lemma expected_stopPacketEmitter {running : Bool}
    (h : Exec linkEnv LayerServer.stopPacketEmitter σ running σ') :
    running = false ∧ σ'.2.expected = false := by
  obtain ⟨_, τ, hsend, hpure⟩ := exec_bind.mp h
  obtain ⟨rfl, rfl⟩ := exec_done.mp hpure
  have hstop : ∀ running, afterMsg running (bytes "stop" ++ [0#8]) = false := by decide
  exact ⟨rfl, (expected_inprocSend hsend).trans (hstop _)⟩

lemma expected_startPacketEmitter {was running : Bool}
    (h : Exec linkEnv (LayerServer.startPacketEmitter was) σ running σ') :
    running = true ∧ σ'.2.expected = true := by
  have hstart : ∀ running, afterMsg running (bytes "start") = true := by decide
  have hlast : ∀ {τ}, Exec linkEnv (Method.inprocSend (bytes "start") >>= fun _ => pure true) τ
      running σ' → running = true ∧ σ'.2.expected = true := by
    intro τ hlast
    obtain ⟨_, υ, hsend, hpure⟩ := exec_bind.mp hlast
    obtain ⟨rfl, rfl⟩ := exec_done.mp hpure
    exact ⟨rfl, (expected_inprocSend hsend).trans (hstart _)⟩
  rw [LayerServer.startPacketEmitter] at h
  split_ifs at h with hwas
  · obtain ⟨_, τ, -, hrest⟩ := exec_bind.mp h
    exact hlast hrest
  · exact hlast h

/-- A reply, and the status and flag after it. -/
lemma expected_reply {retmsg : String} {ret : ℤ} {running : Bool} {r : ℤ × Bool}
    (h : Exec linkEnv (Method.sendMsg retmsg >>= fun _ => pure (ret, running)) σ r σ') :
    r = (ret, running) ∧ σ'.2.expected = σ.2.expected := by
  obtain ⟨_, τ, hsend, hpure⟩ := exec_bind.mp h
  obtain ⟨rfl, rfl⟩ := exec_done.mp hpure
  exact ⟨rfl, expected_of_silent (by simp [Method.sendMsg, Method.send]) hsend⟩

/-- An `emit` command tells the thread what it makes of the flag. -/
lemma expected_emitCommand {command : Option LayerServer.EmitCommand} {running : Bool}
    {r : ℤ × Bool} (hrunning : σ.2.expected = running)
    (h : Exec linkEnv (LayerServer.emitCommand running command) σ r σ') :
    σ'.2.expected = r.2 := by
  have hreply : ∀ {retmsg : String} {ret : ℤ},
      Exec linkEnv (Method.sendMsg retmsg >>= fun _ => pure (ret, running)) σ r σ' →
        σ'.2.expected = r.2 := by
    intro retmsg ret hreply
    obtain ⟨rfl, hexpected⟩ := expected_reply hreply
    exact hexpected.trans hrunning
  rcases command with - | - | - | -
  · exact hreply h
  · exact hreply h
  · rw [LayerServer.emitCommand] at h
    split_ifs at h with hflag
    · exact hreply h
    · obtain ⟨after, τ, hstart, hrest⟩ := exec_bind.mp h
      obtain ⟨rfl, hexpected⟩ := expected_startPacketEmitter hstart
      obtain ⟨rfl, hkept⟩ := expected_reply hrest
      exact hkept.trans hexpected
  · rw [LayerServer.emitCommand] at h
    split_ifs at h with hflag
    · exact hreply h
    · obtain ⟨after, τ, hstop, hrest⟩ := exec_bind.mp h
      obtain ⟨rfl, hexpected⟩ := expected_stopPacketEmitter hstop
      obtain ⟨rfl, hkept⟩ := expected_reply hrest
      exact hkept.trans hexpected

/-- A dispatcher that leaves the flag alone. -/
lemma expected_dispatcher {α : Type} {p : Method α} {g : α → ℤ × LayerServer}
    {srv : LayerServer} {r : ℤ × LayerServer} (hp : Silent p)
    (h : Exec linkEnv (p >>= fun a => pure (g a)) σ r σ')
    (hsrv : σ.2.expected = srv.dataEmitterRunning)
    (hg : ∀ a, (g a).2.dataEmitterRunning = srv.dataEmitterRunning) :
    σ'.2.expected = r.2.dataEmitterRunning := by
  obtain ⟨a, τ, hexec, hpure⟩ := exec_bind.mp h
  obtain ⟨rfl, rfl⟩ := exec_done.mp hpure
  rw [expected_of_silent hp hexec, hsrv, hg]

/-- **One request.**  What is expected of the thread is what the server believes of it, after every
request but `halt`. -/
lemma expected_processReq {nVata : ℕ} {srv : LayerServer} {r : ℤ × LayerServer}
    (hsrv : σ.2.expected = srv.dataEmitterRunning)
    (h : Exec linkEnv (LayerServer.processReq nVata srv) σ r σ') (hret : r.1 ≠ exitReqRecvCode) :
    σ'.2.expected = r.2.dataEmitterRunning := by
  obtain ⟨request, τ, hrecv, h⟩ := exec_bind.mp h
  rw [← expected_of_silent (by simp [Method.recv]) hrecv] at hsrv
  rw [LayerServer.handle] at h
  cases hgroup : lookup LayerServer.groupTable (ofBuffer request) with
  | none =>
      rw [hgroup] at h
      exact expected_dispatcher
        (by simp [LayerServer.sendCouldNotProcessMsg, Method.sendMsg, Method.send])
        h hsrv fun _ => rfl
  | some group =>
      rw [hgroup] at h
      cases group with
      | emit =>
          obtain ⟨s, υ, hemit, hpure⟩ := exec_bind.mp h
          obtain ⟨rfl, rfl⟩ := exec_done.mp hpure
          obtain ⟨cmd, ω, htoken, hcommand⟩ := exec_bind.mp hemit
          rw [← expected_of_silent silent_secondToken htoken] at hsrv
          exact expected_emitCommand hsrv hcommand
      | cal =>
          refine expected_dispatcher ?_ h hsrv fun _ => rfl
          exact Never.bind silent_secondToken fun _ =>
            silent_of_plain LayerServer.plain_calCommand
      | dac =>
          refine expected_dispatcher ?_ h hsrv fun _ => rfl
          exact Never.bind silent_secondToken fun _ =>
            silent_of_plain LayerServer.plain_dacCommand
      | sync =>
          refine expected_dispatcher ?_ h hsrv fun _ => rfl
          exact Never.bind silent_secondToken fun _ =>
            silent_of_plain LayerServer.plain_syncCommand
      | vata => exact expected_dispatcher silent_processVataMsg h hsrv fun _ => rfl
      | getNVata => exact expected_dispatcher (by simp [Method.send]) h hsrv fun _ => rfl
      | halt =>
          obtain ⟨_, υ, -, hpure⟩ := exec_bind.mp h
          obtain ⟨rfl, rfl⟩ := exec_done.mp hpure
          exact absurd rfl hret

/-- **The two flags.**  Between two requests the flag of the server is what the queued messages will
make of the flag of the thread. -/
lemma Between.expected_eq {srv : LayerServer} (h : Between n srv σ) :
    σ.2.expected = srv.dataEmitterRunning := by
  induction h with
  | start m hstart => exact hstart.symm
  | steps _ hsteps ih => exact (Steps.expected_eq hsteps).trans ih
  | next _ hreq hloop ih => exact expected_processReq ih hreq fun hret => hloop (.inr hret)

end Expected

/-! ## What is published -/

/-- The messages that were taken say that the thread is running. -/
structure Told (log : List Activity) : Prop where
  running : (log.filterMap Activity.taken).foldl afterMsg false = true
  halt : ∀ msg, .took msg ∈ log → haltReceived msg = false

/-- Where something was published the thread was running. -/
def Orderly (log : List Activity) : Prop :=
  ∀ before msg, before ++ [.published msg] <+: log → Told before

section Orderly

variable {log : List Activity} {d : Activity}

lemma orderly_nil : Orderly [] := fun before msg h => by simp at h

lemma Orderly.concat (h : Orderly log) (hd : ∀ msg, d = .published msg → Told log) :
    Orderly (log ++ [d]) := by
  intro before msg hprefix
  rcases List.prefix_concat_iff.mp hprefix with hlast | hearlier
  · obtain ⟨rfl, hmsg⟩ := List.append_inj' hlast rfl
    exact hd msg (List.cons.inj hmsg).1.symm
  · exact h before msg hearlier

lemma filterMap_taken_published (msgs : List (List Byte)) :
    (msgs.map Activity.published).filterMap Activity.taken = [] := by
  simp [List.filterMap_map, Activity.taken]

lemma filterMap_message_published (msgs : List (List Byte)) :
    (msgs.map Activity.published).filterMap Activity.message = msgs := by
  rw [List.filterMap_map]
  exact List.filterMap_some

lemma Told.concat_published (h : Told log) (msg : List Byte) :
    Told (log ++ [.published msg]) where
  running := by
    rw [List.filterMap_append, show [Activity.published msg].filterMap Activity.taken = [] from
      filterMap_taken_published [msg], List.append_nil]
    exact h.running
  halt m hm := h.halt m (by simpa using hm)

lemma Orderly.append_published (h : Orderly log) (htold : Told log) (msgs : List (List Byte)) :
    Orderly (log ++ msgs.map .published) := by
  induction msgs generalizing log with
  | nil => simpa using h
  | cons msg msgs ih =>
      rw [List.map_cons, List.append_cons]
      exact ih (h.concat fun _ _ => htold) (htold.concat_published msg)

end Orderly

/-- What the thread has done, and where it is. -/
structure Inv (l : EmitterLink n) : Prop where
  running : (l.log.filterMap Activity.taken).foldl afterMsg false = l.thread.running
  returned : ∀ msg, .took msg ∈ l.log → haltReceived msg = true → l.thread.position = .returned
  reading : l.thread.position ≠ .round → l.thread.position ≠ .returned → l.thread.running = true
  published : l.thread.emitter.sent = l.log.filterMap Activity.message
  orderly : Orderly l.log

section Inv

variable {l l' : EmitterLink n} {σ : Machine × EmitterLink n}

lemma inv_start : Inv (start : EmitterLink n) where
  running := rfl
  returned _ hmsg := absurd hmsg List.not_mem_nil
  reading hround := absurd rfl hround
  published := rfl
  orderly := orderly_nil

/-- A thread that reads has been told to. -/
lemma Inv.told (h : Inv l) (hround : l.thread.position ≠ .round)
    (hreturned : l.thread.position ≠ .returned) : Told l.log where
  running := h.running.trans (h.reading hround hreturned)
  halt msg hmsg := by
    by_contra hhalt
    exact hreturned (h.returned msg hmsg (Bool.eq_true_of_not_eq_false hhalt))

/-- After a round has its message, the thread reads only if it is running. -/
lemma reading_processMsg {t : EmitterThread n} {msg : List Byte}
    (hround : (t.processMsg msg).position ≠ .round)
    (hreturned : (t.processMsg msg).position ≠ .returned) :
    (t.processMsg msg).running = true := by
  rw [processMsg] at hround hreturned ⊢
  dsimp only at hround hreturned ⊢
  split_ifs at hround hreturned with hhalt hrunning
  · exact absurd rfl hreturned
  · exact hrunning
  · exact absurd rfl hround

/-- **One step.** -/
lemma Inv.step (h : Inv l) (hstep : Step l l') : Inv l' := by
  cases hstep with
  | @take msg queue hround hqueue =>
      refine ⟨?_, fun m hm hhalt => ?_, reading_processMsg, ?_, h.orderly.concat nofun⟩
      · rw [List.filterMap_append, List.foldl_append, h.running]
        rfl
      · rcases List.mem_append.mp hm with hm | hm
        · have hreturned := h.returned m hm hhalt
          rw [hround] at hreturned
          exact absurd hreturned nofun
        · obtain rfl := Activity.took.inj (List.mem_singleton.mp hm)
          exact if_pos hhalt
      · rw [List.filterMap_append]
        exact h.published.trans (List.append_nil _).symm
  | nothing hround hqueue hrunning =>
      have hempty : afterMsg l.thread.running [] = l.thread.running := rfl
      refine ⟨h.running.trans hempty.symm, fun m hm hhalt => ?_, reading_processMsg, h.published,
        h.orderly⟩
      have hreturned := h.returned m hm hhalt
      rw [hround] at hreturned
      exact absurd hreturned nofun
  | check nFifo hcheck =>
      have hreading : l.thread.running = true := by
        refine h.reading ?_ ?_ <;> rw [hcheck] <;> exact nofun
      refine ⟨h.running, fun m hm hhalt => ?_, fun _ _ => hreading, h.published, h.orderly⟩
      have hreturned := h.returned m hm hhalt
      rw [hcheck] at hreturned
      exact absurd hreturned nofun
  | @read c cores t hread ht =>
      obtain ⟨emitter, hemitter, ht⟩ := Option.bind_eq_some_iff.mp ht
      obtain rfl := Option.some.inj ht
      have hround : l.thread.position ≠ .round := by rw [hread]; exact nofun
      have hreturned : l.thread.position ≠ .returned := by rw [hread]; exact nofun
      obtain ⟨new, hnew⟩ := sent_readFifo hemitter
      have hlog : (l.publish { l.thread with emitter, position := .readFifos cores }).log =
          l.log ++ new.map .published := by
        rw [publish]
        dsimp only
        rw [← hnew, List.drop_left]
      refine ⟨?_, fun m hm hhalt => ?_, fun _ _ => h.reading hround hreturned, ?_, ?_⟩
      · rw [hlog, List.filterMap_append, filterMap_taken_published, List.append_nil]
        exact h.running
      · rw [hlog] at hm
        exact absurd (h.returned m (by simpa using hm) hhalt) hreturned
      · rw [hlog, List.filterMap_append, filterMap_message_published, ← h.published]
        exact hnew.symm
      · rw [hlog]
        exact h.orderly.append_published (h.told hround hreturned) new
  | again hread =>
      refine ⟨h.running, fun m hm hhalt => ?_, fun hround => absurd rfl hround, h.published,
        h.orderly⟩
      have hreturned := h.returned m hm hhalt
      rw [hread] at hreturned
      exact absurd hreturned nofun

lemma Inv.steps (h : Inv l) (hsteps : Steps l l') : Inv l' := by
  induction hsteps with
  | refl => exact h
  | tail _ hstep ih => exact ih.step hstep

/-- The calls of the server leave what the thread has done alone. -/
lemma Inv.occurs {o : Call} (h : Inv l) (hoccurs : Occurs o l l') : Inv l' := by
  cases o with
  | inprocSend msg =>
      obtain rfl : l' = l.send msg := hoccurs
      exact ⟨h.running, h.returned, h.reading, h.published, h.orderly⟩
  | joinEmitter => exact hoccurs.2 ▸ h
  | _ => exact (show l' = l from hoccurs) ▸ h

lemma Inv.passes {α : Type} {p : Method α} {σ' : Machine × EmitterLink n} (h : Inv σ.2)
    (hpasses : Passes linkEnv p σ σ') : Inv σ'.2 := by
  refine hpasses.invariant (I := fun τ => Inv τ.2) ?_ h
  rintro o τ ans τ' hτ ⟨-, l, hsteps, hoccurs⟩
  exact (hτ.steps hsteps).occurs hoccurs

lemma Between.inv {srv : LayerServer} (h : Between n srv σ) : Inv σ.2 := by
  induction h with
  | start => exact inv_start
  | steps _ hsteps ih => exact ih.steps hsteps
  | next _ hreq _ ih => exact ih.passes hreq.passes

lemma Visits.inv (h : Visits n σ) : Inv σ.2 := by
  obtain ⟨srv, σ₀, σ₁, hbetween, hpasses, -, hsteps⟩ := h
  exact (hbetween.inv.passes hpasses).steps hsteps

/-- A flag that is raised was raised by a start. -/
lemma exists_start_of_foldl {msgs : List (List Byte)} (h : msgs.foldl afterMsg false = true) :
    ∃ start ∈ msgs, startReceived start = true := by
  induction msgs with
  | nil => exact absurd h Bool.false_ne_true
  | cons msg msgs ih =>
      rw [List.foldl_cons] at h
      cases hmsg : afterMsg false msg with
      | true => exact ⟨msg, List.mem_cons_self, received_start_of_afterMsg hmsg⟩
      | false =>
          rw [hmsg] at h
          obtain ⟨start, hmem, hstart⟩ := ih h
          exact ⟨start, List.mem_cons_of_mem _ hmem, hstart⟩

lemma Inv.obeys (h : Inv l) : Obeys l where
  published := h.published
  stopped before stop between msg after hlog hstop := by
    have htold := h.orderly (before ++ .took stop :: between) msg (by
      rw [hlog]
      exact ⟨after, by simp⟩)
    have hstopped : ∀ running, afterMsg running stop = false := fun running => by
      rw [afterMsg, htold.halt stop (by simp), hstop]
      rfl
    have hrunning : (between.filterMap Activity.taken).foldl afterMsg
        (afterMsg ((before.filterMap Activity.taken).foldl afterMsg false) stop) = true := by
      have htaken := htold.running
      rw [List.filterMap_append, List.foldl_append] at htaken
      exact htaken
    rw [hstopped] at hrunning
    obtain ⟨start, hmem, hstart⟩ := exists_start_of_foldl hrunning
    obtain ⟨activity, hactivity, htaken⟩ := List.mem_filterMap.mp hmem
    cases activity with
    | took m =>
        obtain rfl := Option.some.inj htaken
        exact ⟨m, hactivity, hstart⟩
    | published m => exact absurd htaken nofun
  halted before halt after hlog hhalt msg hmem := by
    obtain ⟨between, rest, rfl⟩ := List.append_of_mem hmem
    have htold := h.orderly (before ++ .took halt :: between) msg (by
      rw [hlog]
      exact ⟨rest, by simp⟩)
    rw [htold.halt halt (by simp)] at hhalt
    exact absurd hhalt Bool.false_ne_true

lemma Visits.obeys (h : Visits n σ) : Obeys σ.2 := h.inv.obeys

end Inv

/-- **The emitter thread.**  In every run of the server beside the thread, whatever requests it
handles and however their steps interleave: between two requests before a halt, what the queued
messages will make of the flag of the thread is the flag of the server, so that the two are equal
where no message is queued; and the thread obeys. -/
theorem emitter_follows (n : ℕ) :
    (∀ srv (σ : Machine × EmitterLink n), Between n srv σ →
      σ.2.queue.foldl afterMsg σ.2.thread.running = srv.dataEmitterRunning ∧
        (σ.2.queue = [] → σ.2.thread.running = srv.dataEmitterRunning)) ∧
      ∀ σ : Machine × EmitterLink n, Visits n σ → Obeys σ.2 := by
  refine ⟨fun srv σ hbetween => ⟨hbetween.expected_eq, fun hempty => ?_⟩, fun σ => Visits.obeys⟩
  have hexpected := hbetween.expected_eq
  rw [expected, hempty, List.foldl_nil] at hexpected
  exact hexpected

/-- A request to start the emitter. -/
def emitStart : List Byte := bytes "emit start"

/-- The calls for it. -/
def emitStartCalls : List Event :=
  [⟨.recv .request, emitStart⟩, ⟨.strtok (some emitStart), some (bytes "emit")⟩,
    ⟨.strtok none, some (bytes "start")⟩, ⟨.inprocSend (bytes "start"), ()⟩,
    ⟨.send (bytes "ok" ++ [0#8]), ()⟩]

/-- The channel when the thread has taken the message. -/
def startTaken : EmitterLink 12 :=
  ⟨[], EmitterThread.init.processMsg (bytes "start"), [.took (bytes "start")]⟩

/-- A call of the server while the thread does nothing. -/
lemma path_link {o : Call} {ans : o.Answer} {m m' : Machine} {l l' : EmitterLink n}
    {calls : List Event} {σ : Machine × EmitterLink n} (henv : env o m ans m')
    (hoccurs : Occurs o l l') (hrest : Path linkEnv (m', l') calls σ) :
    Path linkEnv (m, l) (⟨o, ans⟩ :: calls) σ := .cons ⟨henv, l, .refl, hoccurs⟩ hrest

lemma between_startTaken :
    Between 12 { LayerServer.started with dataEmitterRunning := true }
      (⟨[], emitStartCalls⟩, startTaken) := by
  have htokens : tokens emitStart = [bytes "emit", bytes "start"] := by decide
  have hplay : (LayerServer.processReq 12 LayerServer.started).play emitStartCalls =
      some (0, { LayerServer.started with dataEmitterRunning := true }) := by decide +kernel
  have hpath : Path linkEnv (⟨[], []⟩, (EmitterLink.start : EmitterLink 12)) emitStartCalls
      (⟨[], emitStartCalls⟩, EmitterLink.start.send (bytes "start")) := by
    refine path_link ⟨trivial, rfl⟩ rfl ?_
    refine path_link (LayerServer.env_first htokens) rfl (path_link LayerServer.env_next rfl ?_)
    refine path_link ⟨trivial, rfl⟩ rfl ?_
    exact path_link ⟨trivial, rfl⟩ rfl (.nil _)
  have hrequest : Between 12 { LayerServer.started with dataEmitterRunning := true }
      (⟨[], emitStartCalls⟩, EmitterLink.start.send (bytes "start")) :=
    .next (.start ⟨[], []⟩ rfl) (exec_of_play hplay hpath) (by decide)
  exact hrequest.steps (.single (.take rfl rfl))

/-- The thread runs when it has taken the message, and has published nothing that it should not. -/
theorem startTaken_follows : startTaken.thread.running = true ∧ Obeys startTaken := by
  obtain ⟨hflags, hobeys⟩ := emitter_follows 12
  exact ⟨(hflags _ _ between_startTaken).2 rfl,
    hobeys _ ⟨_, _, _, between_startTaken, .here _ _, rfl, .refl⟩⟩

end EmitterLink

end TrackerFpga.Server
