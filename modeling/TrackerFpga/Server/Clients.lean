import Mathlib.Logic.Relation
import TrackerFpga.Server.Handled

/-!
# Several clients

The clients send their requests to the one REP socket of the server, each the next message only
after the reply to its last one, and the server may receive any of the messages that are queued.
A client that is answered `ready` sends its configuration next, after any delay, or leaves.

The server does not look at whose message it receives in `_set_config_binary`, and goes on to the
next request when that message does not come in time.  A run is timely if neither does any harm:
no other client's message is queued where the server receives a configuration, and where its poll
times out the client has left.  In a timely run every configuration that is applied is the one
that the asking client sent after `ready`, and none is taken for a request.
-/

namespace TrackerFpga.Server

open ByteCodec CString Interaction

namespace LayerServer

/-- A request, or the configuration that a client sends after `ready`. -/
inductive Kind
  | command
  | blob
  deriving DecidableEq

/-- A message of a client. -/
structure Message where
  kind : Kind
  text : List Byte
  deriving DecidableEq

/-- What a client does: it thinks, its message is queued or has been received, it owes its
configuration, or it has left. -/
inductive Phase
  | thinking
  | queued (message : Message)
  | waiting
  | ready
  | gone
  deriving DecidableEq

/-- What the server has done with messages. -/
inductive Delivery (C : Type)
  | took (site : RecvSite) (client : C) (message : Message)
  | replied (client : C) (reply : List Byte)
  | applied (nvata : ℕ) (config : Vata.Ctrl.Config)

/-- The clients, the socket and what has been delivered.  `current` is the message that the next
reply answers, and `asker` the client that was last answered `ready`. -/
structure Network (C : Type) where
  phase : C → Phase
  current : Option (C × Message)
  asker : Option C
  log : List (Delivery C)

variable {C : Type}

/-- No message has been sent. -/
def Network.start : Network C := ⟨fun _ => .thinking, none, none, []⟩

/-- The message asks to set a configuration in binary. -/
def asks (nVata : ℕ) (message : Message) : Bool :=
  message.kind = .command ∧
    (vataRequest nVata message.text).map VataRequest.command = some .setConfigBinary

variable [DecidableEq C]

namespace Network

/-- A client is in another phase. -/
def set (n : Network C) (client : C) (phase : Phase) : Network C :=
  { n with phase := Function.update n.phase client phase }

/-- What a client may do at any time. -/
inductive Move : Network C → Network C → Prop
  | command {n : Network C} {client : C} (text : List Byte) (h : n.phase client = .thinking) :
      Move n (n.set client (.queued ⟨.command, text⟩))
  | blob {n : Network C} {client : C} (text : List Byte) (h : n.phase client = .ready) :
      Move n (n.set client (.queued ⟨.blob, text⟩))
  | leave {n : Network C} {client : C} (h : n.phase client = .ready) : Move n (n.set client .gone)

/-- What the clients may do between two calls of the server. -/
abbrev Moves : Network C → Network C → Prop := Relation.ReflTransGen Move

/-- The network after a queued message was received. -/
def take (n : Network C) (site : RecvSite) (client : C) (message : Message) : Network C :=
  { n.set client .waiting with
    current := some (client, message), log := n.log ++ [.took site client message] }

/-- The network after a reply: a client that has asked and reads `ready` owes its
configuration. -/
def reply (nVata : ℕ) (n : Network C) (client : C) (message : Message) (reply : List Byte) :
    Network C :=
  let owes := reply = bytes "ready" ∧ asks nVata message
  { n.set client (if owes then .ready else .thinking) with
    current := none
    asker := if owes then some client else n.asker
    log := n.log ++ [.replied client reply] }

/-- What the socket does: it receives no message before the last one is answered, and sends one
reply to each.  A poll waits until a message is queued or the time is over. -/
def Occurs (nVata : ℕ) : SocketEvent → Network C → Network C → Prop
  | .recv site text, n, n' => n.current = none ∧ ∃ client kind,
      n.phase client = .queued ⟨kind, text⟩ ∧ n' = n.take site client ⟨kind, text⟩
  | .send msg, n, n' => ∃ client message,
      n.current = some (client, message) ∧ n' = n.reply nVata client message msg
  | .poll received, n, n' =>
      (received = true ↔ ∃ client message, n.phase client = .queued message) ∧ n' = n
  | .apply nvata config, n, n' => n' = { n with log := n.log ++ [.applied nvata config] }

/-- A poll times out only if the client that was answered `ready` has left, and a configuration is
received only if no other client's message is queued, or if that client has left and the messages
do not have the size of a configuration. -/
def Timely : SocketEvent → Network C → Prop
  | .recv .configData _, n => ∃ asker, n.asker = some asker ∧
      ∀ client message, n.phase client = .queued message →
        client = asker ∨
          (n.phase asker = .gone ∧ message.text.length ≠ Vata.Ctrl.nCfgReg * 4)
  | .poll false, n => ∃ asker, n.asker = some asker ∧ n.phase asker = .gone
  | _, _ => True

end Network

open Network

/-- The calls of the server between the moves of the clients, where each is `ok`. -/
def netEnv (nVata : ℕ) (ok : SocketEvent → Network C → Prop) :
    Env Call Call.Answer (Machine × Network C) := fun o σ ans σ' =>
  env o σ.1 ans σ'.1 ∧ ∃ n, Moves σ.2 n ∧
    match socketEvent ⟨o, ans⟩ with
    | some e => ok e n ∧ Occurs nVata e n σ'.2
    | none => σ'.2 = n

/-- `LayerServer::run` with clients: the states in which it waits for a request. -/
inductive Waits (nVata : ℕ) (ok : SocketEvent → Network C → Prop) (srv₀ : LayerServer)
    (m₀ : Machine) : LayerServer → Machine × Network C → Prop
  | start : Waits nVata ok srv₀ m₀ srv₀ (m₀, Network.start)
  | next {srv srv' : LayerServer} {ret : ℤ} {σ σ' : Machine × Network C}
      (hwaits : Waits nVata ok srv₀ m₀ srv σ)
      (hreq : Exec (netEnv nVata ok) (processReq nVata srv) σ (ret, srv') σ')
      (hloop : ¬ (ret < 0 ∨ ret = exitReqRecvCode)) : Waits nVata ok srv₀ m₀ srv' σ'

/-- The states of a run: the server waits for a request, has received one, or has handled it. -/
inductive Reaches (nVata : ℕ) (ok : SocketEvent → Network C → Prop) (srv₀ : LayerServer)
    (m₀ : Machine) : Machine × Network C → Prop
  | waits {srv : LayerServer} {σ : Machine × Network C} (hwaits : Waits nVata ok srv₀ m₀ srv σ) :
      Reaches nVata ok srv₀ m₀ σ
  | received {srv : LayerServer} {request : List Byte} {σ σ' : Machine × Network C}
      (hwaits : Waits nVata ok srv₀ m₀ srv σ)
      (hrecv : Exec (netEnv nVata ok) (Method.recv .request) σ request σ') :
      Reaches nVata ok srv₀ m₀ σ'
  | handled {srv : LayerServer} {r : ℤ × LayerServer} {σ σ' : Machine × Network C}
      (hwaits : Waits nVata ok srv₀ m₀ srv σ)
      (hreq : Exec (netEnv nVata ok) (processReq nVata srv) σ r σ') :
      Reaches nVata ok srv₀ m₀ σ'

/-- Every configuration that was applied is the one that a client sent after it had asked for that
core and was answered `ready`. -/
def AppliesAskers (nVata : ℕ) (log : List (Delivery C)) : Prop :=
  ∀ before nvata config after, log = before ++ .applied nvata config :: after →
    ∃ earlier client request arg blob, before = earlier ++
        [.took .request client ⟨.command, request⟩, .replied client (bytes "ready"),
          .took .configData client ⟨.blob, blob⟩] ∧
      vataRequest nVata request = some ⟨nvata, .setConfigBinary, arg⟩ ∧ config = configOf blob

/-- No configuration was taken for a request. -/
def TakesCommands (log : List (Delivery C)) : Prop :=
  ∀ client message, .took .request client message ∈ log → message.kind = .command

/-- What the clients rely on. -/
def Belongs (nVata : ℕ) (log : List (Delivery C)) : Prop :=
  AppliesAskers nVata log ∧ TakesCommands log

/-! ## Logs -/

section Logs

variable {nVata : ℕ} {log : List (Delivery C)} {d : Delivery C}

omit [DecidableEq C]

/-- A delivery is applied in a longer log: it is the last one, or it was applied before. -/
lemma split_concat {before after : List (Delivery C)} {e : Delivery C}
    (h : log ++ [d] = before ++ e :: after) :
    (before = log ∧ e = d) ∨ ∃ rest, log = before ++ e :: rest := by
  rcases List.eq_nil_or_concat after with rfl | ⟨rest, last, rfl⟩
  · obtain ⟨rfl, hd⟩ := List.append_inj' h rfl
    exact .inl ⟨rfl, (List.cons.inj hd).1.symm⟩
  · have hlast : log ++ [d] = (before ++ e :: rest) ++ [last] := by
      rw [h, List.concat_eq_append, List.append_assoc, List.cons_append]
    exact .inr ⟨rest, (List.append_inj' hlast rfl).1⟩

lemma belongs_nil : Belongs nVata ([] : List (Delivery C)) := by
  refine ⟨fun before nvata config after h => ?_, fun client message h => ?_⟩
  · exact absurd h.symm (List.append_ne_nil_of_right_ne_nil _ (List.cons_ne_nil _ _))
  · exact absurd h List.not_mem_nil

/-- Nothing was applied, and no request received. -/
lemma Belongs.concat (h : Belongs nVata log) (hconfig : ∀ nvata config, d ≠ .applied nvata config)
    (hcommand : ∀ client message, d = .took .request client message → message.kind = .command) :
    Belongs nVata (log ++ [d]) := by
  refine ⟨fun before nvata config after hlog => ?_, fun client message hmem => ?_⟩
  · rcases split_concat hlog with ⟨-, hd⟩ | ⟨rest, hlog'⟩
    · exact absurd hd.symm (hconfig nvata config)
    · exact h.1 before nvata config rest hlog'
  · rcases List.mem_append.mp hmem with hmem | hmem
    · exact h.2 client message hmem
    · exact hcommand client message (List.mem_singleton.mp hmem).symm

lemma Belongs.concat_applied {nvata : ℕ} {client : C} {request blob : List Byte}
    {arg : Option Token} (h : Belongs nVata (log ++ [.took .request client ⟨.command, request⟩,
      .replied client (bytes "ready"), .took .configData client ⟨.blob, blob⟩]))
    (hrequest : vataRequest nVata request = some ⟨nvata, .setConfigBinary, arg⟩) :
    Belongs nVata (log ++ [.took .request client ⟨.command, request⟩,
      .replied client (bytes "ready"), .took .configData client ⟨.blob, blob⟩] ++
        [.applied nvata (configOf blob)]) := by
  refine ⟨fun before nvata' config after hlog => ?_, fun client' message hmem => ?_⟩
  · rcases split_concat hlog with ⟨rfl, hd⟩ | ⟨rest, hlog'⟩
    · obtain ⟨rfl, rfl⟩ := Delivery.applied.inj hd
      exact ⟨log, client, request, arg, blob, rfl, hrequest, rfl⟩
    · exact h.1 before nvata' config rest hlog'
  · refine h.2 client' message ((List.mem_append.mp hmem).resolve_right ?_)
    simp

end Logs

/-! ## Clients -/

/-- The next message of the client is a configuration. -/
def Phase.Owes : Phase → Prop
  | .ready => True
  | .queued message => message.kind = .blob
  | _ => False

/-- What may have changed between two calls of the server. -/
structure Later (n n' : Network C) : Prop where
  current : n'.current = n.current
  asker : n'.asker = n.asker
  log : n'.log = n.log
  owes : ∀ client, (n'.phase client).Owes → (n.phase client).Owes
  asked : ∀ client, (n.phase client).Owes ∨ n.phase client = .gone →
    (n'.phase client).Owes ∨ n'.phase client = .gone

section Later

variable {n n' : Network C}

lemma later_set {client : C} {phase : Phase}
    (howes : phase.Owes → (n.phase client).Owes)
    (hasked : (n.phase client).Owes ∨ n.phase client = .gone → phase.Owes ∨ phase = .gone) :
    Later n (n.set client phase) := by
  refine ⟨rfl, rfl, rfl, fun client' h => ?_, fun client' h => ?_⟩
  · by_cases heq : client' = client
    · subst heq
      exact howes (by simpa [Network.set] using h)
    · simpa [Network.set, heq] using h
  · by_cases heq : client' = client
    · subst heq
      simpa [Network.set] using hasked h
    · simpa [Network.set, heq] using h

lemma later_move (h : Move n n') : Later n n' := by
  cases h with
  | command text hphase =>
      refine later_set (fun howes => absurd howes nofun) fun hasked => ?_
      rw [hphase] at hasked
      exact absurd hasked (by simp [Phase.Owes])
  | blob text hphase => exact later_set (fun _ => by rw [hphase]; trivial) fun _ => .inl rfl
  | leave hphase => exact later_set (fun howes => howes.elim) fun _ => .inr rfl

lemma later_moves (h : Moves n n') : Later n n' := by
  induction h with
  | refl => exact ⟨rfl, rfl, rfl, fun _ => id, fun _ => id⟩
  | tail _ hmove ih =>
      have hlater := later_move hmove
      exact ⟨hlater.current.trans ih.current, hlater.asker.trans ih.asker,
        hlater.log.trans ih.log, fun c h => ih.owes c (hlater.owes c h),
        fun c h => hlater.asked c (ih.asked c h)⟩

end Later

/-! ## Runs of the network -/

/-- What is seen of the server, with the moves of the clients in between. -/
inductive Along (nVata : ℕ) (ok : SocketEvent → Network C → Prop) :
    Network C → List SocketEvent → Network C → Prop
  | nil {n n' : Network C} (hmoves : Moves n n') : Along nVata ok n [] n'
  | cons {n n₁ n₂ n' : Network C} {e : SocketEvent} {s : List SocketEvent} (hmoves : Moves n n₁)
      (hok : ok e n₁) (hoccurs : Occurs nVata e n₁ n₂) (hrest : Along nVata ok n₂ s n') :
      Along nVata ok n (e :: s) n'

section Along

variable {nVata : ℕ} {ok : SocketEvent → Network C → Prop}

lemma along_cons {n n' : Network C} {e : SocketEvent} {s : List SocketEvent} :
    Along nVata ok n (e :: s) n' ↔
      ∃ n₁ n₂, Later n n₁ ∧ Moves n n₁ ∧ ok e n₁ ∧ Occurs nVata e n₁ n₂ ∧
        Along nVata ok n₂ s n' := by
  constructor
  · rintro ⟨⟩
    exact ⟨_, _, later_moves ‹_›, ‹_›, ‹_›, ‹_›, ‹_›⟩
  · rintro ⟨n₁, n₂, -, hmoves, hok, hoccurs, hrest⟩
    exact .cons hmoves hok hoccurs hrest

lemma along_nil {n n' : Network C} : Along nVata ok n [] n' ↔ Moves n n' := by
  constructor
  · rintro ⟨⟩
    assumption
  · exact .nil

lemma Along.of_moves {n n₁ n' : Network C} {s : List SocketEvent} (hmoves : Moves n n₁)
    (h : Along nVata ok n₁ s n') : Along nVata ok n s n' := by
  cases h with
  | nil hmoves' => exact .nil (hmoves.trans hmoves')
  | cons hmoves' hok hoccurs hrest => exact .cons (hmoves.trans hmoves') hok hoccurs hrest

/-- A run with clients is a run of the server, and what is seen of it happens in the network. -/
lemma exec_along {α : Type} {p : Method α} {a : α} {σ σ' : Machine × Network C}
    (h : Exec (netEnv nVata ok) p σ a σ') :
    Exec env p σ.1 a σ'.1 ∧ ∃ es, σ'.1.log = σ.1.log ++ es ∧
      Along nVata ok σ.2 (sockets es) σ'.2 := by
  induction h with
  | done a σ => exact ⟨.done _ _, [], (List.append_nil _).symm, .nil .refl⟩
  | @call o next σ σ₁ σ' ans a hcall _ ih =>
      obtain ⟨hexec, es, hlog, halong⟩ := ih
      obtain ⟨henv, n, hmoves, hoccurs⟩ := hcall
      refine ⟨.call henv hexec, ⟨o, ans⟩ :: es, ?_, ?_⟩
      · rw [hlog, henv.2, Machine.after, List.append_assoc]
        rfl
      · rw [sockets, List.filterMap_cons]
        cases hevent : socketEvent ⟨o, ans⟩ with
        | none =>
            rw [hevent] at hoccurs
            subst hoccurs
            exact halong.of_moves hmoves
        | some e =>
            rw [hevent] at hoccurs
            exact .cons hmoves hoccurs.1 hoccurs.2 halong

end Along

/-! ## Timely runs -/

/-- No client owes its configuration. -/
def Settled (n : Network C) : Prop := ∀ client, ¬ (n.phase client).Owes

/-- The client was answered `ready`, and no other client owes its configuration. -/
structure Asked (client : C) (n : Network C) : Prop where
  current : n.current = none
  asker : n.asker = some client
  only : ∀ client', (n.phase client').Owes → client' = client
  owes : (n.phase client).Owes ∨ n.phase client = .gone

/-- What holds while the server waits for a request. -/
def Invariant (nVata : ℕ) (n : Network C) : Prop :=
  Belongs nVata n.log ∧ (n.current = none → Settled n)

section Timely

variable {nVata nvata : ℕ} {ok : SocketEvent → Network C → Prop} {n n' : Network C}
  {client : C} {message : Message} {request msg : List Byte}

omit [DecidableEq C] in
lemma Settled.later (h : Settled n) (hlater : Later n n') : Settled n' :=
  fun client howes => h client (hlater.owes client howes)

lemma Settled.set {phase : Phase} (h : Settled n) (hphase : ¬ phase.Owes) :
    Settled (n.set client phase) := by
  intro client'
  by_cases heq : client' = client
  · subst heq
    simpa [Network.set] using hphase
  · simpa [Network.set, heq] using h client'

omit [DecidableEq C] in
lemma Asked.later (h : Asked client n) (hlater : Later n n') : Asked client n' :=
  ⟨hlater.current.trans h.current, hlater.asker.trans h.asker,
    fun client' howes => h.only client' (hlater.owes client' howes), hlater.asked client h.owes⟩

/-- Without the one client nobody owes a configuration. -/
lemma Asked.settled_set {client' : C} (h : Asked client n)
    (hclient : client' = client ∨ n.phase client = .gone) :
    Settled (n.set client' .waiting) := by
  intro other howes
  by_cases heq : other = client'
  · subst heq
    simp [Network.set, Phase.Owes] at howes
  · simp only [Network.set, Function.update_of_ne heq] at howes
    obtain rfl := h.only other howes
    rcases hclient with rfl | hgone
    · exact heq rfl
    · rw [hgone] at howes
      exact howes

/-- The request that is received is a command. -/
lemma Invariant.received {n₁ n₂ : Network C} (hinv : Invariant nVata n) (hlater : Later n n₁)
    (hoccurs : Occurs nVata (.recv .request request) n₁ n₂) :
    ∃ client, n₂.current = some (client, ⟨.command, request⟩) ∧
      n₂.log = n.log ++ [.took .request client ⟨.command, request⟩] ∧ Settled n₂ ∧
      Belongs nVata n₂.log := by
  obtain ⟨hcurrent, client, kind, hphase, rfl⟩ := hoccurs
  have hsettled : Settled n₁ := (hinv.2 (hlater.current.symm.trans hcurrent)).later hlater
  obtain rfl : kind = .command := by
    cases kind with
    | command => rfl
    | blob =>
        have howes : (n₁.phase client).Owes := by
          rw [hphase]
          exact rfl
        exact absurd howes (hsettled client)
  have hlog : (n₁.take .request client ⟨.command, request⟩).log =
      n.log ++ [.took .request client ⟨.command, request⟩] :=
    congrArg (· ++ [Delivery.took .request client ⟨.command, request⟩]) hlater.log
  refine ⟨client, rfl, hlog, hsettled.set id, ?_⟩
  rw [hlog]
  refine hinv.1.concat (fun _ _ => nofun) fun client' message h => ?_
  obtain ⟨-, -, rfl⟩ := Delivery.took.inj h
  rfl

/-- A reply goes to the client whose message is being handled. -/
lemma occurs_send {n₁ n₂ : Network C} (hcurrent : n.current = some (client, message))
    (hlater : Later n n₁) (hoccurs : Occurs nVata (.send msg) n₁ n₂) :
    n₂ = n₁.reply nVata client message msg := by
  obtain ⟨client', message', hcurrent', rfl⟩ := hoccurs
  have hsame : some (client, message) = some (client', message') :=
    hcurrent.symm.trans (hlater.current.symm.trans hcurrent')
  obtain ⟨rfl, rfl⟩ := Prod.mk.inj (Option.some.inj hsame)
  rfl

/-- A reply after which the client owes no configuration. -/
lemma Settled.replied (hsettled : Settled n) (hbelongs : Belongs nVata n.log)
    (hcurrent : n.current = some (client, message))
    (hno : ¬ (msg = bytes "ready" ∧ asks nVata message = true))
    (halong : Along nVata ok n [.send msg] n') : Invariant nVata n' := by
  obtain ⟨n₁, n₂, hlater, -, -, hoccurs, hrest⟩ := along_cons.mp halong
  obtain rfl := occurs_send hcurrent hlater hoccurs
  have hrest := later_moves (along_nil.mp hrest)
  refine ⟨?_, fun _ => Settled.later ?_ hrest⟩
  · rw [hrest.log, Network.reply, hlater.log]
    exact hbelongs.concat (fun _ _ => nofun) fun _ _ => nofun
  · rw [Network.reply, if_neg hno]
    exact (hsettled.later hlater).set id

/-- The server cannot reply twice. -/
lemma not_along_two {msg' : List Byte} : ¬ Along nVata ok n [.send msg, .send msg'] n' := by
  intro halong
  obtain ⟨n₁, n₂, -, -, -, ⟨client, message, -, rfl⟩, hrest⟩ := along_cons.mp halong
  obtain ⟨n₃, n₄, hlater, -, -, ⟨client', message', hcurrent, -⟩, -⟩ := along_cons.mp hrest
  rw [hlater.current] at hcurrent
  exact absurd hcurrent nofun

/-- After `ready` the client owes its configuration. -/
lemma Settled.ready {n₁ n₂ : Network C} (hsettled : Settled n)
    (hcurrent : n.current = some (client, message)) (hasks : asks nVata message = true)
    (hlater : Later n n₁) (hoccurs : Occurs nVata (.send (bytes "ready")) n₁ n₂) :
    Asked client n₂ ∧ n₂.log = n.log ++ [.replied client (bytes "ready")] := by
  obtain rfl := occurs_send hcurrent hlater hoccurs
  have howes : bytes "ready" = bytes "ready" ∧ asks nVata message = true := ⟨rfl, hasks⟩
  rw [Network.reply, if_pos howes, if_pos howes]
  refine ⟨⟨rfl, rfl, fun other hother => ?_, .inl ?_⟩, ?_⟩
  · by_contra heq
    simp only [Network.set, Function.update_of_ne heq] at hother
    exact hsettled.later hlater other hother
  · simp [Network.set, Phase.Owes]
  · rw [hlater.log]

/-- The exchange after a timely poll: the message is the asking client's configuration, or it is
another client's request and too short or too long. -/
lemma Asked.exchange {log : List (Delivery C)} {arg : Option Token} {text reply : List Byte}
    (hasked : Asked client n)
    (hrequest : vataRequest nVata request = some ⟨nvata, .setConfigBinary, arg⟩)
    (hlog : n.log = log ++ [.took .request client ⟨.command, request⟩,
      .replied client (bytes "ready")]) (hbelongs : Belongs nVata n.log)
    (hreply : reply ≠ bytes "ready")
    (halong : Along nVata Timely n (.recv .configData text ::
      ((if text.length = Vata.Ctrl.nCfgReg * 4 then [.apply nvata (configOf text)] else []) ++
        [.send reply])) n') : Invariant nVata n' := by
  obtain ⟨n₁, n₂, hlater, -, ⟨asker, hasker, htimely⟩, ⟨-, client', kind, hphase, rfl⟩, hrest⟩ :=
    along_cons.mp halong
  replace hasked := hasked.later hlater
  obtain rfl : client = asker := Option.some.inj (hasked.asker.symm.trans hasker)
  have htook := htimely client' _ hphase
  have hsettled : Settled (n₁.take .configData client' ⟨kind, text⟩) :=
    hasked.settled_set (htook.imp id And.left)
  have hno : ¬ (reply = bytes "ready" ∧ asks nVata ⟨kind, text⟩ = true) := fun h => hreply h.1
  have hbelongs' : Belongs nVata (n₁.take .configData client' ⟨kind, text⟩).log := by
    rw [Network.take, hlater.log]
    exact hbelongs.concat (fun _ _ => nofun) fun _ _ => nofun
  by_cases hsize : text.length = Vata.Ctrl.nCfgReg * 4
  · rw [if_pos hsize, List.singleton_append] at hrest
    obtain ⟨n₃, n₄, hlater', -, -, rfl, hreplied⟩ := along_cons.mp hrest
    obtain rfl : client' = client := htook.resolve_right fun h => h.2 hsize
    obtain rfl : kind = .blob := by
      rcases hasked.owes with howes | hgone
      · rwa [hphase] at howes
      · rw [hphase] at hgone
        exact absurd hgone nofun
    have hlog' : n₃.log = log ++ [.took .request client' ⟨.command, request⟩,
        .replied client' (bytes "ready"), .took .configData client' ⟨.blob, text⟩] := by
      rw [hlater'.log, Network.take, hlater.log, hlog, List.append_assoc]
      rfl
    have hsettled' : Settled { n₃ with log := n₃.log ++ [.applied nvata (configOf text)] } :=
      fun other => hsettled.later hlater' other
    refine hsettled'.replied ?_ hlater'.current hno hreplied
    dsimp only
    rw [hlog']
    refine Belongs.concat_applied ?_ hrequest
    rw [← hlog', hlater'.log]
    exact hbelongs'
  · rw [if_neg hsize, List.nil_append] at hrest
    exact hsettled.replied hbelongs' rfl hno hrest

/-- The poll after `ready` times out only if the client has left. -/
lemma Asked.timed_out (hasked : Asked client n) (hbelongs : Belongs nVata n.log)
    (halong : Along nVata Timely n [.poll false] n') : Invariant nVata n' := by
  obtain ⟨n₁, n₂, hlater, -, ⟨asker, hasker, hgone⟩, ⟨-, rfl⟩, hrest⟩ := along_cons.mp halong
  replace hasked := hasked.later hlater
  obtain rfl : client = asker := Option.some.inj (hasked.asker.symm.trans hasker)
  have hlater' := later_moves (along_nil.mp hrest)
  refine ⟨by rwa [hlater'.log, hlater.log], fun _ => Settled.later (fun other howes => ?_) hlater'⟩
  obtain rfl := hasked.only other howes
  rw [hgone] at howes
  exact howes

/-- What `set-config-binary` does, in time. -/
lemma Settled.exchange {log : List (Delivery C)} {arg : Option Token} {s : List SocketEvent}
    (hsettled : Settled n) (hcurrent : n.current = some (client, ⟨.command, request⟩))
    (hlog : n.log = log ++ [.took .request client ⟨.command, request⟩])
    (hbelongs : Belongs nVata n.log)
    (hrequest : vataRequest nVata request = some ⟨nvata, .setConfigBinary, arg⟩)
    (hexchange : Exchange nvata s) (halong : Along nVata Timely n s n') : Invariant nVata n' := by
  have hasks : asks nVata ⟨.command, request⟩ = true := by simp [asks, hrequest]
  obtain ⟨rest, rfl, hrest⟩ : ∃ rest, s = .send (bytes "ready") :: rest ∧
      (rest = [.poll false] ∨ ∃ text reply, rest = .poll true :: .recv .configData text ::
        ((if text.length = Vata.Ctrl.nCfgReg * 4 then [.apply nvata (configOf text)] else []) ++
          [.send reply]) ∧ reply ≠ bytes "ready") := by
    rcases hexchange with rfl | ⟨text, reply, rfl, hreply⟩
    · exact ⟨_, rfl, .inl rfl⟩
    · exact ⟨_, rfl, .inr ⟨text, reply, rfl, hreply⟩⟩
  obtain ⟨n₁, n₂, hlater, -, -, hready, hafter⟩ := along_cons.mp halong
  obtain ⟨hasked, hlog₂⟩ := hsettled.ready hcurrent hasks hlater hready
  have hbelongs₂ : Belongs nVata n₂.log := by
    rw [hlog₂]
    exact hbelongs.concat (fun _ _ => nofun) fun _ _ => nofun
  rcases hrest with rfl | ⟨text, reply, rfl, hreply⟩
  · exact hasked.timed_out hbelongs₂ hafter
  · obtain ⟨n₃, n₄, hlater', -, -, ⟨-, rfl⟩, hrecv⟩ := along_cons.mp hafter
    have hlog₄ : n₄.log = log ++ [.took .request client ⟨.command, request⟩,
        .replied client (bytes "ready")] := by
      rw [hlater'.log, hlog₂, hlog, List.append_assoc]
      rfl
    exact (hasked.later hlater').exchange hrequest hlog₄ (by rwa [hlater'.log]) hreply hrecv

/-- **One request.** A timely request keeps the invariant. -/
lemma Invariant.handled {es : List Event} (hinv : Invariant nVata n)
    (heffect : Effect nVata request es)
    (halong : Along nVata Timely n (.recv .request request :: sockets es) n') :
    Invariant nVata n' := by
  obtain ⟨n₁, n₂, hlater, -, -, hoccurs, hrest⟩ := along_cons.mp halong
  obtain ⟨client, hcurrent, hlog, hsettled, hbelongs⟩ := hinv.received hlater hoccurs
  cases heffect with
  | halt _ hquiet =>
      rw [hquiet.1] at hrest
      have hlater' := later_moves (along_nil.mp hrest)
      refine ⟨by rwa [hlater'.log], fun hnone => ?_⟩
      rw [hlater'.current, hcurrent] at hnone
      exact absurd hnone nofun
  | binary hrequest hexchange _ =>
      exact hsettled.exchange hcurrent hlog hbelongs hrequest hexchange hrest
  | @asic r hrequest hcommand _ hreplies =>
      rcases hreplies with ⟨-, msg, msg', hsockets⟩ | ⟨-, msg, hsockets⟩
      · rw [hsockets] at hrest
        exact absurd hrest not_along_two
      · rw [hsockets] at hrest
        refine hsettled.replied hbelongs hcurrent (fun h => ?_) hrest
        rcases hcommand with hcommand | hcommand <;> simp [asks, hrequest, hcommand] at h
  | reply _ hcommand hreply =>
      obtain ⟨msg, hsockets, -⟩ := hreply
      rw [hsockets] at hrest
      refine hsettled.replied hbelongs hcurrent (fun h => ?_) hrest
      cases hrequest : vataRequest nVata request with
      | none => simp [asks, hrequest] at h
      | some r => exact (hcommand r hrequest).1 (by simpa [asks, hrequest] using h.2)

end Timely

section Runs

variable {nVata : ℕ} {srv₀ srv : LayerServer} {m₀ : Machine} {σ σ' : Machine × Network C}

/-- A request that is handled in time keeps the invariant. -/
lemma invariant_processReq {r : ℤ × LayerServer} (hinv : Invariant nVata σ.2)
    (hreq : Exec (netEnv nVata Timely) (processReq nVata srv) σ r σ') : Invariant nVata σ'.2 := by
  obtain ⟨hexec, es, hlog, halong⟩ := exec_along hreq
  obtain ⟨request, rest, rfl, heffect⟩ := effect_of_processReq hexec hlog
  exact hinv.handled heffect halong

lemma Waits.invariant (h : Waits nVata Timely srv₀ m₀ srv σ) : Invariant nVata σ.2 := by
  induction h with
  | start => exact ⟨belongs_nil, fun _ _ => id⟩
  | next _ hreq _ ih => exact invariant_processReq ih hreq

/-- **Whose configuration.** In every timely run, with any number of clients, whatever they send
and whenever, each configuration of `set-config-binary` that is applied is the one that the asking
client sent after `ready`, and no configuration is received as a request. -/
theorem belongs_of_timely (h : Reaches nVata Timely srv₀ m₀ σ) : Belongs nVata σ.2.log := by
  cases h with
  | waits hwaits => exact hwaits.invariant.1
  | received hwaits hrecv =>
      obtain ⟨-, n, hmoves, -, hoccurs⟩ := exec_perform.mp hrecv
      obtain ⟨-, -, -, -, hbelongs⟩ := hwaits.invariant.received (later_moves hmoves) hoccurs
      exact hbelongs
  | handled hwaits hreq => exact (invariant_processReq hwaits.invariant hreq).1

end Runs

/-! ## An exchange -/

/-- A request to set a configuration. -/
def ask : List Byte := bytes "vata 0 set-config-binary"

/-- The calls for it, when a message of the size of a configuration comes next. -/
def exchangeCalls (text : List Byte) : List Event :=
  [⟨.recv .request, ask⟩, ⟨.strtok (some ask), some (bytes "vata")⟩,
    ⟨.strtok none, some (bytes "0")⟩, ⟨.strtok none, some (bytes "set-config-binary")⟩,
    ⟨.send (bytes "ready"), ()⟩, ⟨.poll 1000, true⟩, ⟨.recv .configData, text⟩,
    ⟨.setCheckConfig 0 (.data (configOf text)), true⟩, ⟨.send (bytes "ok" ++ [0#8]), ()⟩]

/-- The network when the client `false` has asked and was answered `ready`. -/
def askedNetwork : Network Bool :=
  ((Network.start.set false (.queued ⟨.command, ask⟩)).take .request false ⟨.command, ask⟩).reply 12
    false ⟨.command, ask⟩ (bytes "ready")

/-- The network when the message of a client was applied and answered. -/
def exchangedNetwork (client : Bool) (message : Message) : Network Bool :=
  let n := (askedNetwork.set client (.queued message)).take .configData client message
  ({ n with log := n.log ++ [Delivery.applied 0 (configOf message.text)] } : Network Bool).reply 12
    client message (bytes "ok" ++ [0#8])

/-- A call of the server, with what happens in the network. -/
lemma path_net {nVata : ℕ} {ok : SocketEvent → Network Bool → Prop} {o : Call} {ans : o.Answer}
    {e : SocketEvent} {m m' : Machine} {n n₁ n₂ : Network Bool} {calls : List Event}
    {σ : Machine × Network Bool} (hevent : socketEvent ⟨o, ans⟩ = some e) (henv : env o m ans m')
    (hmoves : Moves n n₁) (hok : ok e n₁) (hoccurs : Occurs nVata e n₁ n₂)
    (hrest : Path (netEnv nVata ok) (m', n₂) calls σ) :
    Path (netEnv nVata ok) (m, n) (⟨o, ans⟩ :: calls) σ := by
  refine .cons ⟨henv, n₁, hmoves, ?_⟩ hrest
  rw [hevent]
  exact ⟨hok, hoccurs⟩

/-- A call of the server that is not seen. -/
lemma path_strtok {nVata : ℕ} {ok : SocketEvent → Network Bool → Prop} {s : Option (List Byte)}
    {ans : Option Token} {m m' : Machine} {n : Network Bool} {calls : List Event}
    {σ : Machine × Network Bool} (henv : env (.strtok s) m ans m')
    (hrest : Path (netEnv nVata ok) (m', n) calls σ) :
    Path (netEnv nVata ok) (m, n) (⟨.strtok s, ans⟩ :: calls) σ := by
  have hcall : netEnv nVata ok (.strtok s) (m, n) ans (m', n) := ⟨henv, n, .refl, rfl⟩
  exact .cons hcall hrest

lemma reaches_exchange {ok : SocketEvent → Network Bool → Prop} {client : Bool}
    {message : Message} (hmove : Move askedNetwork (askedNetwork.set client (.queued message)))
    (hplay : (processReq 12 started).play (exchangeCalls message.text) = some (0, started))
    (hok : ∀ e n, e ≠ .poll false → (∀ text, e ≠ .recv .configData text) → ok e n)
    (hrecv : ok (.recv .configData message.text) (askedNetwork.set client (.queued message))) :
    Reaches 12 ok started ⟨[], []⟩
      (⟨[], exchangeCalls message.text⟩, exchangedNetwork client message) := by
  have htokens : tokens ask = [bytes "vata", bytes "0", bytes "set-config-binary"] := by decide
  have hqueued : (askedNetwork.set client (.queued message)).phase client = .queued message := by
    simp [Network.set]
  have hask : Move Network.start (Network.start.set false (.queued ⟨.command, ask⟩)) :=
    .command ask rfl
  refine .handled .start (exec_of_play hplay ?_)
  refine path_net rfl ⟨trivial, rfl⟩ (.single hask) (hok _ _ nofun nofun)
    ⟨rfl, false, .command, rfl, rfl⟩ ?_
  refine path_strtok (env_first htokens) (path_strtok env_next (path_strtok env_next ?_))
  refine path_net rfl ⟨trivial, rfl⟩ .refl (hok _ _ nofun nofun) ⟨false, _, rfl, rfl⟩ ?_
  refine path_net rfl ⟨trivial, rfl⟩ (.single hmove) (hok _ _ (by simp) nofun)
    ⟨⟨fun _ => ⟨client, message, hqueued⟩, fun _ => rfl⟩, rfl⟩ ?_
  refine path_net rfl ⟨trivial, rfl⟩ .refl hrecv ⟨rfl, client, message.kind, hqueued, rfl⟩ ?_
  refine path_net rfl ⟨trivial, rfl⟩ .refl (hok _ _ nofun nofun) rfl ?_
  exact path_net rfl ⟨trivial, rfl⟩ .refl (hok _ _ nofun nofun) ⟨client, message, rfl, rfl⟩ (.nil _)

/-- The configuration that the client `false` sends after `ready`. -/
def blob : Message := ⟨.blob, List.replicate 68 1#8⟩

/-- A request of the client `true` that has the size of a configuration. -/
def longRequest : Message :=
  ⟨.command, bytes "vata 11 set-config /home/root/configurations/silicon-layer11.vatacfg"⟩

/-- A request of the client `true` is written to a core as the configuration that the client
`false` has asked to set. -/
theorem longRequest_not_belongs :
    ¬ ∀ (C : Type) [DecidableEq C] (nVata : ℕ) (srv₀ : LayerServer) (m₀ : Machine)
      (σ : Machine × Network C), Reaches nVata (fun _ _ => True) srv₀ m₀ σ →
        Belongs nVata σ.2.log := by
  intro hbelongs
  have hmove : Move askedNetwork (askedNetwork.set true (.queued longRequest)) := .command _ rfl
  have hplay : (processReq 12 started).play (exchangeCalls longRequest.text) =
      some (0, started) := by decide +kernel
  have hreaches : Reaches 12 (fun _ _ => True) started ⟨[], []⟩ _ :=
    reaches_exchange hmove hplay (fun _ _ _ _ => trivial) trivial
  obtain ⟨earlier, client, request, arg, text, hbefore, -, -⟩ :=
    (hbelongs Bool 12 started ⟨[], []⟩ _ hreaches).1
      [.took .request false ⟨.command, ask⟩, .replied false (bytes "ready"),
        .took .configData true longRequest] 0 (configOf longRequest.text)
      [.replied true (bytes "ok" ++ [0#8])] rfl
  have htook := (List.append_inj' ((List.nil_append _).trans hbefore) rfl).2
  simp [longRequest] at htook

/-- The client that asks is the one that is received from next. -/
theorem blob_belongs : Belongs 12 (exchangedNetwork false blob).log := by
  have hmove : Move askedNetwork (askedNetwork.set false (.queued blob)) :=
    .blob _ (by decide +kernel)
  have hplay : (processReq 12 started).play (exchangeCalls blob.text) = some (0, started) := by
    decide +kernel
  have hok : ∀ (e : SocketEvent) (n : Network Bool), e ≠ .poll false →
      (∀ text, e ≠ .recv .configData text) → Timely e n := by
    intro e n hpoll hrecv
    rcases e with ⟨- | -, text⟩ | - | (- | -) | -
    · trivial
    · exact absurd rfl (hrecv text)
    · trivial
    · exact absurd rfl hpoll
    · trivial
    · trivial
  have htimely : Timely (.recv .configData blob.text) (askedNetwork.set false (.queued blob)) := by
    refine ⟨false, by decide +kernel, fun client message hphase => ?_⟩
    cases client with
    | false => exact .inl rfl
    | true => exact absurd hphase nofun
  exact belongs_of_timely (reaches_exchange hmove hplay hok htimely)

end LayerServer

end TrackerFpga.Server
