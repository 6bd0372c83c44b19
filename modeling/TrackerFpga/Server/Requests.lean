import TrackerFpga.Server.Dispatch

/-!
# What a request does to the socket

`env` answers `strtok` from the tokens of the message and every other call with anything, and logs
all calls.  Of a log only `sockets` matters to the clients, the messages received and sent, and
`missed`, whether `strtok` has returned `NULL`.

`Does p Q` says that every run of `p` that returns has `Q` of its value and of these two, and
`DoesAt m p Q` the same of the runs from `m` and of the log itself.  Both compose along the text
of a program (`does_bind`); the commands follow below, each with the rule that it is built by, and
last what a whole request does.
-/

namespace TrackerFpga.Server

open ByteCodec CString Interaction

/-- A call and its answer. -/
abbrev Event := (o : Call) × o.Answer

/-- The state of the server's process: what `strtok` has not returned yet, and the log. -/
structure Machine where
  tokens : List Token
  log : List Event

namespace Machine

/-- What `strtok` has left after a call. -/
def tokensAfter : Call → List Token → List Token
  | .strtok (some s), _ => (CString.tokens s).tail
  | .strtok none, ts => ts.tail
  | _, ts => ts

/-- Whether a call can be answered so: `strtok` returns the next token, anything else anything. -/
def Allowed : (o : Call) → List Token → o.Answer → Prop
  | .strtok (some s), _, ans => ans = (CString.tokens s).head?
  | .strtok none, ts, ans => ans = ts.head?
  | _, _, _ => True

/-- The machine after a call. -/
def after (m : Machine) (o : Call) (ans : o.Answer) : Machine :=
  ⟨tokensAfter o m.tokens, m.log ++ [⟨o, ans⟩]⟩

end Machine

/-- What the calls of the server do. -/
def env : Env Call Call.Answer Machine := fun o m ans m' =>
  Machine.Allowed o m.tokens ans ∧ m' = m.after o ans

/-! ## Logs -/

/-- What a client or a core sees of a call. -/
inductive SocketEvent
  | recv (site : RecvSite) (msg : List Byte)
  | send (msg : List Byte)
  | poll (received : Bool)
  | apply (nvata : ℕ) (config : Vata.Ctrl.Config)
  deriving DecidableEq

/-- What is seen of a call: `apply` is the configuration of a message. -/
def socketEvent : Event → Option SocketEvent
  | ⟨.recv site, msg⟩ => some (.recv site msg)
  | ⟨.send msg, _⟩ => some (.send msg)
  | ⟨.poll _, received⟩ => some (.poll received)
  | ⟨.setCheckConfig nvata (.data config), _⟩ => some (.apply nvata config)
  | _ => none

/-- What is seen of a log. -/
def sockets (es : List Event) : List SocketEvent := es.filterMap socketEvent

/-- The call is a `strtok` that returns `NULL`. -/
def isMissed : Event → Bool
  | ⟨.strtok _, ans⟩ => Option.isNone ans
  | _ => false

/-- Some `strtok` has returned `NULL`. -/
def missed (es : List Event) : Bool := es.any isMissed

@[simp] lemma sockets_nil : sockets [] = [] := rfl

@[simp] lemma missed_nil : missed [] = false := rfl

@[simp] lemma sockets_append (es es' : List Event) :
    sockets (es ++ es') = sockets es ++ sockets es' := List.filterMap_append

@[simp] lemma missed_append (es es' : List Event) :
    missed (es ++ es') = (missed es || missed es') := List.any_append

/-! ## Programs -/

/-- Every run from `m` that returns has `Q` of its value and of the calls that it logs. -/
def DoesAt {α : Type} (m : Machine) (p : Method α) (Q : α → List Event → Prop) : Prop :=
  ∀ a m', Exec env p m a m' → ∃ es, m'.log = m.log ++ es ∧ Q a es

/-- Every run that returns has `Q` of its value, of what is seen of it, and of whether it missed a
token. -/
def Does {α : Type} (p : Method α) (Q : α → List SocketEvent → Bool → Prop) : Prop :=
  ∀ m, DoesAt m p fun a es => Q a (sockets es) (missed es)

section DoesAt

variable {α β : Type} {m : Machine} {p : Method α} {Q R : α → List Event → Prop}

lemma DoesAt.mono (h : DoesAt m p Q) (hQR : ∀ a es, Q a es → R a es) : DoesAt m p R := by
  intro a m' hexec
  obtain ⟨es, hlog, hQ⟩ := h a m' hexec
  exact ⟨es, hlog, hQR a es hQ⟩

lemma doesAt_pure {a : α} (h : Q a []) : DoesAt m (pure a) Q := by
  intro b m' hexec
  obtain ⟨rfl, rfl⟩ := exec_done.mp hexec
  exact ⟨[], (List.append_nil _).symm, h⟩

lemma doesAt_bind {f : α → Method β} {R : β → List Event → Prop} (h : DoesAt m p Q)
    (hf : ∀ a es t, Exec env p m a t → Q a es → DoesAt t (f a) fun c es' => R c (es ++ es')) :
    DoesAt m (p >>= f) R := by
  intro c m' hexec
  obtain ⟨a, t, hp, hrest⟩ := exec_bind.mp hexec
  obtain ⟨es, hlog, hQ⟩ := h a t hp
  obtain ⟨es', hlog', hR⟩ := hf a es t hp hQ c m' hrest
  exact ⟨es ++ es', by rw [hlog', hlog, List.append_assoc], hR⟩

lemma doesAt_perform {o : Call} {Q : o.Answer → List Event → Prop}
    (h : ∀ ans, Machine.Allowed o m.tokens ans → Q ans [⟨o, ans⟩]) :
    DoesAt m (Program.perform o) Q := by
  intro ans m' hexec
  obtain ⟨hallowed, rfl⟩ := exec_perform.mp hexec
  exact ⟨[⟨o, ans⟩], rfl, h ans hallowed⟩

end DoesAt

section Does

variable {α β : Type} {p : Method α} {Q R : α → List SocketEvent → Bool → Prop}

lemma Does.mono (h : Does p Q) (hQR : ∀ a s b, Q a s b → R a s b) : Does p R :=
  fun m => (h m).mono fun a _ hQ => hQR a _ _ hQ

lemma does_pure {a : α} (h : Q a [] false) : Does (pure a) Q := fun _ => doesAt_pure h

lemma does_bind {f : α → Method β} {R : β → List SocketEvent → Bool → Prop} (h : Does p Q)
    (hf : ∀ a s b, Q a s b → Does (f a) fun c s' b' => R c (s ++ s') (b || b')) :
    Does (p >>= f) R := by
  refine fun m => doesAt_bind (h m) fun a es t _ hQ => (hf a _ _ hQ t).mono fun c es' hR => ?_
  rwa [sockets_append, missed_append]

lemma does_perform {o : Call} {Q : o.Answer → List SocketEvent → Bool → Prop}
    (h : ∀ ans, Q ans (socketEvent ⟨o, ans⟩).toList (isMissed ⟨o, ans⟩)) :
    Does (Program.perform o) Q := by
  refine fun m => doesAt_perform fun ans _ => ?_
  have hsockets : sockets [⟨o, ans⟩] = (socketEvent ⟨o, ans⟩).toList := by
    rw [sockets, List.filterMap_cons, List.filterMap_nil]
    cases socketEvent ⟨o, ans⟩ <;> rfl
  have hmissed : missed [⟨o, ans⟩] = isMissed ⟨o, ans⟩ := by simp [missed]
  rw [hsockets, hmissed]
  exact h ans

end Does

/-! ## Kinds of commands -/

/-- The message tells of an error. -/
def IsError (msg : List Byte) : Prop :=
  ∃ text ∈ ["ERROR", "error", "E:"], (bytes text).isPrefixOf msg

/-- The texts of errors, by their first characters. -/
lemma isError_ofList {cs : List Char} (h : ['E', 'R', 'R', 'O', 'R'] <+: cs ∨
    ['e', 'r', 'r', 'o', 'r'] <+: cs ∨ ['E', ':'] <+: cs) :
    IsError (bytes (String.ofList cs) ++ [0#8]) := by
  have hprefix : ∀ {text : List Char}, text <+: cs →
      (bytes (String.ofList text)).isPrefixOf (bytes (String.ofList cs) ++ [0#8]) := by
    intro text htext
    rw [List.isPrefixOf_iff_prefix, bytes, bytes, String.toList_ofList, String.toList_ofList]
    exact (htext.map _).trans (List.prefix_append _ _)
  rcases h with h | h | h
  · exact ⟨"ERROR", by simp, hprefix h⟩
  · exact ⟨"error", by simp, hprefix h⟩
  · exact ⟨"E:", by simp, hprefix h⟩

/-- One message is sent, and it tells of an error if a token is missed. -/
def OneReply (s : List SocketEvent) (b : Bool) : Prop :=
  ∃ msg, s = [.send msg] ∧ (b = true → IsError msg)

/-- Nothing is seen, and no token is missed. -/
def Quiet (s : List SocketEvent) (b : Bool) : Prop := s = [] ∧ b = false

/-- The status is `0`, one message is sent and no token is missed. -/
def Replies (ret : ℤ) (s : List SocketEvent) (b : Bool) : Prop :=
  ret = 0 ∧ (∃ msg, s = [.send msg]) ∧ b = false

/-- One message is sent if the status is `0`, and then no token is missed, and else none. -/
def RepliesIfDone (ret : ℤ) (s : List SocketEvent) (b : Bool) : Prop :=
  Replies ret s b ∨ (ret ≠ 0 ∧ s = [])

/-- Nothing is seen, and a token is missed only if the status is an error. -/
def QuietIfDone {α : Type} (isError : α → Prop) (ret : α) (s : List SocketEvent) (b : Bool) :
    Prop :=
  s = [] ∧ (b = true → isError ret)

lemma Replies.oneReply {ret : ℤ} {s : List SocketEvent} {b : Bool} (h : Replies ret s b) :
    OneReply s b := by
  obtain ⟨-, ⟨msg, hs⟩, hb⟩ := h
  exact ⟨msg, hs, fun htrue => absurd (hb.symm.trans htrue) Bool.false_ne_true⟩

section Rules

variable {α β : Type} {p : Method α} {f : α → Method β}
  {Q : β → List SocketEvent → Bool → Prop}

/-- After a program of which nothing is seen. -/
lemma quiet_bind (h : Does p fun _ => Quiet) (hf : ∀ a, Does (f a) Q) : Does (p >>= f) Q := by
  refine does_bind h fun a s b hquiet => (hf a).mono fun c s' b' hQ => ?_
  obtain ⟨rfl, rfl⟩ := hquiet
  exact hQ

/-- A call of which nothing is seen. -/
lemma quiet_call {o : Call}
    (h : ∀ ans, socketEvent ⟨o, ans⟩ = none ∧ isMissed ⟨o, ans⟩ = false) :
    Does (Program.perform o) fun _ => Quiet := by
  refine does_perform fun ans => ?_
  rw [(h ans).1, (h ans).2]
  exact ⟨rfl, rfl⟩

/-- After a call: what is seen of it comes first. -/
lemma call_bind {o : Call} {f : o.Answer → Method β}
    (hf : ∀ ans, Does (f ans) fun c s b =>
      Q c ((socketEvent ⟨o, ans⟩).toList ++ s) (isMissed ⟨o, ans⟩ || b)) :
    Does (Program.perform o >>= f) Q := by
  refine does_bind (does_perform fun _ => ⟨rfl, rfl⟩ : Does _ fun ans s b =>
    s = (socketEvent ⟨o, ans⟩).toList ∧ b = isMissed ⟨o, ans⟩) fun ans s b hcall => ?_
  obtain ⟨rfl, rfl⟩ := hcall
  exact hf ans

/-- The last message and the status after it. -/
lemma send_pure {msg : List Byte} {a : β} (h : Q a [.send msg] false) :
    Does (Method.send msg >>= fun _ => pure a) Q :=
  call_bind fun _ => does_pure h

/-- A use of a token that returns had one. -/
lemma deref_bind {t : Option Token} {f : Token → Method β} (hf : ∀ a, t = some a → Does (f a) Q) :
    Does (Method.deref t >>= f) Q := by
  cases t with
  | some a => exact hf a rfl
  | none =>
      intro m c m' hexec
      obtain ⟨a, t, hderef, -⟩ := exec_bind.mp hexec
      obtain ⟨ans, -⟩ := exec_call.mp hderef
      exact ans.elim

end Rules

/-! ## The commands of `vata` -/

namespace LayerServer

open Method

variable {nvata : ℕ}

/-- The arguments of a command: one that is missing makes it fail. -/
lemma strtok_bind {f : Option Token → Method ℤ}
    (hnone : Does (f none) fun ret s _ => ret ≠ 0 ∧ s = [])
    (hsome : ∀ a, Does (f (some a)) RepliesIfDone) :
    Does (strtok none >>= f) RepliesIfDone := by
  refine call_bind fun ans => ?_
  cases ans with
  | none => exact hnone.mono fun c s' b' h => .inr h
  | some a => exact hsome a

/-- `_parse_positive_int` with no token, and with one. -/
lemma does_parsePositiveInt : Does parsePositiveInt fun r s b =>
    (r = (-1, none) ∧ s = [] ∧ b = true) ∨
      ∃ arg, r = (positiveInt arg, some arg) ∧ s = [] ∧ b = false := by
  refine call_bind fun ans => ?_
  cases ans with
  | none => exact does_pure (.inl ⟨rfl, rfl, rfl⟩)
  | some arg => exact does_pure (.inr ⟨arg, rfl, rfl, rfl⟩)

/-- The number of a command: with no token, one is missed. -/
lemma parse_bind {α : Type} {f : ℤ × Option Token → Method α}
    {Q : α → List SocketEvent → Bool → Prop}
    (hnone : Does (f (-1, none)) fun c s _ => Q c s true)
    (hsome : ∀ arg, Does (f (positiveInt arg, some arg)) Q) :
    Does (parsePositiveInt >>= f) Q := by
  refine does_bind does_parsePositiveInt fun r s b hparse => ?_
  rcases hparse with ⟨rfl, rfl, rfl⟩ | ⟨arg, rfl, rfl, rfl⟩
  · exact hnone
  · exact hsome arg

lemma quiet_vata {a : VataAction} : Does (vata nvata a) fun _ => Quiet :=
  quiet_call fun _ => ⟨rfl, rfl⟩

lemma quiet_vataQuery {q : VataQuery} : Does (vataQuery nvata q) fun _ => Quiet :=
  quiet_call fun _ => ⟨rfl, rfl⟩

lemma replies_send {msg : List Byte} : Does (send msg >>= fun _ => pure 0) Replies :=
  send_pure ⟨rfl, ⟨_, rfl⟩, rfl⟩

lemma replies_sendOk : Does (sendOk >>= fun _ => pure 0) RepliesIfDone :=
  replies_send.mono fun _ _ _ => .inl

lemma fails {ret : ℤ} (h : ret ≠ 0) : Does (pure ret) RepliesIfDone := does_pure (.inr ⟨h, rfl⟩)

lemma does_setConfig : Does (setConfig nvata) RepliesIfDone := by
  refine strtok_bind (does_pure ⟨one_ne_zero, rfl⟩) fun fname => ?_
  refine quiet_bind (quiet_call fun _ => ⟨rfl, rfl⟩) fun good => ?_
  split_ifs
  · refine quiet_bind (quiet_call fun _ => ⟨rfl, rfl⟩) fun set => ?_
    split_ifs
    · exact replies_sendOk
    · exact fails one_ne_zero
  · exact fails one_ne_zero

lemma does_getConfig : Does (getConfig nvata) RepliesIfDone := by
  refine strtok_bind (does_pure ⟨one_ne_zero, rfl⟩) fun fname => quiet_bind quiet_vata fun ret => ?_
  split_ifs
  · exact fails one_ne_zero
  · exact replies_sendOk

lemma does_setHold : Does (setHold nvata) RepliesIfDone := by
  refine strtok_bind (does_pure ⟨one_ne_zero, rfl⟩) fun arg => ?_
  dsimp only
  split_ifs
  · exact fails one_ne_zero
  · exact quiet_bind quiet_vata fun _ => replies_sendOk

lemma does_sendQuery {q : VataQuery} : Does (sendQuery nvata q) Replies :=
  quiet_bind quiet_vataQuery fun _ => replies_send

lemma does_getCounters : Does (getCounters nvata) Replies :=
  quiet_bind (quiet_call fun _ => ⟨rfl, rfl⟩) fun _ => replies_send

lemma does_actThenOk {a : VataAction} : Does (actThenOk nvata a) Replies :=
  quiet_bind quiet_vata fun _ => replies_send

lemma does_getConfigBinary : Does (getConfigBinary nvata) Replies :=
  quiet_bind (quiet_call fun _ => ⟨rfl, rfl⟩) fun _ => replies_send

lemma does_triggerBit {one : ℤ → TriggerAction} {all : TriggerAction} :
    Does (triggerBit nvata one all) RepliesIfDone := by
  refine parse_bind ?_ fun arg => ?_
  · rw [if_neg (by decide)]
    exact deref_bind fun _ h => absurd h (by simp)
  dsimp only
  split_ifs with hpos
  · refine quiet_bind quiet_vata fun ret => ?_
    split_ifs
    · exact fails one_ne_zero
    · exact replies_sendOk
  · refine deref_bind fun cmd _ => ?_
    split_ifs
    · exact quiet_bind quiet_vata fun _ => replies_sendOk
    · exact fails one_ne_zero

/-- An error message of a dispatcher. -/
lemma oneReply_error {α : Type} {retmsg : String} {a : α} (herr : IsError (bytes retmsg ++ [0#8])) :
    Does (sendMsg retmsg >>= fun _ => pure a) fun _ => OneReply :=
  send_pure ⟨_, rfl, fun _ => herr⟩

/-- A message of a command that has missed no token. -/
lemma oneReply_send {α : Type} {msg : List Byte} {a : α} :
    Does (send msg >>= fun _ => pure a) fun _ => OneReply :=
  send_pure ⟨_, rfl, fun h => absurd h Bool.false_ne_true⟩

lemma oneReply_triggerEnableTmHit : Does (triggerEnableTmHit nvata) fun _ => OneReply := by
  refine quiet_bind quiet_vata fun ret => ?_
  split_ifs
  · exact oneReply_send
  · exact oneReply_send

lemma oneReply_okThenTrigger {a : TriggerAction} :
    Does (okThenTrigger nvata a) fun _ => OneReply := by
  refine call_bind fun _ => quiet_vata.mono fun _ s b hquiet => ?_
  obtain ⟨rfl, rfl⟩ := hquiet
  exact ⟨_, rfl, fun h => absurd h Bool.false_ne_true⟩

lemma quiet_pure {α : Type} {a : α} : Does (pure a) fun _ => Quiet := does_pure ⟨rfl, rfl⟩

lemma quiet_whileLoop {cond : Method Bool} {body : Method Unit} (hcond : Does cond fun _ => Quiet)
    (hbody : Does body fun _ => Quiet) (k : ℕ) : Does (whileLoop cond body k) fun _ => Quiet := by
  induction k with
  | zero =>
      refine quiet_bind hcond fun again => ?_
      split_ifs
      · intro m a m' hexec
        obtain ⟨ans, -⟩ := exec_call.mp hexec
        exact ans.elim
      · exact quiet_pure
  | succ k ih =>
      refine quiet_bind hcond fun again => ?_
      split_ifs
      · exact quiet_bind hbody fun _ => ih
      · exact quiet_pure

lemma oneReply_clearFifo : Does (clearFifo nvata) fun _ => OneReply := by
  refine quiet_bind (quiet_call fun _ => ⟨rfl, rfl⟩) fun k => ?_
  refine quiet_bind (quiet_whileLoop ?_ ?_ k) fun _ => oneReply_send
  · exact quiet_bind quiet_vataQuery fun _ => quiet_pure
  · exact quiet_bind quiet_vata fun _ => quiet_pure

/-- The dispatcher replies when the command has failed without a reply. -/
lemma oneReply_orError {command : Method ℤ} {retmsg : String} (h : Does command RepliesIfDone)
    (herr : IsError (bytes retmsg ++ [0#8])) :
    Does (orError command retmsg) fun _ => OneReply := by
  refine does_bind h fun ret s b hcommand => ?_
  split_ifs with hret
  · have hs : s = [] := by
      rcases hcommand with hdone | hfailed
      · exact absurd hdone.1 hret
      · exact hfailed.2
    subst hs
    exact send_pure ⟨_, rfl, fun _ => herr⟩
  · have hreply : Replies ret s b := hcommand.resolve_right fun hfailed => hret hfailed.1
    obtain ⟨msg, rfl, hb⟩ := hreply.oneReply
    exact does_pure ⟨msg, rfl, by rwa [Bool.or_false]⟩

lemma oneReply_orError_replies {command : Method ℤ} {retmsg : String} (h : Does command Replies) :
    Does (orError command retmsg) fun _ => OneReply := by
  refine does_bind h fun ret s b hreply => ?_
  obtain ⟨msg, rfl, hb⟩ := hreply.oneReply
  rw [if_neg (not_not.mpr hreply.1)]
  exact does_pure ⟨msg, rfl, by rwa [Bool.or_false]⟩

lemma oneReply_ignoring {command : Method ℤ} (h : Does command fun _ => OneReply) :
    Does (ignoring command) fun _ => OneReply := by
  refine does_bind h fun ret s b hreply => ?_
  obtain ⟨msg, rfl, hb⟩ := hreply
  exact does_pure ⟨msg, rfl, by rwa [Bool.or_false]⟩

instance (msg : List Byte) : Decidable (IsError msg) :=
  inferInstanceAs (Decidable (∃ text ∈ ["ERROR", "error", "E:"], (bytes text).isPrefixOf msg))

lemma oneReply_vataCommand_none : Does (vataCommand nvata none) fun _ => OneReply :=
  oneReply_error (isError_ofList (by decide))

/-- The commands of `vata` that reply once. -/
lemma oneReply_vataCommand {command : Option VataCommand}
    (hbinary : command ≠ some .setConfigBinary) (henable : command ≠ some .triggerEnableAsic)
    (hdisable : command ≠ some .triggerDisableAsic) :
    Does (vataCommand nvata command) fun _ => OneReply := by
  rcases command with - | command
  · exact oneReply_vataCommand_none
  cases command with
  | setConfigBinary => exact absurd rfl hbinary
  | setConfig => exact oneReply_orError does_setConfig (isError_ofList (by decide))
  | getConfigBinary => exact does_getConfigBinary.mono fun _ _ _ h => h.oneReply
  | getConfig => exact oneReply_orError does_getConfig (isError_ofList (by decide))
  | setHold => exact oneReply_orError does_setHold (isError_ofList (by decide))
  | getHold => exact oneReply_orError_replies does_sendQuery
  | getCounters => exact oneReply_orError_replies does_getCounters
  | resetCounters => exact oneReply_orError_replies does_actThenOk
  | triggerEnableBit => exact oneReply_orError does_triggerBit (isError_ofList (by decide))
  | triggerDisableBit => exact oneReply_orError does_triggerBit (isError_ofList (by decide))
  | triggerEnableAsic => exact absurd rfl henable
  | triggerDisableAsic => exact absurd rfl hdisable
  | triggerEnableTmHit => exact oneReply_ignoring oneReply_triggerEnableTmHit
  | triggerDisableTmHit => exact oneReply_ignoring oneReply_okThenTrigger
  | triggerEnableTmAck => exact oneReply_ignoring oneReply_okThenTrigger
  | triggerDisableTmAck => exact oneReply_ignoring oneReply_okThenTrigger
  | triggerEnableForced => exact oneReply_ignoring oneReply_okThenTrigger
  | triggerDisableForced => exact oneReply_ignoring oneReply_okThenTrigger
  | getTriggerEnaMask => exact oneReply_ignoring (does_sendQuery.mono fun _ _ _ h => h.oneReply)
  | getEventCount => exact oneReply_orError_replies does_sendQuery
  | resetEventCount => exact oneReply_orError_replies does_actThenOk
  | getNFifo => exact oneReply_orError_replies does_sendQuery
  | clearFifo => exact oneReply_ignoring oneReply_clearFifo
  | fsmIdle => exact quiet_bind quiet_vata fun _ => oneReply_send

/-! ## The other groups -/

section Groups

variable {α : Type} {isError : α → Prop}

lemma quietIfDone {p : Method α} (h : Does p fun _ => Quiet) : Does p (QuietIfDone isError) :=
  h.mono fun _ _ _ hquiet =>
    ⟨hquiet.1, fun htrue => absurd (hquiet.2.symm.trans htrue) Bool.false_ne_true⟩

/-- A command with a number: where the number is negative it fails. -/
lemma parse_quiet {f : ℤ × Option Token → Method α}
    (hneg : ∀ r : ℤ × Option Token, r.1 < 0 → Does (f r) fun c s _ => s = [] ∧ isError c)
    (hpos : ∀ r : ℤ × Option Token, ¬ r.1 < 0 → Does (f r) (QuietIfDone isError)) :
    Does (parsePositiveInt >>= f) (QuietIfDone isError) := by
  have hfails : ∀ r : ℤ × Option Token, r.1 < 0 →
      Does (f r) fun c s _ => ∀ b, QuietIfDone isError c s b :=
    fun r hr => (hneg r hr).mono fun _ _ _ h _ => ⟨h.1, fun _ => h.2⟩
  refine parse_bind ((hfails _ neg_one_lt_zero).mono fun _ _ _ h => h true) fun arg => ?_
  by_cases hr : positiveInt arg < 0
  · exact (hfails _ hr).mono fun _ _ b h => h b
  · exact hpos _ hr

lemma quiet_cal {a : CalAction} : Does (cal a) fun _ => Quiet :=
  quiet_call fun _ => ⟨rfl, rfl⟩

lemma quiet_dac {a : DacAction} : Does (dac a) fun _ => Quiet :=
  quiet_call fun _ => ⟨rfl, rfl⟩

lemma quiet_sync {a : SyncAction} : Does (sync a) fun _ => Quiet :=
  quiet_call fun _ => ⟨rfl, rfl⟩

lemma quiet_inprocSend {msg : List Byte} : Does (inprocSend msg) fun _ => Quiet :=
  quiet_call fun _ => ⟨rfl, rfl⟩

/-- The status of a driver call. -/
lemma quiet_status {β : Type} {p : Method β} (h : Does p fun _ => Quiet) (g : β → α) :
    Does (p >>= fun b => pure (g b)) (QuietIfDone isError) :=
  quiet_bind h fun _ => quietIfDone quiet_pure

lemma oneReply_emitCommand {running : Bool} (command : Option EmitCommand) :
    Does (emitCommand running command) fun _ => OneReply := by
  rcases command with - | command
  · exact oneReply_error (isError_ofList (by decide))
  have hstop : Does stopPacketEmitter fun _ => Quiet :=
    quiet_bind quiet_inprocSend fun _ => quiet_pure
  cases command with
  | status => exact oneReply_send
  | start =>
      cases running with
      | true => exact oneReply_send
      | false =>
          exact quiet_bind (quiet_bind quiet_inprocSend fun _ => quiet_pure) fun _ => oneReply_send
  | stop =>
      cases running with
      | true => exact quiet_bind hstop fun _ => oneReply_send
      | false => exact oneReply_send

lemma does_calFlag {calctrl : CalCtrl} {set : Bool → CalCtrl} :
    Does (calFlag calctrl set) (QuietIfDone fun r => r.1 ≠ 0) := by
  refine parse_quiet (fun r hr => ?_) fun r hr => ?_
  · rw [if_pos hr]
    exact does_pure ⟨rfl, one_ne_zero⟩
  · rw [if_neg hr]
    split_ifs
    · exact quiet_status quiet_cal _
    · exact quiet_status quiet_cal _
    · exact quietIfDone quiet_pure

lemma does_calNumber {calctrl : CalCtrl} {set : BitVec 32 → CalCtrl} :
    Does (calNumber calctrl set) (QuietIfDone fun r => r.1 ≠ 0) := by
  refine parse_quiet (fun r hr => ?_) fun r hr => ?_
  · rw [if_pos hr]
    exact does_pure ⟨rfl, one_ne_zero⟩
  · rw [if_neg hr]
    exact quiet_status quiet_cal _

lemma does_calNPulses {calctrl : CalCtrl} :
    Does (calNPulses calctrl) (QuietIfDone fun ret => ret = 1) := by
  refine parse_quiet (fun r hr => ?_) fun r hr => ?_
  · rw [if_pos hr]
    exact does_pure ⟨rfl, rfl⟩
  · rw [if_neg hr]
    split_ifs
    · exact quietIfDone quiet_pure
    · exact quietIfDone quiet_cal

lemma oneReply_calReply {command : Method (ℤ × CalCtrl)} {retmsg : String}
    (h : Does command (QuietIfDone fun r => r.1 ≠ 0))
    (herr : IsError (bytes retmsg ++ [0#8])) :
    Does (calReply command retmsg) fun _ => OneReply := by
  refine does_bind h fun r s b hcommand => ?_
  obtain ⟨rfl, hmiss⟩ := hcommand
  split_ifs with hret
  · exact send_pure ⟨_, rfl, fun _ => herr⟩
  · exact send_pure ⟨_, rfl, fun hb => absurd (hmiss (by rwa [Bool.or_false] at hb)) hret⟩

lemma oneReply_calCommand {calctrl : CalCtrl} (command : Option CalCommand) :
    Does (calCommand calctrl command) fun _ => OneReply := by
  rcases command with - | command
  · exact oneReply_error (isError_ofList (by decide))
  cases command with
  | pulseEna => exact oneReply_calReply does_calFlag (isError_ofList (by decide))
  | triggerEna => exact oneReply_calReply does_calFlag (isError_ofList (by decide))
  | fastOrDisable => exact oneReply_calReply does_calFlag (isError_ofList (by decide))
  | pulseWidth => exact oneReply_calReply does_calNumber (isError_ofList (by decide))
  | triggerDelay => exact oneReply_calReply does_calNumber (isError_ofList (by decide))
  | repeatDelay => exact oneReply_calReply does_calNumber (isError_ofList (by decide))
  | startInf => exact oneReply_calReply (quiet_status quiet_cal _) (isError_ofList (by decide))
  | stopInf => exact oneReply_calReply (quiet_status quiet_cal _) (isError_ofList (by decide))
  | nPulses =>
      refine does_bind does_calNPulses fun ret s b hcommand => ?_
      obtain ⟨rfl, hmiss⟩ := hcommand
      split_ifs with hparse hzero
      · exact send_pure ⟨_, rfl, fun _ => isError_ofList (by decide)⟩
      · exact send_pure ⟨_, rfl, fun _ => isError_ofList (by decide)⟩
      · exact send_pure ⟨_, rfl, fun hb => absurd (hmiss (by rwa [Bool.or_false] at hb)) hparse⟩

/-- The arguments of `_dac_set_counts` and `_dac_set_delay`. -/
lemma strtok_quiet {f : Option Token → Method ℤ}
    (hnone : f none = pure 1) (hsome : ∀ a, Does (f (some a)) (QuietIfDone fun ret => ret = 1)) :
    Does (strtok none >>= f) (QuietIfDone fun ret => ret = 1) := by
  refine call_bind fun ans => ?_
  cases ans with
  | none =>
      rw [hnone]
      exact does_pure ⟨rfl, fun _ => rfl⟩
  | some a => exact hsome a

lemma does_dacSetDelay : Does dacSetDelay (QuietIfDone fun ret => ret = 1) :=
  strtok_quiet rfl fun _ => quiet_status quiet_dac _

lemma does_dacCounts {sideStr choiceStr countStr : Token} :
    Does (dacCounts sideStr choiceStr countStr) (QuietIfDone fun ret => ret = 1) := by
  rw [dacCounts]
  cases parseSilayerSide sideStr with
  | none => exact does_pure ⟨rfl, fun _ => rfl⟩
  | some side =>
      dsimp only
      cases parseDacChoice choiceStr with
      | none => exact does_pure ⟨rfl, fun _ => rfl⟩
      | some choice => exact quiet_status quiet_dac _

lemma does_dacSetCounts : Does dacSetCounts (QuietIfDone fun ret => ret = 1) :=
  strtok_quiet rfl fun _ => strtok_quiet rfl fun _ => strtok_quiet rfl fun _ => does_dacCounts

lemma oneReply_dacReply {command : Method ℤ} {unparsed outOfRange : String}
    (h : Does command (QuietIfDone fun ret => ret = 1))
    (herr : IsError (bytes unparsed ++ [0#8])) (herr' : IsError (bytes outOfRange ++ [0#8])) :
    Does (dacReply command unparsed outOfRange) fun _ => OneReply := by
  refine does_bind h fun ret s b hcommand => ?_
  obtain ⟨rfl, hmiss⟩ := hcommand
  split_ifs with hparse hrange
  · exact send_pure ⟨_, rfl, fun _ => herr⟩
  · exact send_pure ⟨_, rfl, fun _ => herr'⟩
  · exact send_pure ⟨_, rfl, fun hb => absurd (hmiss (by rwa [Bool.or_false] at hb)) hparse⟩

lemma oneReply_dacSend {q : DacQuery} : Does (dacSend q) fun _ => OneReply :=
  quiet_bind (quiet_call fun _ => ⟨rfl, rfl⟩) fun _ => oneReply_send

lemma oneReply_dacCommand (command : Option DacCommand) :
    Does (dacCommand command) fun _ => OneReply := by
  rcases command with - | command
  · exact oneReply_error (isError_ofList (by decide))
  cases command with
  | setDelay =>
      refine oneReply_dacReply does_dacSetDelay ?_ ?_
      · exact isError_ofList (by decide)
      · exact isError_ofList (by decide)
  | getDelay => exact oneReply_dacSend
  | setCounts =>
      refine oneReply_dacReply does_dacSetCounts ?_ ?_
      · exact isError_ofList (by decide)
      · exact isError_ofList (by decide)
  | getInput => exact oneReply_dacSend

lemma does_syncSetAsicHitEnable {action : ℤ → SyncAction} :
    Does (syncSetAsicHitEnable action) (QuietIfDone fun ret => ret ≠ 0) := by
  refine parse_quiet (fun r hr => ?_) fun r hr => ?_
  · rw [if_pos hr]
    exact does_pure ⟨rfl, one_ne_zero⟩
  · rw [if_neg hr]
    exact quiet_status quiet_sync _

lemma oneReply_syncReply {command : Method ℤ} (h : Does command (QuietIfDone fun ret => ret ≠ 0)) :
    Does (syncReply command) fun _ => OneReply := by
  refine does_bind h fun ret s b hcommand => ?_
  obtain ⟨rfl, hmiss⟩ := hcommand
  split_ifs with hret
  · exact send_pure ⟨_, rfl, fun _ => isError_ofList (by decide)⟩
  · exact send_pure ⟨_, rfl, fun hb => absurd (hmiss (by rwa [Bool.or_false] at hb)) hret⟩

lemma oneReply_syncThenOk {a : SyncAction} : Does (syncThenOk a) fun _ => OneReply :=
  quiet_bind quiet_sync fun _ => oneReply_send

lemma oneReply_syncCommand (command : Option SyncCommand) :
    Does (syncCommand command) fun _ => OneReply := by
  rcases command with - | command
  · exact oneReply_error (isError_ofList (by decide))
  cases command with
  | counterReset => exact oneReply_syncThenOk
  | getCounter => exact quiet_bind (quiet_call fun _ => ⟨rfl, rfl⟩) fun _ => oneReply_send
  | forceTrigger => exact oneReply_syncThenOk
  | getGlobalHitEna => exact quiet_bind (quiet_call fun _ => ⟨rfl, rfl⟩) fun _ => oneReply_send
  | globalHitEnable => exact oneReply_syncThenOk
  | globalHitDisable => exact oneReply_syncThenOk
  | asicHitEnable => exact oneReply_syncReply does_syncSetAsicHitEnable
  | asicHitDisable => exact oneReply_syncReply does_syncSetAsicHitEnable
  | getAsicHitDisableMask =>
      exact quiet_bind (quiet_call fun _ => ⟨rfl, rfl⟩) fun _ => oneReply_send

end Groups

end LayerServer

end TrackerFpga.Server
