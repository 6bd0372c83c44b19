import TrackerFpga.Server.Requests

/-!
# What a handled request does

A `vata` request that comes to a command is one that `vataRequest` takes apart.  The requests that
are handled fall under four: `halt`, which sends nothing; `set-config-binary`, which may receive a
second message; the commands for one asic, which reply once or twice; and every other one, which
sends one reply.
-/

namespace TrackerFpga.Server

open ByteCodec CString Interaction

namespace LayerServer

open Method

/-- A `vata` request that comes to a command: the core, the command, and the token after it. -/
structure VataRequest where
  nvata : ℕ
  command : VataCommand
  arg : Option Token
  deriving DecidableEq

/-- The command in the tokens after the first word. -/
def vataParts (nVata : ℕ) : List Token → Option VataRequest
  | num :: cmd :: args => do
      let nvata ← vataNumber nVata num
      let command ← lookup vataTable cmd
      pure ⟨nvata, command, args.head?⟩
  | _ => none

/-- The command of a `vata` request, if it comes to one. -/
def vataRequest (nVata : ℕ) (request : List Byte) : Option VataRequest :=
  if lookup groupTable (ofBuffer request) = some .vata then
    vataParts nVata (tokens (ofBuffer request)).tail
  else
    none

/-- A request to exit. -/
def IsHalt (request : List Byte) : Prop := lookup groupTable (ofBuffer request) = some .halt

instance (request : List Byte) : Decidable (IsHalt request) :=
  inferInstanceAs (Decidable (lookup groupTable (ofBuffer request) = some .halt))

/-! ## The second token -/

/-- The calls are of `strtok` and return tokens. -/
def Found (calls : List Event) : Prop := ∀ e ∈ calls, ∃ s t, e = ⟨.strtok s, some t⟩

lemma Found.quiet {calls : List Event} (h : Found calls) :
    Quiet (sockets calls) (missed calls) := by
  refine ⟨List.filterMap_eq_nil_iff.mpr fun e he => ?_, List.any_eq_false.mpr fun e he => ?_⟩
  · obtain ⟨s, t, rfl⟩ := h e he
    rfl
  · obtain ⟨s, t, rfl⟩ := h e he
    exact Bool.false_ne_true

/-- What comes before the rest of a run and is not seen. -/
lemma after_quiet {m t m' : Machine} {es : List Event} {Q : List SocketEvent → Bool → Prop}
    (hlog : t.log = m.log ++ es) (hquiet : Quiet (sockets es) (missed es))
    (h : ∃ es', m'.log = t.log ++ es' ∧ Q (sockets es') (missed es')) :
    ∃ es', m'.log = m.log ++ es' ∧ Q (sockets es') (missed es') := by
  obtain ⟨es', hlog', hQ⟩ := h
  refine ⟨es ++ es', by rw [hlog', hlog, List.append_assoc], ?_⟩
  rwa [sockets_append, missed_append, hquiet.1, hquiet.2]

/-- The last message and the status after it. -/
lemma exec_send_pure {α : Type} {msg : List Byte} {a b : α} {m m' : Machine} :
    Exec env (send msg >>= fun _ => pure a) m b m' ↔ b = a ∧ m' = m.after (.send msg) () := by
  constructor
  · intro h
    obtain ⟨ans, t, hsend, hpure⟩ := exec_bind.mp h
    obtain ⟨-, rfl⟩ := exec_perform.mp hsend
    exact exec_done.mp hpure
  · rintro ⟨rfl, rfl⟩
    exact exec_bind.mpr ⟨(), _, exec_perform.mpr ⟨trivial, rfl⟩, exec_done.mpr ⟨rfl, rfl⟩⟩

/-- The tokens after the first word are the one that is returned and those that are left. -/
lemma exec_secondToken {msg : List Byte} {m m' : Machine} {cmd : Token}
    (h : Exec env (secondToken msg) m cmd m') :
    (tokens msg).tail = cmd :: m'.tokens ∧ ∃ es, m'.log = m.log ++ es ∧ Found es := by
  obtain ⟨first, t, hstart, h⟩ := exec_bind.mp h
  obtain ⟨second, u, hnext, hderef⟩ := exec_bind.mp h
  obtain ⟨hfirst, rfl⟩ := exec_perform.mp hstart
  obtain ⟨hsecond, rfl⟩ := exec_perform.mp hnext
  cases second with
  | none =>
      obtain ⟨ans, -⟩ := exec_call.mp hderef
      exact ans.elim
  | some arg =>
      obtain ⟨rfl, rfl⟩ := exec_done.mp hderef
      have htail : (tokens msg).tail = cmd :: (tokens msg).tail.tail :=
        List.eq_cons_of_mem_head? hsecond.symm
      obtain ⟨word, hword⟩ : ∃ word, first = some word := by
        rw [show first = (tokens msg).head? from hfirst]
        cases htokens : tokens msg with
        | nil => simp [htokens] at htail
        | cons word ts => exact ⟨word, rfl⟩
      refine ⟨htail, [⟨.strtok (some msg), first⟩, ⟨.strtok none, some cmd⟩], ?_, ?_⟩
      · simp [Machine.after]
      · simp only [Found, List.mem_cons, List.not_mem_nil, or_false]
        rintro e (rfl | rfl)
        · exact ⟨some msg, word, by rw [hword]⟩
        · exact ⟨none, cmd, rfl⟩

lemma does_secondToken {msg : List Byte} : Does (secondToken msg) fun _ => Quiet :=
  fun _ _ _ h => (exec_secondToken h).2.imp fun _ hes => ⟨hes.1, hes.2.quiet⟩

/-! ## `vata` -/

section Vata

variable {nVata nvata : ℕ} {msg : List Byte}

/-- A `vata` message comes to a command or sends an error. -/
lemma exec_processVataMsg {m m' : Machine} {ret : ℤ}
    (h : Exec env (processVataMsg nVata msg) m ret m') :
    (vataParts nVata (tokens msg).tail = none ∧
      ∃ es, m'.log = m.log ++ es ∧ OneReply (sockets es) (missed es)) ∨
    ∃ r t es, vataParts nVata (tokens msg).tail = some r ∧ t.log = m.log ++ es ∧
      Found es ∧ t.tokens.head? = r.arg ∧
      Exec env (vataCommand r.nvata (some r.command)) t ret m' := by
  obtain ⟨num, t, hsecond, h⟩ := exec_bind.mp h
  obtain ⟨htail, es, hlog, hfound⟩ := exec_secondToken hsecond
  rw [htail]
  cases hnum : vataNumber nVata num with
  | none =>
      rw [hnum] at h
      have hreply := oneReply_error (isError_ofList (by decide)) t ret m' h
      refine .inl ⟨?_, after_quiet hlog hfound.quiet hreply⟩
      cases t.tokens <;> simp [vataParts, hnum]
  | some nvata =>
      rw [hnum] at h
      obtain ⟨cmd, u, hnext, h⟩ := exec_bind.mp h
      obtain ⟨hcmd, rfl⟩ := exec_perform.mp hnext
      replace hcmd : cmd = t.tokens.head? := hcmd
      cases htokens : t.tokens with
      | nil =>
          rw [htokens] at hcmd
          subst hcmd
          refine .inl ⟨rfl, after_quiet hlog hfound.quiet ?_⟩
          obtain ⟨-, rfl⟩ := exec_send_pure.mp h
          exact ⟨[⟨.strtok none, none⟩, ⟨.send _, ()⟩], List.append_assoc _ _ _, _, rfl,
            fun _ => by decide⟩
      | cons arg args =>
          rw [htokens] at hcmd
          subst hcmd
          have hcommand : Found [⟨.strtok none, some arg⟩] := by
            simp only [Found, List.mem_singleton]
            rintro e rfl
            exact ⟨none, arg, rfl⟩
          replace h : Exec env (vataCommand nvata (lookup vataTable arg))
              (t.after (.strtok none) (some arg)) ret m' := h
          cases hlookup : lookup vataTable arg with
          | none =>
              rw [hlookup] at h
              refine .inl ⟨by simp [vataParts, hnum, hlookup], after_quiet hlog hfound.quiet ?_⟩
              exact after_quiet rfl hcommand.quiet (oneReply_vataCommand_none _ ret m' h)
          | some command =>
              refine .inr ⟨⟨nvata, command, args.head?⟩, t.after (.strtok none) (some arg),
                es ++ [⟨.strtok none, some arg⟩], ?_, ?_, ?_, ?_, ?_⟩
              · simp [vataParts, hnum, hlookup]
              · simp [Machine.after, hlog]
              · exact fun e he => (List.mem_append.mp he).elim (hfound e) (hcommand e)
              · simp [Machine.after, Machine.tokensAfter, htokens]
              · rwa [hlookup] at h

/-- What `set-config-binary` does: nothing comes in time, or one message is received, applied if
it has the size of a configuration, and answered. -/
def Exchange (nvata : ℕ) (s : List SocketEvent) : Prop :=
  s = [.send (bytes "ready"), .poll false] ∨
    ∃ blob reply, s = [.send (bytes "ready"), .poll true, .recv .configData blob] ++
      (if blob.length = Vata.Ctrl.nCfgReg * 4 then [.apply nvata (configOf blob)] else []) ++
        [.send reply] ∧ reply ≠ bytes "ready"

lemma does_applyConfig {blob : List Byte} :
    Does (applyConfig nvata blob) fun _ s b => b = false ∧
      ∃ reply, s = (if blob.length = Vata.Ctrl.nCfgReg * 4 then [.apply nvata (configOf blob)]
        else []) ++ [.send reply] ∧ reply ≠ bytes "ready" := by
  rw [applyConfig]
  by_cases hsize : blob.length = Vata.Ctrl.nCfgReg * 4
  · rw [if_neg (not_not.mpr hsize), if_pos hsize]
    refine call_bind fun set => ?_
    split_ifs
    · exact send_pure ⟨rfl, _, rfl, by decide⟩
    · exact send_pure ⟨rfl, _, rfl, by decide⟩
  · rw [if_pos hsize, if_neg hsize]
    exact send_pure ⟨rfl, _, rfl, by decide⟩

lemma does_setConfigBinary :
    Does (setConfigBinary nvata) fun _ s b => Exchange nvata s ∧ b = false := by
  refine call_bind fun _ => call_bind fun received => ?_
  cases received with
  | false => exact does_pure ⟨.inl rfl, rfl⟩
  | true =>
      refine call_bind fun blob => does_applyConfig.mono fun ret s b happly => ?_
      obtain ⟨rfl, reply, rfl, hreply⟩ := happly
      exact ⟨.inr ⟨blob, reply, by simp [socketEvent], hreply⟩, rfl⟩

end Vata

/-! ## The commands for one asic -/

/-- Neither a number nor `all`. -/
def BadNumber (arg : Token) : Prop := positiveInt arg < 0 ∧ strncmp arg (bytes "all") 3 = false

/-- The driver could not disable an asic. -/
def DisableFailed : Event → Prop
  | ⟨.vata _ (.trigger (.disableLocalAsic _)), ret⟩ => (show ℤ from ret) ≠ 0
  | _ => False

/-- The command replies and fails, so that the dispatcher replies too. -/
def RepliesTwice (r : VataRequest) (calls : List Event) : Prop :=
  (r.command = .triggerEnableAsic ∧ ∃ arg, r.arg = some arg ∧ BadNumber arg) ∨
    (r.command = .triggerDisableAsic ∧
      ((∃ arg, r.arg = some arg ∧ BadNumber arg) ∨ ∃ e ∈ calls, DisableFailed e))

/-- Two messages are sent, or one. -/
def OnceOrTwice (twice : Prop) (s : List SocketEvent) : Prop :=
  (twice ∧ ∃ msg msg', s = [.send msg, .send msg']) ∨ (¬ twice ∧ ∃ msg, s = [.send msg])

/-- The command replies on success, and when it fails only where it is `bad`. -/
def AsicReplies (bad : List Event → Prop) (ret : ℤ) (calls : List Event) : Prop :=
  missed calls = false ∧
    ((bad calls ∧ ret ≠ 0 ∧ ∃ msg, sockets calls = [.send msg]) ∨
      (¬ bad calls ∧ RepliesIfDone ret (sockets calls) (missed calls)))

section Asic

variable {nvata : ℕ} {m : Machine} {arg : Token}

lemma doesAt_send_pure {msg : List Byte} {a : ℤ} {Q : ℤ → List Event → Prop}
    (h : Q a [⟨.send msg, ()⟩]) : DoesAt m (send msg >>= fun _ => pure a) Q := by
  intro b m' hexec
  obtain ⟨rfl, rfl⟩ := exec_send_pure.mp hexec
  exact ⟨_, rfl, h⟩

/-- What `_parse_positive_int` returns for the next token. -/
def parsed : Option Token → ℤ × Option Token
  | none => (-1, none)
  | some arg => (positiveInt arg, some arg)

lemma exec_parsePositiveInt {r : ℤ × Option Token} {m' : Machine} :
    Exec env parsePositiveInt m r m' ↔
      r = parsed m.tokens.head? ∧ m' = m.after (.strtok none) m.tokens.head? := by
  rw [parsePositiveInt, exec_bind]
  constructor
  · rintro ⟨cmd, t, hnext, hrest⟩
    obtain ⟨hcmd, rfl⟩ := exec_perform.mp hnext
    obtain rfl : cmd = m.tokens.head? := hcmd
    cases htoken : m.tokens.head? with
    | none =>
        rw [htoken] at hrest
        exact exec_done.mp hrest
    | some arg =>
        rw [htoken] at hrest
        exact exec_done.mp hrest
  · rintro ⟨rfl, rfl⟩
    refine ⟨m.tokens.head?, _, exec_perform.mpr ⟨rfl, rfl⟩, ?_⟩
    cases m.tokens.head? <;> exact exec_done.mpr ⟨rfl, rfl⟩

lemma doesAt_parsePositiveInt {token : Option Token} (htoken : m.tokens.head? = token) :
    DoesAt m parsePositiveInt fun r es => r = parsed token ∧ es = [⟨.strtok none, token⟩] := by
  subst htoken
  intro r m' hexec
  obtain ⟨rfl, rfl⟩ := exec_parsePositiveInt.mp hexec
  exact ⟨_, rfl, rfl, rfl⟩

lemma doesAt_vata {a : VataAction} :
    DoesAt m (vata nvata a) fun ret es => es = [⟨.vata nvata a, ret⟩] :=
  doesAt_perform fun _ _ => rfl

/-- The dispatcher replies again where the command was bad. -/
lemma doesAt_orError {command : Method ℤ} {retmsg : String} {bad : List Event → Prop}
    (h : DoesAt m command (AsicReplies bad))
    (hbad : ∀ es msg, bad (es ++ [⟨.send msg, ()⟩]) ↔ bad es) :
    DoesAt m (orError command retmsg) fun _ es =>
      missed es = false ∧ OnceOrTwice (bad es) (sockets es) := by
  refine doesAt_bind h fun ret es t _ hcommand => ?_
  obtain ⟨hmissed, hreplies⟩ := hcommand
  split_ifs with hret
  · refine doesAt_send_pure ⟨by rw [missed_append, hmissed]; rfl, ?_⟩
    rw [OnceOrTwice, hbad]
    rcases hreplies with ⟨hb, -, msg, hmsg⟩ | ⟨hb, hdone⟩
    · exact .inl ⟨hb, msg, _, by rw [sockets_append, hmsg]; rfl⟩
    · have hnone : sockets es = [] := by
        rcases hdone with hdone | hfailed
        · exact absurd hdone.1 hret
        · exact hfailed.2
      exact .inr ⟨hb, _, by rw [sockets_append, hnone]; rfl⟩
  · refine doesAt_pure ?_
    rw [List.append_nil]
    rcases hreplies with ⟨-, hfailed, -⟩ | ⟨hb, hdone⟩
    · exact absurd hfailed hret
    · have hreply : Replies ret (sockets es) (missed es) :=
        hdone.resolve_right fun hfailed => hret hfailed.1
      exact ⟨hmissed, .inr ⟨hb, hreply.2.1⟩⟩

/-- The commands for one asic, if the argument is no number: they ask for `all`. -/
lemma doesAt_all {all : TriggerAction} (hneg : positiveInt arg < 0)
    (hall : ∀ ret : ℤ, ¬ DisableFailed ⟨.vata nvata (.trigger all), ret⟩) :
    DoesAt m (deref (some arg) >>= fun cmd =>
      if strncmp cmd (bytes "all") 3 then do
        let _ ← vata nvata (.trigger all)
        sendOk
        pure 0
      else do
        sendMsg "E: could not parse asic number"
        pure 1) fun ret es =>
      AsicReplies (fun _ => BadNumber arg) ret es ∧ ∀ e ∈ es, ¬ DisableFailed e := by
  rw [deref, Program.pure_eq, Program.done_bind]
  split_ifs with hword
  · refine doesAt_bind doesAt_vata fun ret es t _ hvata => ?_
    subst hvata
    have hgood : ¬ BadNumber arg := fun hbad => by simp [hbad.2] at hword
    refine doesAt_send_pure ⟨⟨rfl, .inr ⟨hgood, .inl ⟨rfl, ⟨_, rfl⟩, rfl⟩⟩⟩, ?_⟩
    simp only [List.cons_append, List.nil_append, List.mem_cons, List.not_mem_nil, or_false]
    rintro e (rfl | rfl)
    · exact hall ret
    · exact id
  · have hbad : BadNumber arg := ⟨hneg, Bool.eq_false_of_not_eq_true hword⟩
    refine doesAt_send_pure ⟨⟨rfl, .inl ⟨hbad, one_ne_zero, _, rfl⟩⟩, ?_⟩
    simp [DisableFailed]

lemma doesAt_triggerEnableAsic (harg : m.tokens.head? = some arg) :
    DoesAt m (triggerEnableAsic nvata) (AsicReplies fun _ => BadNumber arg) := by
  refine doesAt_bind (doesAt_parsePositiveInt harg) fun r es t _ hparse => ?_
  obtain ⟨rfl, rfl⟩ : r = (positiveInt arg, some arg) ∧ es = [⟨.strtok none, some arg⟩] := hparse
  dsimp only
  split_ifs with hpos
  · refine doesAt_bind doesAt_vata fun ret es t _ hvata => ?_
    subst hvata
    have hgood : ¬ BadNumber arg := fun hbad => absurd hpos (not_le.mpr hbad.1)
    split_ifs
    · exact doesAt_pure ⟨rfl, .inr ⟨hgood, .inr ⟨one_ne_zero, rfl⟩⟩⟩
    · exact doesAt_send_pure ⟨rfl, .inr ⟨hgood, .inl ⟨rfl, ⟨_, rfl⟩, rfl⟩⟩⟩
  · exact (doesAt_all (not_le.mp hpos) fun _ => id).mono fun _ _ h => h.1

lemma doesAt_triggerDisableAsic (harg : m.tokens.head? = some arg) :
    DoesAt m (triggerDisableAsic nvata)
      (AsicReplies fun es => BadNumber arg ∨ ∃ e ∈ es, DisableFailed e) := by
  refine doesAt_bind (doesAt_parsePositiveInt harg) fun r es t _ hparse => ?_
  obtain ⟨rfl, rfl⟩ : r = (positiveInt arg, some arg) ∧ es = [⟨.strtok none, some arg⟩] := hparse
  dsimp only
  split_ifs with hpos
  · refine doesAt_bind doesAt_vata fun ret es t _ hvata => ?_
    subst hvata
    have hgood : ¬ BadNumber arg := fun hbad => absurd hpos (not_le.mpr hbad.1)
    split_ifs with hret
    · have hfailed : DisableFailed
          ⟨.vata nvata (.trigger (.disableLocalAsic (positiveInt arg))), ret⟩ := hret
      refine doesAt_send_pure ⟨rfl, .inl ⟨.inr ⟨_, ?_, hfailed⟩, one_ne_zero, _, rfl⟩⟩
      simp
    · refine doesAt_send_pure ⟨rfl, .inr ⟨?_, .inl ⟨rfl, ⟨_, rfl⟩, rfl⟩⟩⟩
      simpa [hgood, DisableFailed] using hret
  · refine (doesAt_all (not_le.mp hpos) fun _ => id).mono fun ret es h => ?_
    obtain ⟨⟨hmissed, hreplies⟩, hok⟩ := h
    have hfailed : ¬ ∃ e ∈ [⟨.strtok none, some arg⟩] ++ es, DisableFailed e := by
      rintro ⟨e, he, hdisable⟩
      rcases List.mem_append.mp he with he | he
      · obtain rfl := List.mem_singleton.mp he
        exact hdisable
      · exact hok e he hdisable
    rcases hreplies with ⟨hbad, hreply⟩ | ⟨hgood, hreply⟩
    · exact ⟨hmissed, .inl ⟨.inl hbad, hreply⟩⟩
    · exact ⟨hmissed, .inr ⟨fun h => h.elim hgood hfailed, hreply⟩⟩

/-- Without an argument they do not return. -/
lemma doesAt_deref_none {f : Token → Method ℤ} {Q : ℤ → List Event → Prop} :
    DoesAt m (deref none >>= f) Q := by
  intro ret m' hexec
  obtain ⟨token, t, hderef, -⟩ := exec_bind.mp hexec
  obtain ⟨ans, -⟩ := exec_call.mp hderef
  exact ans.elim

lemma doesAt_missing {f : ℤ × Option Token → Method ℤ} {retmsg : String}
    {Q : ℤ → List Event → Prop} (harg : m.tokens.head? = none)
    (hf : ∀ t, DoesAt t (f (-1, none)) fun _ _ => False) :
    DoesAt m (orError (parsePositiveInt >>= f) retmsg) Q := by
  have hcommand : DoesAt m (parsePositiveInt >>= f) fun _ _ => False := by
    refine doesAt_bind (doesAt_parsePositiveInt harg) fun r es t _ hparse => ?_
    obtain ⟨rfl, rfl⟩ := hparse
    exact hf t
  exact doesAt_bind hcommand fun _ _ _ _ h => h.elim

/-- The commands for one asic, with the reply of the dispatcher. -/
lemma doesAt_vataCommand_asic {r : VataRequest}
    (hcommand : r.command = .triggerEnableAsic ∨ r.command = .triggerDisableAsic)
    (harg : m.tokens.head? = r.arg) :
    DoesAt m (vataCommand r.nvata (some r.command)) fun _ es =>
      missed es = false ∧ OnceOrTwice (RepliesTwice r es) (sockets es) := by
  obtain ⟨nvata, command, token⟩ := r
  rcases hcommand with hcommand | hcommand
  · subst hcommand
    cases token with
    | none => exact doesAt_missing harg fun _ => doesAt_deref_none
    | some arg =>
        refine (doesAt_orError (doesAt_triggerEnableAsic harg) fun _ _ => Iff.rfl).mono
          fun _ es h => ?_
        have htwice : RepliesTwice ⟨nvata, .triggerEnableAsic, some arg⟩ es ↔ BadNumber arg := by
          simp [RepliesTwice]
        rwa [htwice]
  · subst hcommand
    cases token with
    | none => exact doesAt_missing harg fun _ => doesAt_deref_none
    | some arg =>
        refine (doesAt_orError (doesAt_triggerDisableAsic harg) fun es msg => ?_).mono
          fun _ es h => ?_
        · simp [DisableFailed, or_and_right, exists_or]
        · have htwice : RepliesTwice ⟨nvata, .triggerDisableAsic, some arg⟩ es ↔
              BadNumber arg ∨ ∃ e ∈ es, DisableFailed e := by
            simp [RepliesTwice]
          rwa [htwice]

end Asic

/-! ## `process_req` -/

/-- What a handled request does, in four cases. -/
inductive Effect (nVata : ℕ) (request : List Byte) (calls : List Event) : Prop
  | halt (hhalt : IsHalt request) (hquiet : Quiet (sockets calls) (missed calls))
  | binary {nvata : ℕ} {arg : Option Token}
      (hrequest : vataRequest nVata request = some ⟨nvata, .setConfigBinary, arg⟩)
      (hexchange : Exchange nvata (sockets calls)) (hmissed : missed calls = false)
  | asic {r : VataRequest} (hrequest : vataRequest nVata request = some r)
      (hcommand : r.command = .triggerEnableAsic ∨ r.command = .triggerDisableAsic)
      (hmissed : missed calls = false)
      (hreplies : OnceOrTwice (RepliesTwice r calls) (sockets calls))
  | reply (hhalt : ¬ IsHalt request)
      (hcommand : ∀ r, vataRequest nVata request = some r → r.command ≠ .setConfigBinary ∧
        r.command ≠ .triggerEnableAsic ∧ r.command ≠ .triggerDisableAsic)
      (hreply : OneReply (sockets calls) (missed calls))

section Handle

variable {nVata : ℕ} {srv : LayerServer} {request : List Byte}

lemma repliesTwice_append {r : VataRequest} {found calls : List Event} (h : Found found) :
    RepliesTwice r (found ++ calls) ↔ RepliesTwice r calls := by
  have hfound : ∀ e ∈ found, ¬ DisableFailed e := by
    intro e he
    obtain ⟨s, t, rfl⟩ := h e he
    exact id
  have hiff : (∃ e ∈ found ++ calls, DisableFailed e) ↔ ∃ e ∈ calls, DisableFailed e := by
    constructor
    · rintro ⟨e, he, hfailed⟩
      rcases List.mem_append.mp he with he | he
      · exact absurd hfailed (hfound e he)
      · exact ⟨e, he, hfailed⟩
    · rintro ⟨e, he, hfailed⟩
      exact ⟨e, List.mem_append_right _ he, hfailed⟩
  rw [RepliesTwice, RepliesTwice, hiff]

lemma lookup_of_vataRequest {r : VataRequest} (h : vataRequest nVata request = some r) :
    lookup groupTable (ofBuffer request) = some .vata := by
  rw [vataRequest] at h
  by_contra hgroup
  rw [if_neg hgroup] at h
  exact absurd h (by simp)

/-- The request is no `vata` request. -/
lemma Effect.of_other (hhalt : ¬ IsHalt request)
    (hgroup : lookup groupTable (ofBuffer request) ≠ some .vata) {calls : List Event}
    (hreply : OneReply (sockets calls) (missed calls)) : Effect nVata request calls :=
  .reply hhalt (fun _ hr => absurd (lookup_of_vataRequest hr) hgroup) hreply

lemma doesAt_vata_request {m : Machine}
    (hgroup : lookup groupTable (ofBuffer request) = some .vata) :
    DoesAt m (processVataMsg nVata (ofBuffer request)) fun _ es => Effect nVata request es := by
  have hhalt : ¬ IsHalt request := by
    rw [IsHalt, hgroup]
    decide
  have hrequest : vataRequest nVata request = vataParts nVata (tokens (ofBuffer request)).tail :=
    if_pos hgroup
  intro ret m' hexec
  rcases exec_processVataMsg hexec with
    ⟨hparts, es, hlog, hreply⟩ | ⟨r, t, found, hparts, hlog, hfound, harg, hcommand⟩
  · refine ⟨es, hlog, .reply hhalt (fun r hr => ?_) hreply⟩
    rw [hrequest, hparts] at hr
    exact absurd hr (by simp)
  rw [← hrequest] at hparts
  -- What the command does comes after calls of which nothing is seen.
  suffices h : DoesAt t (vataCommand r.nvata (some r.command)) fun _ es =>
      Effect nVata request (found ++ es) by
    obtain ⟨es, hlog', heffect⟩ := h ret m' hcommand
    exact ⟨found ++ es, by rw [hlog', hlog, List.append_assoc], heffect⟩
  have hsockets : ∀ es, sockets (found ++ es) = sockets es := fun es => by
    rw [sockets_append, hfound.quiet.1, List.nil_append]
  have hmissed : ∀ es, missed (found ++ es) = missed es := fun es => by
    rw [missed_append, hfound.quiet.2, Bool.false_or]
  by_cases hbinary : r.command = .setConfigBinary
  · obtain ⟨nvata, command, arg⟩ := r
    subst hbinary
    refine (does_setConfigBinary t).mono fun _ es h => .binary hparts ?_ ?_
    · rw [hsockets]
      exact h.1
    · rw [hmissed]
      exact h.2
  by_cases hasic : r.command = .triggerEnableAsic ∨ r.command = .triggerDisableAsic
  · refine (doesAt_vataCommand_asic hasic harg).mono fun _ es h => ?_
    refine .asic hparts hasic (by rw [hmissed, h.1]) ?_
    rw [repliesTwice_append hfound, hsockets]
    exact h.2
  obtain ⟨henable, hdisable⟩ := not_or.mp hasic
  refine (oneReply_vataCommand ?_ ?_ ?_ t).mono fun _ es h => .reply hhalt (fun r' hr => ?_) ?_
  · simpa using hbinary
  · simpa using henable
  · simpa using hdisable
  · obtain rfl : r' = r := Option.some.inj (hr.symm.trans hparts)
    exact ⟨hbinary, henable, hdisable⟩
  · rwa [hsockets, hmissed]

/-- A dispatcher that sends one reply, and the fields of the server after it. -/
lemma doesAt_dispatcher {α β : Type} {m : Machine} {p : Method α} {g : α → β}
    (hhalt : ¬ IsHalt request) (hgroup : lookup groupTable (ofBuffer request) ≠ some .vata)
    (h : Does p fun _ => OneReply) :
    DoesAt m (p >>= fun a => pure (g a)) fun _ es => Effect nVata request es := by
  refine doesAt_bind (h m) fun a es t _ hreply => doesAt_pure ?_
  rw [List.append_nil]
  exact .of_other hhalt hgroup hreply

/-- **What a request does.**  Every run of `process_req` that returns is one of the four cases. -/
lemma doesAt_handle (m : Machine) :
    DoesAt m (handle nVata srv request) fun _ es => Effect nVata request es := by
  rw [handle]
  cases hgroup : lookup groupTable (ofBuffer request) with
  | none =>
      refine (oneReply_error (isError_ofList (by decide)) m).mono fun _ es hreply =>
        .of_other ?_ ?_ hreply
      · simp [IsHalt, hgroup]
      · simp [hgroup]
  | some group =>
      by_cases hvata : group = .vata
      · subst hvata
        refine doesAt_bind (doesAt_vata_request hgroup) fun ret es t _ heffect => doesAt_pure ?_
        rwa [List.append_nil]
      by_cases hhalt : group = .halt
      · subst hhalt
        refine doesAt_bind (?_ : DoesAt m _ fun _ es => Quiet (sockets es) (missed es))
          fun ret es t _ hquiet => doesAt_pure ?_
        · exact quiet_bind quiet_inprocSend
            (fun _ => quiet_bind (quiet_call fun _ => ⟨rfl, rfl⟩) fun _ => quiet_pure) m
        · rw [List.append_nil]
          exact .halt hgroup hquiet
      have hgroup' : lookup groupTable (ofBuffer request) ≠ some .vata := by simpa [hgroup]
      have hhalt' : ¬ IsHalt request := by simpa [IsHalt, hgroup]
      cases group with
      | emit =>
          exact doesAt_dispatcher hhalt' hgroup'
            (quiet_bind does_secondToken fun _ => oneReply_emitCommand _)
      | cal =>
          exact doesAt_dispatcher hhalt' hgroup'
            (quiet_bind does_secondToken fun _ => oneReply_calCommand _)
      | dac =>
          exact doesAt_dispatcher hhalt' hgroup'
            (quiet_bind does_secondToken fun _ => oneReply_dacCommand _)
      | sync =>
          exact doesAt_dispatcher hhalt' hgroup'
            (quiet_bind does_secondToken fun _ => oneReply_syncCommand _)
      | getNVata => exact (oneReply_send m).mono fun _ es hreply => .of_other hhalt' hgroup' hreply
      | vata => exact absurd rfl hvata
      | halt => exact absurd rfl hhalt

/-- The first call of `process_req` receives the request. -/
lemma effect_of_processReq {m m' : Machine} {r : ℤ × LayerServer} {calls : List Event}
    (hreq : Exec env (processReq nVata srv) m r m') (hlog : m'.log = m.log ++ calls) :
    ∃ request rest, calls = ⟨.recv .request, request⟩ :: rest ∧ Effect nVata request rest := by
  obtain ⟨request, t, hrecv, hhandle⟩ := exec_bind.mp hreq
  obtain ⟨-, rfl⟩ := exec_perform.mp hrecv
  obtain ⟨rest, hlog', heffect⟩ := doesAt_handle _ _ _ hhandle
  refine ⟨request, rest, ?_, heffect⟩
  have happend : m.log ++ calls = m.log ++ (⟨.recv .request, request⟩ :: rest) := by
    rw [← hlog, hlog']
    exact List.append_assoc _ _ _
  exact List.append_cancel_left happend

end Handle

/-! ## Runs on given calls -/

/-- The server before its first request. -/
def started : LayerServer := ⟨⟨false, false, false, 0, 0, 0⟩, false⟩

lemma env_first {m : Machine} {msg : List Byte} {word : Token} {ts : List Token}
    (h : tokens msg = word :: ts) :
    env (.strtok (some msg)) m (some word) ⟨ts, m.log ++ [⟨.strtok (some msg), some word⟩]⟩ := by
  refine ⟨?_, ?_⟩
  · show some word = (tokens msg).head?
    rw [h]
    rfl
  · show _ = (⟨(tokens msg).tail, _⟩ : Machine)
    rw [h]
    rfl

lemma env_next {word : Token} {ts : List Token} {log : List Event} :
    env (.strtok none) ⟨word :: ts, log⟩ (some word)
      ⟨ts, log ++ [⟨.strtok none, some word⟩]⟩ := ⟨rfl, rfl⟩

end LayerServer

end TrackerFpga.Server
