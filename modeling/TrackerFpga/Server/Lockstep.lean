import TrackerFpga.Server.Handled

/-!
# Request and reply

`LayerServer::run` handles one request after the other.  A handled request is in lockstep if one
message is sent for each that is received; `set-config-binary` may receive twice.  The requests
that are not in lockstep are those to which a command for one asic replies before it fails, so that
the dispatcher replies again.
-/

namespace TrackerFpga.Server

open ByteCodec CString Interaction

namespace LayerServer

/-- A request that was handled: the message, the value of `process_req`, and what it called after
the message was received. -/
structure Handled where
  request : List Byte
  ret : ℤ
  rest : List Event

/-- All the calls for a request. -/
def Handled.calls (h : Handled) : List Event := ⟨.recv .request, h.request⟩ :: h.rest

/-- `LayerServer::run`: the requests that it handles one after the other, up to any of them. -/
inductive Serves (nVata : ℕ) : LayerServer → Machine → List Handled → Prop
  | start (srv : LayerServer) (m : Machine) : Serves nVata srv m []
  | next {srv srv' : LayerServer} {m m' : Machine} {h : Handled} {hs : List Handled}
      (hreq : Exec env (processReq nVata srv) m (h.ret, srv') m')
      (hlog : m'.log = m.log ++ h.calls)
      (hreturn : h.ret < 0 ∨ h.ret = exitReqRecvCode → hs = [])
      (hrest : Serves nVata srv' m' hs) : Serves nVata srv m (h :: hs)

/-- One send for each receive. -/
def Lockstep (nVata : ℕ) (h : Handled) : Prop :=
  match vataRequest nVata h.request with
  | some ⟨nvata, .setConfigBinary, _⟩ =>
      ∃ s, sockets h.calls = .recv .request h.request :: s ∧ Exchange nvata s
  | _ => ∃ msg, sockets h.calls = [.recv .request h.request, .send msg]

/-- The request comes to a command that replies and fails. -/
def DoubleReply (nVata : ℕ) (h : Handled) : Prop :=
  ∃ r, vataRequest nVata h.request = some r ∧ RepliesTwice r h.rest

section Serves

variable {nVata : ℕ} {srv srv' : LayerServer} {m m' : Machine} {h : Handled} {hs : List Handled}

/-- What a run of the server does is what each request does. -/
lemma Serves.effect (hserves : Serves nVata srv m hs) :
    ∀ h ∈ hs, Effect nVata h.request h.rest := by
  induction hserves with
  | start => simp
  | next hreq hlog _ _ ih =>
      simp only [List.mem_cons, forall_eq_or_imp]
      obtain ⟨request, rest, hcalls, heffect⟩ := effect_of_processReq hreq hlog
      obtain ⟨hfirst, hrest⟩ := List.cons.inj hcalls
      have hrequest := eq_of_heq (Sigma.mk.inj hfirst).2
      rw [← hrest, ← hrequest] at heffect
      exact ⟨heffect, ih⟩

lemma not_doubleReply_of_halt (hhalt : IsHalt h.request) : ¬ DoubleReply nVata h := by
  rintro ⟨r, hr, -⟩
  have hgroup := lookup_of_vataRequest hr
  rw [show lookup groupTable (ofBuffer h.request) = some .halt from hhalt] at hgroup
  exact absurd hgroup (by decide)

/-- The calls of a request in lockstep, in front of which the message was received. -/
lemma lockstep_of_ne (hcommand : ∀ nvata arg,
    vataRequest nVata h.request ≠ some ⟨nvata, .setConfigBinary, arg⟩) :
    Lockstep nVata h ↔ ∃ msg, sockets h.rest = [.send msg] := by
  have hcalls : sockets h.calls = .recv .request h.request :: sockets h.rest := rfl
  rw [Lockstep]
  split
  · exact absurd ‹_› (hcommand _ _)
  · simp [hcalls]

lemma lockstep_iff_of_effect (heffect : Effect nVata h.request h.rest)
    (hhalt : ¬ IsHalt h.request) : Lockstep nVata h ↔ ¬ DoubleReply nVata h := by
  cases heffect with
  | halt hhalt' _ => exact absurd hhalt' hhalt
  | @binary nvata arg hrequest hexchange _ =>
      have hlockstep : Lockstep nVata h := by
        rw [Lockstep, hrequest]
        exact ⟨_, rfl, hexchange⟩
      refine iff_of_true hlockstep ?_
      rintro ⟨r, hr, htwice⟩
      obtain rfl := Option.some.inj (hrequest.symm.trans hr)
      simp [RepliesTwice] at htwice
  | @asic r hrequest hcommand _ hreplies =>
      have hne : ∀ nvata arg,
          vataRequest nVata h.request ≠ some ⟨nvata, .setConfigBinary, arg⟩ := by
        intro nvata arg hr
        obtain rfl := Option.some.inj (hrequest.symm.trans hr)
        simp at hcommand
      have hdouble : DoubleReply nVata h ↔ RepliesTwice r h.rest := by
        constructor
        · rintro ⟨r', hr, htwice⟩
          obtain rfl := Option.some.inj (hrequest.symm.trans hr)
          exact htwice
        · exact fun htwice => ⟨r, hrequest, htwice⟩
      rw [lockstep_of_ne hne, hdouble]
      rcases hreplies with ⟨htwice, msg, msg', hsockets⟩ | ⟨honce, hsockets⟩
      · refine iff_of_false ?_ (not_not.mpr htwice)
        rw [hsockets]
        simp
      · exact iff_of_true hsockets honce
  | reply _ hcommand hreply =>
      obtain ⟨msg, hsockets, -⟩ := hreply
      rw [lockstep_of_ne fun nvata arg hr => (hcommand _ hr).1 rfl]
      refine iff_of_true ⟨msg, hsockets⟩ ?_
      rintro ⟨r, hr, htwice⟩
      obtain ⟨-, henable, hdisable⟩ := hcommand r hr
      rcases htwice with htwice | htwice
      · exact henable htwice.1
      · exact hdisable htwice.1

/-- **Lockstep.** In every run of the server, each request other than `halt` is answered by one
send for each receive, if and only if no command for one asic has replied and failed: it could not
parse its argument, which was not `all` either, or the driver could not disable the asic. -/
theorem lockstep_iff (hserves : Serves nVata srv m hs) :
    (∀ h ∈ hs, ¬ IsHalt h.request → Lockstep nVata h) ↔ ∀ h ∈ hs, ¬ DoubleReply nVata h := by
  constructor
  · intro hlockstep h hmem hdouble
    by_cases hhalt : IsHalt h.request
    · exact not_doubleReply_of_halt hhalt hdouble
    · exact (lockstep_iff_of_effect (hserves.effect h hmem) hhalt).mp (hlockstep h hmem hhalt)
        hdouble
  · intro hsingle h hmem hhalt
    exact (lockstep_iff_of_effect (hserves.effect h hmem) hhalt).mpr (hsingle h hmem)

end Serves

/-- `trigger-enable-asic` with an argument that is no number. -/
def asicX : Handled where
  request := bytes "vata 0 trigger-enable-asic x"
  ret := 1
  rest :=
    [⟨.strtok (some (bytes "vata 0 trigger-enable-asic x")), some (bytes "vata")⟩,
      ⟨.strtok none, some (bytes "0")⟩, ⟨.strtok none, some (bytes "trigger-enable-asic")⟩,
      ⟨.strtok none, some (bytes "x")⟩,
      ⟨.send (bytes "E: could not parse asic number" ++ [0#8]), ()⟩,
      ⟨.send (bytes "ERROR: could not parse trigger-enable-asic command" ++ [0#8]), ()⟩]

lemma serves_asicX : Serves 12 started ⟨[], []⟩ [asicX] := by
  have htokens : tokens asicX.request =
      [bytes "vata", bytes "0", bytes "trigger-enable-asic", bytes "x"] := by decide
  have hpath : Path env ⟨[], []⟩ asicX.calls ⟨[], asicX.calls⟩ :=
    .cons ⟨trivial, rfl⟩ <| .cons (env_first htokens) <| .cons env_next <| .cons env_next <|
      .cons env_next <| .cons ⟨trivial, rfl⟩ <| .cons ⟨trivial, rfl⟩ <| .nil _
  have hplay : (processReq 12 started).play asicX.calls = some (1, started) := by decide +kernel
  exact .next (exec_of_play hplay hpath) rfl (fun _ => rfl) (.start _ _)

/-- Both the command and the dispatcher reply to it. -/
theorem asicX_not_lockstep :
    ¬ ∀ (nVata : ℕ) (srv : LayerServer) (m : Machine) (hs : List Handled), Serves nVata srv m hs →
      ∀ h ∈ hs, ¬ IsHalt h.request → Lockstep nVata h := by
  intro hlockstep
  have hasic := hlockstep 12 started ⟨[], []⟩ [asicX] serves_asicX asicX List.mem_cons_self
    (by decide)
  have hrequest : vataRequest 12 asicX.request =
      some ⟨0, .triggerEnableAsic, some (bytes "x")⟩ := by decide
  rw [Lockstep, hrequest] at hasic
  obtain ⟨msg, hsockets⟩ := hasic
  have hlength : (sockets asicX.calls).length = 2 := by rw [hsockets]; rfl
  exact absurd hlength (by decide)

/-- `trigger-disable-asic` for an asic that the driver disables. -/
def asic1 : Handled where
  request := bytes "vata 0 trigger-disable-asic 1"
  ret := 0
  rest :=
    [⟨.strtok (some (bytes "vata 0 trigger-disable-asic 1")), some (bytes "vata")⟩,
      ⟨.strtok none, some (bytes "0")⟩, ⟨.strtok none, some (bytes "trigger-disable-asic")⟩,
      ⟨.strtok none, some (bytes "1")⟩, ⟨.vata 0 (.trigger (.disableLocalAsic 1)), (0 : ℤ)⟩,
      ⟨.send (bytes "ok"), ()⟩]

lemma serves_asic1 : Serves 12 started ⟨[], []⟩ [asic1] := by
  have htokens : tokens asic1.request =
      [bytes "vata", bytes "0", bytes "trigger-disable-asic", bytes "1"] := by decide
  have hpath : Path env ⟨[], []⟩ asic1.calls ⟨[], asic1.calls⟩ :=
    .cons ⟨trivial, rfl⟩ <| .cons (env_first htokens) <| .cons env_next <| .cons env_next <|
      .cons env_next <| .cons ⟨trivial, rfl⟩ <| .cons ⟨trivial, rfl⟩ <| .nil _
  have hplay : (processReq 12 started).play asic1.calls = some (0, started) := by decide +kernel
  exact .next (exec_of_play hplay hpath) rfl (fun _ => rfl) (.start _ _)

theorem asic1_lockstep : Lockstep 12 asic1 := by
  refine (lockstep_iff serves_asic1).mpr ?_ asic1 List.mem_cons_self (by decide)
  rintro h hmem ⟨r, hr, htwice⟩
  obtain rfl := List.mem_singleton.mp hmem
  have hrequest : vataRequest 12 asic1.request =
      some ⟨0, .triggerDisableAsic, some (bytes "1")⟩ := by decide
  obtain rfl := Option.some.inj (hrequest.symm.trans hr)
  rcases htwice with ⟨hcommand, -⟩ | ⟨-, ⟨arg, harg, hbad⟩ | ⟨e, he, hfailed⟩⟩
  · exact absurd hcommand (by decide)
  · obtain rfl := Option.some.inj harg
    exact absurd hbad.1 (by decide)
  · simp only [asic1, List.mem_cons, List.not_mem_nil, or_false] at he
    rcases he with rfl | rfl | rfl | rfl | rfl | rfl <;> simp [DisableFailed] at hfailed

end LayerServer

end TrackerFpga.Server
