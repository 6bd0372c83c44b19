import TrackerFpga.Server.Effects
import TrackerFpga.Server.Instrument

/-!
# Sessions

What `LayerServer::run` does with one request after the other, in a world (`Process.Step`), is what
an instrument does with them (`session_refines`): every reply is the one of the instrument, whatever
was requested before.

The registers and the fields of the server are what the actions of a request make of them, and the
actions of a form do to them what the form does to the instrument (`Shows.perform`).
-/

namespace TrackerFpga.Server

open AxiLite ByteCodec CString Interaction Labelled Mapped Vata

/-! ## What an instrument shows -/

/-- The registers of the calibrator hold the settings. -/
structure Loaded (settings : CalCtrl) (m : ℕ → BitVec 32) : Prop where
  enable : m 0 = settings.enable
  width : m 2 = settings.calPulseWidth
  delay : m 3 = settings.vataTriggerDelay
  repetition : m 5 = settings.repetitionDelay

/-- The instrument is what the server and the registers show. -/
structure Shows (i : Instrument) (srv : LayerServer) (c : Cores) : Prop where
  emitting : srv.dataEmitterRunning = i.emitting
  settings : srv.calctrl = i.settings
  loaded : ∀ s ∈ i.loaded, Loaded s c.cal
  train : (c.cal 4).toNat = i.train
  pulsing : c.cal 1 = if i.pulsing then 1#32 else 0#32
  delay : (c.dac 1).toNat = i.delay
  counts : (c.dac 0).toNat = i.counts
  disabled : c.sync 3 = Instrument.mask i.disabled
  hits : c.sync 4 = if i.hits then 1#32 else 0#32

section Shows

open LayerServer

variable {nVata : ℕ} {i : Instrument} {srv : LayerServer} {c : Cores} {d : Devices} {f : Form}
  {n : ℤ}

/-- The mask of the hits that are disabled. -/
lemma putBit_mask {asics : Finset ℕ} (ena : Bool) (k : ℕ) :
    Ctrl.putBit (!ena) k (Instrument.mask asics) =
      Instrument.mask (if ena then asics.erase k else insert k asics) := by
  refine BitVec.eq_of_getLsbD_eq fun j hj => ?_
  rw [Ctrl.getLsbD_putBit hj, Instrument.getLsbD_mask hj, Instrument.getLsbD_mask hj]
  by_cases hkj : k = j
  · subst hkj
    cases ena <;> simp
  · have hjk : j ≠ k := fun h => hkj h.symm
    cases ena <;> simp [hkj, hjk]

lemma Shows.isGlobalHitEnabled (h : Shows i srv c) :
    (Sync.SyncCtrl.isGlobalHitEnabled.eval registers c.sync).1 = i.hits := by
  simp only [Sync.SyncCtrl.isGlobalHitEnabled, eval_bind, eval_read, h.hits]
  cases i.hits <;> rfl

/-- A form is answered as the instrument answers it. -/
lemma Shows.replies (h : Shows i srv d.cores) : f.replies srv d = i.reply d.counter f := by
  cases f with
  | number c n => rfl
  | plain p =>
      cases p with
      | emit c =>
          cases c <;>
            simp only [Form.replies, PlainCommand.replies, Instrument.reply, h.emitting]
      | dacQuery q =>
          cases q with
          | getDelay => exact congrArg (fun v => [encodeLE 4 v]) h.delay
          | getInput => exact congrArg (fun v => [encodeLE 4 v]) h.counts
      | getGlobalHitEna =>
          have hhits : (Sync.SyncCtrl.isGlobalHitEnabled.eval registers d.sync).1 = i.hits :=
            h.isGlobalHitEnabled
          simp only [Form.replies, PlainCommand.replies, Instrument.reply, hhits]
      | getAsicHitDisableMask =>
          exact congrArg (fun v : BitVec 32 => [encodeLE 4 v.toNat]) h.disabled
      | _ => rfl

/-- **The actions of a form** do to the server and the registers what the form does to the
instrument. -/
lemma Shows.perform (h : Shows i srv c) (hf : ∀ c n, f = .number c n → c.InRange nVata n) :
    Shows (i.perform f) ((f.acts srv).foldl LayerServer.after srv)
      ((f.acts srv).foldl (Cores.after nVata) c) := by
  obtain ⟨calctrl, running⟩ := srv
  have hloaded : i.settings = calctrl := h.settings.symm
  cases f with
  | plain p =>
      cases p with
      | emit command =>
          cases command with
          | status => exact h
          | start => cases running <;> exact { h with emitting := rfl }
          | stop => cases running <;> exact { h with emitting := rfl }
      | startInf =>
          refine { h with loaded := ?_, train := rfl, pulsing := rfl }
          rintro s ⟨⟩
          rw [hloaded]
          constructor <;> rfl
      | stopInf =>
          exact { h with
            loaded := fun s hs => { (h.loaded s hs) with }
            pulsing := rfl }
      | globalHitEnable => exact { h with hits := rfl }
      | globalHitDisable => exact { h with hits := rfl }
      | halt => exact { h with emitting := rfl }
      | _ => exact { h with }
  | number command n =>
      have hrange := hf command n rfl
      cases command with
      | flag f =>
          have hset : CalFlag.set calctrl f (n = 1) = f.set i.settings (n = 1) := by rw [hloaded]
          refine { h with settings := hset, loaded := ?_ }
          rintro s ⟨⟩
          rw [← hset]
          constructor <;> rfl
      | setting f =>
          have hset : CalNumber.set calctrl f (BitVec.ofInt 32 n) =
              f.set i.settings (BitVec.ofInt 32 n) := by rw [hloaded]
          refine { h with settings := hset, loaded := ?_ }
          rintro s ⟨⟩
          rw [← hset]
          constructor <;> rfl
      | nPulses =>
          have hint : 1 ≤ n ∧ n ≤ 2147483647 := hrange
          have hn := toNat_ofInt (n := n) (by omega)
          refine { h with loaded := ?_, train := ?_, pulsing := rfl }
          · rintro s ⟨⟩
            rw [hloaded]
            constructor <;> rfl
          · show (BitVec.ofInt 32 n).toNat = n.toNat
            omega
      | setDelay =>
          have hint : 0 ≤ n ∧ n ≤ 65535 := hrange
          have hn := toNat_ofInt (n := n) (by omega)
          have hle : ¬ Dac.DacCtrl.maxDelay < BitVec.ofInt 32 n :=
            (ofInt_le_iff (m := 65535) (by decide) (by omega)).mpr hint
          let c' := Cores.after nVata c (.dac (.setDelay (BitVec.ofInt 32 n)))
          have hdac : c'.dac 0 = c.dac 0 ∧ c'.dac 1 = BitVec.ofInt 32 n := by
            simp [c', Cores.after, Dac.DacCtrl.Call.method, Dac.DacCtrl.setDelay, hle]
          refine { h with delay := ?_, counts := ?_ }
          · show (c'.dac 1).toNat = n.toNat
            rw [hdac.2]
            omega
          · show (c'.dac 0).toNat = i.counts
            rw [hdac.1, h.counts]
      | setCounts side choice =>
          have hint : 0 ≤ n ∧ n ≤ 4095 := hrange
          have hn := toNat_ofInt (n := n) (by omega)
          have hle : ¬ Dac.DacCtrl.maxInput < BitVec.ofInt 32 n :=
            (ofInt_le_iff (m := 4095) (by decide) (by omega)).mpr hint
          let c' := Cores.after nVata c (.dac (.setCounts side choice (BitVec.ofInt 32 n)))
          have hdac : c'.dac 0 = BitVec.ofInt 32 n ∧ c'.dac 1 = c.dac 1 := by
            simp [c', Cores.after, Dac.DacCtrl.Call.method, Dac.DacCtrl.setCounts, hle]
          refine { h with delay := ?_, counts := ?_ }
          · show (c'.dac 1).toNat = i.delay
            rw [hdac.2, h.delay]
          · show (c'.dac 0).toNat = n.toNat
            rw [hdac.1]
            omega
      | asicHit ena =>
          have hint : 0 ≤ n ∧ n ≤ nVata - 1 := hrange
          have hsync : (Cores.after nVata c (.sync (asicHitAction ena n))).sync =
              Function.update c.sync 3 (Ctrl.putBit (!ena) n.toNat (c.sync 3)) := by
            rw [Cores.after, asicHit_eval, if_pos (by omega)]
          have hmask : Ctrl.putBit (!ena) n.toNat (c.sync 3) = Instrument.mask
              (if ena then i.disabled.erase n.toNat else insert n.toNat i.disabled) := by
            rw [h.disabled, putBit_mask]
          cases ena with
          | true =>
              refine { h with disabled := ?_, hits := ?_ }
              · exact (congrFun hsync 3).trans hmask
              · exact (congrFun hsync 4).trans h.hits
          | false =>
              refine { h with disabled := ?_, hits := ?_ }
              · exact (congrFun hsync 3).trans hmask
              · exact (congrFun hsync 4).trans h.hits

end Shows

/-! ## Sessions -/

/-- The process of the server, between two requests. -/
structure Process where
  srv : LayerServer
  devices : Devices
  exited : Bool

/-- One round of the loop of `LayerServer::run`: a request was received and is handled. -/
def Process.Step (nVata : ℕ) (p : Process) (x : Served) (p' : Process) : Prop :=
  p.exited = false ∧ ∃ (w w' : World) (ret : ℤ),
    w.devices = { p.devices with counter := x.counter } ∧
    (LayerServer.handle nVata p.srv x.request).evalPartial (world nVata x.others) w =
      some ((ret, p'.srv), w') ∧
    sockets w'.log = sockets w.log ++ x.events ∧
    p'.devices = w'.devices ∧ p'.exited = decide (ret < 0 ∨ ret = exitReqRecvCode)

/-- The instrument is what the process shows. -/
structure Process.ShownBy (p : Process) (i : Instrument) : Prop
    extends Shows i p.srv p.devices.cores where
  halted : p.exited = i.halted

section Session

open LayerServer

variable {nVata : ℕ} {i : Instrument} {p p' : Process} {x : Served} {xs : List Served}
  {srv srv' : LayerServer} {others : (o : Call) → Option o.Answer} {w w' : World} {ret : ℤ}
  {request : List Byte}

/-- A request of the four groups that is handled has a second token. -/
lemma two_tokens_of_evalPartial {g : Group} (hg : g ∈ grammarGroups)
    (hword : g.word <+: ofBuffer request)
    (h : (handle nVata srv request).evalPartial (world nVata others) w = some ((ret, srv'), w')) :
    2 ≤ (tokens (ofBuffer request)).length := by
  have hsecond : ∀ {α β : Type} {f : Token → Method α} {g : α → Method β} {b : β} {w'' : World},
      (secondToken (ofBuffer request) >>= f >>= g).evalPartial (world nVata others) w =
        some (b, w'') → 2 ≤ (tokens (ofBuffer request)).length := by
    intro α β f g b w'' heval
    rw [Program.bind_assoc] at heval
    obtain ⟨cmd, t, htoken, -⟩ := exec_bind.mp (exec_of_world heval)
    obtain ⟨hcmd, -⟩ := exec_secondToken htoken
    by_contra hlt
    rw [tail_eq_nil_iff.mpr (not_le.mp hlt)] at hcmd
    exact absurd hcmd (by simp)
  rw [handle, (lookup_group g).mpr hword] at h
  cases g with
  | emit => exact hsecond h
  | cal => exact hsecond h
  | dac => exact hsecond h
  | sync => exact hsecond h
  | vata => exact absurd hg (by decide)
  | getNVata => exact absurd hg (by decide)
  | halt => exact absurd hg (by decide)

/-- The loop ends with a `halt` and with nothing else. -/
lemma exits_iff
    (h : (handle nVata srv request).evalPartial (world nVata others) w = some ((ret, srv'), w')) :
    (ret < 0 ∨ ret = exitReqRecvCode) ↔ IsHalt request := by
  by_cases hhalt : IsHalt request
  · obtain ⟨-, hret⟩ := (exits_handle hhalt).of_evalPartial h
    exact iff_of_true (.inr hret) hhalt
  · obtain ⟨-, hlow, hhigh⟩ := (status_handle hhalt).of_evalPartial h
    have hcode : exitReqRecvCode = 1785 := rfl
    refine iff_of_false ?_ hhalt
    dsimp only at hlow hhigh
    omega

lemma plainRequest_of_halt (hhalt : IsHalt request) : plainRequest request = some .halt := by
  rw [plainRequest, show lookup groupTable (ofBuffer request) = some .halt from hhalt]

/-- A `halt` is no other form. -/
lemma isHalt_iff {f : Form} (hf : Resembles nVata request f) :
    IsHalt request ↔ f = .plain .halt := by
  constructor
  · exact fun hhalt =>
      Instrument.resembles_unique hf (plainRequest_iff.mp (plainRequest_of_halt hhalt))
  · rintro rfl
    exact (lookup_group .halt).mpr (begins_cons.mp hf.1).1

/-- **One request.** -/
lemma step_refines (hi : p.ShownBy i) (hstep : p.Step nVata x p') :
    ∃ i', i.Step nVata x i' ∧ p'.ShownBy i' := by
  obtain ⟨hgo, w, w', ret, hdevices, heval, hsent, hafter, hexit⟩ := hstep
  obtain ⟨es, hlog, hcores, hserver⟩ := actions_of_evalPartial heval
  have hgo' : i.halted = false := hi.halted ▸ hgo
  have hshows : Shows i p.srv w.devices.cores := by
    rw [hdevices]
    exact hi.toShows
  have hsrv : p'.srv = (actions es).foldl LayerServer.after p.srv := hserver leaves_handle
  rw [← hafter] at hcores
  by_cases hform : ∃ f, Resembles nVata x.request f
  · obtain ⟨f, hf⟩ := hform
    obtain ⟨r, d, w₁, heval₁, hsent₁, hacts, -⟩ : ∃ r d,
        Ends nVata x.others (handle nVata p.srv x.request) w r (f.replies p.srv w.devices)
          (f.acts p.srv) d := ends_form hf
    obtain ⟨rfl, rfl⟩ := Prod.mk.inj (Option.some.inj (heval.symm.trans heval₁))
    rw [hlog, actions_append] at hacts
    replace hacts := List.append_cancel_left hacts
    have hnumber : ∀ c n, f = .number c n → c.InRange nVata n := by
      rintro c n rfl
      exact hf.2.1
    refine ⟨i.perform f, .form hgo' hf ?_, ?_, ?_⟩
    · have hcounter : w.devices.counter = x.counter := by rw [hdevices]
      rw [List.append_cancel_left (hsent.symm.trans hsent₁), hshows.replies, hcounter]
    · rw [hsrv, hcores, hacts]
      exact hshows.perform hnumber
    · rw [hexit, i.perform_halted, hgo', Bool.false_or]
      exact decide_eq_decide.mpr ((exits_iff heval).trans (isHalt_iff hf))
  have hnot : ¬ IsHalt x.request := fun hhalt =>
    hform ⟨.plain .halt, plainRequest_iff.mp (plainRequest_of_halt hhalt)⟩
  have hexit' : p'.exited = i.halted := by
    rw [hexit, hgo']
    exact decide_eq_false fun hex => hnot ((exits_iff heval).mp hex)
  have hnone : actions es = [] → p'.ShownBy i := by
    intro hacts
    refine ⟨?_, hexit'⟩
    rw [hsrv, hcores, hacts]
    exact hshows
  by_cases hother : OtherGroup x.request
  · refine ⟨i, .other hgo' hother, hnone ?_⟩
    have hacts := actions_of_otherGroup hother (exec_of_world heval)
    rw [hlog, actions_append] at hacts
    exact List.append_right_eq_self.mp hacts
  · obtain ⟨r, msg, ⟨w₁, heval₁, hsent₁, hacts, -⟩, herror⟩ : ∃ r msg,
        Ends nVata x.others (handle nVata p.srv x.request) w r [msg] [] w.devices ∧ IsError msg :=
      ends_error (fun f hf => hform ⟨f, hf⟩) hother
        fun g hg hword => two_tokens_of_evalPartial hg hword heval
    obtain ⟨rfl, rfl⟩ := Prod.mk.inj (Option.some.inj (heval.symm.trans heval₁))
    rw [hlog, actions_append] at hacts
    exact ⟨i, .refused hgo' (fun f hf => hform ⟨f, hf⟩) hother
      (List.append_cancel_left (hsent.symm.trans hsent₁)) herror,
        hnone (List.append_cancel_left hacts)⟩

/-- Every session is one of the instrument. -/
lemma trace_refines (hi : p.ShownBy i) (h : Trace (Process.Step nVata) p xs p') :
    ∃ i', Trace (Instrument.Step nVata) i xs i' ∧ p'.ShownBy i' := by
  have hsim : ∀ (i : Instrument) (p : Process) (x : Served) (p' : Process), p.ShownBy i →
      p.Step nVata x p' → ∃ i', i.Step nVata x i' ∧ p'.ShownBy i' :=
    fun _ _ _ _ hi hstep => step_refines hi hstep
  exact h.simulates hsim hi

/-- Every form is served. -/
lemma step_of_form {f : Form} (hi : p.ShownBy i) (hgo : i.halted = false)
    (hf : Resembles nVata x.request f) (hevents : x.events = (i.reply x.counter f).map .send) :
    ∃ p', p.Step nVata x p' := by
  let w : World := { World.start with devices := { p.devices with counter := x.counter } }
  obtain ⟨⟨ret, srv'⟩, d, w', heval, hsent, -, -⟩ : ∃ r d,
      Ends nVata x.others (handle nVata p.srv x.request) w r (f.replies p.srv w.devices)
        (f.acts p.srv) d := ends_form hf
  have hshows : Shows i p.srv w.devices.cores := hi.toShows
  refine ⟨⟨srv', w'.devices, decide (ret < 0 ∨ ret = exitReqRecvCode)⟩, hi.halted.trans hgo, w, w',
    ret, rfl, heval, ?_, rfl, rfl⟩
  rw [hsent, hevents, hshows.replies]

/-- A session of forms of the instrument is one of the server. -/
lemma trace_of_forms {i' : Instrument} (hi : p.ShownBy i)
    (hforms : ∀ x ∈ xs, ∃ f, Resembles nVata x.request f)
    (h : Trace (Instrument.Step nVata) i xs i') : ∃ p', Trace (Process.Step nVata) p xs p' := by
  induction h generalizing p with
  | nil i => exact ⟨p, .nil p⟩
  | @cons i i₁ i' x xs hstep hrest ih =>
      obtain ⟨f, hf⟩ := hforms x List.mem_cons_self
      obtain ⟨hgo, hevents, rfl⟩ := Instrument.step_of_resembles hf hstep
      obtain ⟨p₁, hserved⟩ := step_of_form hi hgo hf hevents
      obtain ⟨i₂, hstep', hi'⟩ := step_refines hi hserved
      obtain ⟨-, -, rfl⟩ := Instrument.step_of_resembles hf hstep'
      obtain ⟨p', hrest'⟩ := ih hi' fun x hx => hforms x (List.mem_cons_of_mem _ hx)
      exact ⟨p', .cons hserved hrest'⟩

end Session

/-! ## From the start -/

section Start

open LayerServer

variable {nVata : ℕ} {p' : Process} {xs : List Served}

/-- The registers of the devices after a reset. -/
def Devices.reset : Devices where
  cal := held Cal.Core.Regs.reset.file.slvReg
  dac := held Dac.Core.slvRegReset
  sync := held Sync.Core.Regs.reset.file.slvReg
  counter := 0#64
  hold _ := 0#32

/-- The process before the first request. -/
def Process.start : Process where
  srv := .constructed
  devices := .reset
  exited := false

lemma shownBy_start : Process.start.ShownBy .start where
  emitting := rfl
  settings := rfl
  loaded := by rintro s ⟨⟩
  train := rfl
  pulsing := rfl
  delay := rfl
  counts := rfl
  disabled := by decide
  hits := rfl
  halted := rfl

/-- **The server is the instrument.**  In every session, whatever the requests are, they are
answered as the instrument answers them; and every session of forms with the instrument is one with
the server. -/
theorem session_refines (nVata : ℕ) (xs : List Served) :
    (∀ p', Trace (Process.Step nVata) .start xs p' →
      ∃ i', Trace (Instrument.Step nVata) .start xs i' ∧ p'.ShownBy i') ∧
    ((∀ x ∈ xs, ∃ f, Resembles nVata x.request f) →
      (∃ i', Trace (Instrument.Step nVata) .start xs i') →
        ∃ p', Trace (Process.Step nVata) .start xs p') :=
  ⟨fun _ => trace_refines shownBy_start,
    fun hforms ⟨_, h⟩ => trace_of_forms shownBy_start hforms h⟩

/-- **The calibrator has the settings of the server**, after every session in which it was given
any. -/
theorem calibrator_loaded (h : Trace (Process.Step nVata) .start xs p')
    (hx : ∃ x ∈ xs, ∃ f, Resembles nVata x.request f ∧ f.Loads) :
    Loaded p'.srv.calctrl p'.devices.cal := by
  obtain ⟨i', htrace, hi⟩ := trace_refines shownBy_start h
  rw [hi.settings]
  exact hi.loaded _ (Instrument.given_of_trace htrace hx)

/-- A request that is answered by `ok`. -/
def answeredOk (request : List Byte) : Served where
  request := request
  counter := 0#64
  others _ := none
  events := [.send (bytes "ok" ++ [0#8])]

/-- A request for pulses of 300 cycles. -/
def pulseWidth300 : Served := answeredOk (bytes "cal pulse-width 300")

lemma pulseWidth300_resembles :
    Resembles 12 pulseWidth300.request (.number (.setting .pulseWidth) 300) :=
  resembles_number_iff.mpr ⟨bytes "300", by decide, by decide, by decide⟩

lemma emitStart_resembles : Resembles 12 (bytes "emit start") (.plain (.emit .start)) :=
  plainRequest_iff.mp (by decide)

lemma setDelay100_resembles : Resembles 12 (bytes "dac set-delay 100") (.number .setDelay 100) :=
  resembles_number_iff.mpr ⟨bytes "100", by decide, by decide, by decide⟩

/-- The emitter is started, the width of the pulses is set, and then a delay of the DACs. -/
def threeRequests : List Served :=
  [answeredOk (bytes "emit start"), pulseWidth300, answeredOk (bytes "dac set-delay 100")]

lemma threeRequests_forms : ∀ x ∈ threeRequests, ∃ f, Resembles 12 x.request f := by
  simp only [threeRequests, List.forall_mem_cons, List.not_mem_nil, false_implies, implies_true,
    and_true]
  exact ⟨⟨_, emitStart_resembles⟩, ⟨_, pulseWidth300_resembles⟩, ⟨_, setDelay100_resembles⟩⟩

/-- After them the calibrator has the settings of the server. -/
theorem threeRequests_loaded : ∃ p', Trace (Process.Step 12) .start threeRequests p' ∧
    Loaded p'.srv.calctrl p'.devices.cal := by
  have hinstrument : Trace (Instrument.Step 12) .start threeRequests _ :=
    .cons (.form rfl emitStart_resembles rfl) (.cons (.form rfl pulseWidth300_resembles rfl)
      (.cons (.form rfl setDelay100_resembles rfl) (.nil _)))
  obtain ⟨p', htrace⟩ := trace_of_forms shownBy_start threeRequests_forms hinstrument
  exact ⟨p', htrace, calibrator_loaded htrace
    ⟨_, List.mem_cons_of_mem _ List.mem_cons_self, _, pulseWidth300_resembles, trivial⟩⟩

end Start

end TrackerFpga.Server
