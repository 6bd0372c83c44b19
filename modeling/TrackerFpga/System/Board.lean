import TrackerFpga.Dac.LastCounts
import TrackerFpga.Tools.Clients
import TrackerFpga.Vata.HoldDelay

/-!
# The server and the tools on the cores

A `Board` has a run of every core that the server and the tools drive.  Each core has its own clock,
so a moment is a cycle of each.  A call of a driver is a run of its program on the bus of its core,
and meanwhile nothing is written to the others (`Board.Drives`); what the methods of `VataCtrl` do
that are not about the hold delay is left open, but for its register.

In every session on a board from reset, the replies of the server, what the tools print and their
return codes are those of one instrument, and the registers of the cores hold what it shows
(`board_refines`).
-/

namespace TrackerFpga.System

open AxiLite ByteCodec CString Interaction Labelled Mapped Server Server.LayerServer Tools Vata

/-! ## Boards -/

/-- The cores that the drivers are about. -/
inductive Device
  | cal
  | dac
  | sync
  | vata (n : ℕ)
  deriving DecidableEq

/-- A run of each core. -/
structure Board where
  cal : Cal.Core.Run
  dac : Dac.Core.Run
  sync : Sync.Core.Run
  vata : ℕ → Vata.Core.Run

/-- A cycle of each core. -/
abbrev Moment := Device → ℕ

namespace Board

variable (b : Board)

/-- All runs start when the reset is released. -/
structure FromReset : Prop where
  cal : b.cal.FromReset
  dac : b.dac.FromReset
  sync : b.sync.FromReset
  vata : ∀ n, (b.vata n).FromReset

/-- The bus of a core. -/
def bus : Device → Bus
  | .cal => b.cal.bus
  | .dac => b.dac.bus
  | .sync => b.sync.bus
  | .vata n => (b.vata n).bus

/-- Nothing is written to a core; to that of an ASIC, nothing that is its hold delay. -/
def Kept : Device → ℕ → ℕ → Prop
  | .cal, t, t' => b.cal.bus.NoWrites t t'
  | .dac, t, t' => b.dac.bus.NoWrites t t'
  | .sync, t, t' => b.sync.bus.NoWrites t t'
  | .vata n, t, t' => (b.vata n).KeepsHold t t'

/-- A driver runs on the bus of its core, and the other cores are kept. -/
structure Drives {α : Type} (dev : Device) (p : Driver α) (t : Moment) (a : α) (t' : Moment) :
    Prop where
  runs : Exec (b.bus dev).env p (t dev) a (t' dev)
  others : ∀ dev', dev' ≠ dev → t dev' ≤ t' dev' ∧ b.Kept dev' (t dev') (t' dev')

/-- The devices of the server at a moment. -/
def devices (counter : BitVec 64) (t : Moment) : Devices where
  cal := held (b.cal.slvReg (t .cal))
  dac := held (b.dac.slvReg (t .dac))
  sync := held (b.sync.regs (t .sync)).file.slvReg
  counter := counter
  hold n := (b.vata n).holdDelay (t (.vata n))

/-- What the registers of the devices hold, by their numbers. -/
def cores (t : Moment) : Cores where
  cal := held (b.cal.slvReg (t .cal))
  dac := held (b.dac.slvReg (t .dac))
  sync := held (b.sync.regs (t .sync)).file.slvReg

/-- What a call of the server is on the board.  The calls that are not about its cores are answered
as they were in the request `x`. -/
def Does (o : WordOrder) (nVata : ℕ) (x : Served) :
    (c : Call) → List Token → Moment → c.Answer → Moment → Prop
  | .cal a, _, t, ret, t' => b.Drives .cal a.method t ret t'
  | .dac a, _, t, ret, t' => b.Drives .dac a.method t ret t'
  | .dacQuery q, _, t, v, t' => b.Drives .dac q.method t v t'
  | .sync a, _, t, ret, t' => b.Drives .sync (a.method nVata) t ret t'
  | .syncCounter, _, t, v, t' => b.Drives .sync (Sync.SyncCtrl.getCounter o) t v t' ∧ v = x.counter
  | .isGlobalHitEnabled, _, t, v, t' => b.Drives .sync Sync.SyncCtrl.isGlobalHitEnabled t v t'
  | .asicHitDisableMask, _, t, v, t' => b.Drives .sync Sync.SyncCtrl.getAsicHitDisableMask t v t'
  | .vata n (.setHoldDelay delay), _, t, ret, t' =>
      b.Drives (.vata n) (Vata.Ctrl.setHoldDelay delay) t ret t'
  | .vataQuery n .getHoldDelay, _, t, v, t' => b.Drives (.vata n) Vata.Ctrl.getHoldDelay t v t'
  | c, ts, t, ans, t' =>
      (∀ d, answer nVata x.others c ts d = some (ans, d)) ∧
        ∀ dev, t dev ≤ t' dev ∧ b.Kept dev (t dev) (t' dev)

/-- The calls of the server on the board. -/
def env (o : WordOrder) (nVata : ℕ) (x : Served) : Env Call Call.Answer (Machine × Moment) :=
  fun c s ans s' => s'.1 = s.1.after c ans ∧ b.Does o nVata x c s.1.tokens s.2 ans s'.2

section Kept

variable {b} {t t' : Moment} {dev : Device} {n : ℕ} {α : Type} {p : Driver α} {a : α}
  (counter : BitVec 64)

lemma cal_of_kept (hle : t .cal ≤ t' .cal) (h : b.Kept .cal (t .cal) (t' .cal)) :
    (b.devices counter t').cal = (b.devices counter t).cal :=
  congrArg held (Bus.slvReg_of_noWrites b.cal.advances h hle le_rfl)

lemma dac_of_kept (hle : t .dac ≤ t' .dac) (h : b.Kept .dac (t .dac) (t' .dac)) :
    (b.devices counter t').dac = (b.devices counter t).dac :=
  congrArg held (Bus.slvReg_of_noWrites (fun u => ⟨_, _, b.dac.file_succ u⟩) h hle le_rfl)

lemma sync_of_kept (hle : t .sync ≤ t' .sync) (h : b.Kept .sync (t .sync) (t' .sync)) :
    (b.devices counter t').sync = (b.devices counter t).sync :=
  congrArg held (Bus.slvReg_of_noWrites (fun u => ⟨_, _, b.sync.file_succ u⟩) h hle le_rfl)

lemma hold_of_kept (hle : t (.vata n) ≤ t' (.vata n))
    (h : b.Kept (.vata n) (t (.vata n)) (t' (.vata n))) :
    (b.devices counter t').hold n = (b.devices counter t).hold n :=
  Vata.Core.Run.holdDelay_of_keeps h hle

/-- What the drivers of one core leave of the others. -/
lemma devices_of_kept
    (h : ∀ dev', dev' ≠ dev → t dev' ≤ t' dev' ∧ b.Kept dev' (t dev') (t' dev')) :
    (dev ≠ .cal → (b.devices counter t').cal = (b.devices counter t).cal) ∧
    (dev ≠ .dac → (b.devices counter t').dac = (b.devices counter t).dac) ∧
    (dev ≠ .sync → (b.devices counter t').sync = (b.devices counter t).sync) ∧
    ∀ n, dev ≠ .vata n → (b.devices counter t').hold n = (b.devices counter t).hold n :=
  ⟨fun hne => cal_of_kept counter (h _ hne.symm).1 (h _ hne.symm).2,
    fun hne => dac_of_kept counter (h _ hne.symm).1 (h _ hne.symm).2,
    fun hne => sync_of_kept counter (h _ hne.symm).1 (h _ hne.symm).2,
    fun _ hne => hold_of_kept counter (h _ hne.symm).1 (h _ hne.symm).2⟩

lemma Drives.cal (h : b.Drives .cal p t a t') : b.devices counter t' =
    { b.devices counter t with cal := held (b.cal.slvReg (t' .cal)) } := by
  obtain ⟨-, hdac, hsync, hhold⟩ := devices_of_kept counter h.others
  have hholds := funext fun n => hhold n (by simp)
  rw [Devices.mk.injEq]
  exact ⟨rfl, hdac (by simp), hsync (by simp), rfl, hholds⟩

lemma Drives.dac (h : b.Drives .dac p t a t') : b.devices counter t' =
    { b.devices counter t with dac := held (b.dac.slvReg (t' .dac)) } := by
  obtain ⟨hcal, -, hsync, hhold⟩ := devices_of_kept counter h.others
  have hholds := funext fun n => hhold n (by simp)
  rw [Devices.mk.injEq]
  exact ⟨hcal (by simp), rfl, hsync (by simp), rfl, hholds⟩

lemma Drives.sync (h : b.Drives .sync p t a t') : b.devices counter t' =
    { b.devices counter t with sync := held (b.sync.regs (t' .sync)).file.slvReg } := by
  obtain ⟨hcal, hdac, -, hhold⟩ := devices_of_kept counter h.others
  have hholds := funext fun n => hhold n (by simp)
  rw [Devices.mk.injEq]
  exact ⟨hcal (by simp), hdac (by simp), rfl, rfl, hholds⟩

lemma Drives.vata (h : b.Drives (.vata n) p t a t') : b.devices counter t' =
    { b.devices counter t with
      hold := Function.update (b.devices counter t).hold n
        ((b.vata n).holdDelay (t' (.vata n))) } := by
  obtain ⟨hcal, hdac, hsync, hhold⟩ := devices_of_kept counter h.others
  have hholds : (b.devices counter t').hold = Function.update (b.devices counter t).hold n
      ((b.vata n).holdDelay (t' (.vata n))) := by
    funext m
    rcases eq_or_ne m n with rfl | hne
    · rw [Function.update_self]
      rfl
    · rw [Function.update_of_ne hne]
      exact hhold m (by simpa using hne.symm)
  rw [Devices.mk.injEq]
  exact ⟨hcal (by simp), hdac (by simp), hsync (by simp), rfl, hholds⟩

lemma devices_of_all (h : ∀ dev, t dev ≤ t' dev ∧ b.Kept dev (t dev) (t' dev)) :
    b.devices counter t' = b.devices counter t := by
  rw [Devices.mk.injEq]
  exact ⟨cal_of_kept counter (h _).1 (h _).2, dac_of_kept counter (h _).1 (h _).2,
    sync_of_kept counter (h _).1 (h _).2, rfl,
    funext fun n => hold_of_kept counter (h _).1 (h _).2⟩

lemma kept_of_noWrites {u u' : ℕ} (h : (b.bus dev).NoWrites u u') : b.Kept dev u u' := by
  cases dev with
  | vata n => exact fun y hy hyu v => Bus.not_writes_of_noWrite (h y hy hyu)
  | _ => exact h

/-- A driver that only loads leaves the devices. -/
lemma Drives.devices_of_loads (h : b.Drives dev p t a t') (hp : Never Bus.IsWrite p) :
    b.devices counter t' = b.devices counter t := by
  refine devices_of_all counter fun dev' => ?_
  by_cases hdev : dev' = dev
  · subst hdev
    exact ⟨Bus.le_of_exec h.runs, kept_of_noWrites (Bus.noWrites_of_exec h.runs hp)⟩
  · exact h.others dev' hdev

end Kept

/-! ## A request on the board -/

section Request

variable {b} {o : WordOrder} {nVata : ℕ} {x : Served} {t t' : Moment}

/-- A call on the board is one in the world of its registers. -/
lemma answer_of_does {c : Call} {ts : List Token} {ans : c.Answer}
    (h : b.Does o nVata x c ts t ans t') :
    answer nVata x.others c ts (b.devices x.counter t) = some (ans, b.devices x.counter t') := by
  have hrest : ∀ {c : Call} {ans : c.Answer},
      ((∀ d, answer nVata x.others c ts d = some (ans, d)) ∧
        ∀ dev, t dev ≤ t' dev ∧ b.Kept dev (t dev) (t' dev)) →
      answer nVata x.others c ts (b.devices x.counter t) =
        some (ans, b.devices x.counter t') := by
    rintro c ans ⟨hanswer, hkept⟩
    rw [devices_of_all x.counter hkept]
    exact hanswer _
  cases c with
  | cal a =>
      have heval := cal_eval_of_exec h.runs
      rw [h.cal x.counter]
      show some ((a.method.eval registers (held (b.cal.slvReg (t .cal)))).1,
        { b.devices x.counter t with
          cal := (a.method.eval registers (held (b.cal.slvReg (t .cal)))).2 }) = _
      rw [heval]
  | dac a =>
      have heval := dac_eval_of_exec h.runs
      rw [h.dac x.counter]
      show some ((a.method.eval registers (held (b.dac.slvReg (t .dac)))).1,
        { b.devices x.counter t with
          dac := (a.method.eval registers (held (b.dac.slvReg (t .dac)))).2 }) = _
      rw [heval]
  | sync a =>
      have heval := sync_eval_of_exec (never_hidden_syncMethod nVata a) h.runs
      rw [h.sync x.counter]
      show some (((a.method nVata).eval registers (held (b.sync.regs (t .sync)).file.slvReg)).1,
        { b.devices x.counter t with
          sync := ((a.method nVata).eval registers (held (b.sync.regs (t .sync)).file.slvReg)).2 })
          = _
      rw [heval]
  | dacQuery q =>
      have heval := dacQuery_eval_of_exec h.runs
      rw [h.devices_of_loads x.counter (by cases q <;> exact ⟨id, fun _ => trivial⟩)]
      exact congrArg (fun r => some (r.1, b.devices x.counter t)) heval
  | syncCounter =>
      obtain ⟨hdrives, rfl⟩ := h
      have hloads : Never Bus.IsWrite (Sync.SyncCtrl.getCounter o) := by
        cases o <;> exact ⟨id, fun _ => ⟨id, fun _ => trivial⟩⟩
      rw [hdrives.devices_of_loads x.counter hloads]
      rfl
  | isGlobalHitEnabled =>
      have heval := sync_eval_of_exec never_hidden_isGlobalHitEnabled h.runs
      rw [h.devices_of_loads x.counter ⟨id, fun _ => trivial⟩]
      exact congrArg (fun r => some (r.1, b.devices x.counter t)) heval
  | asicHitDisableMask =>
      have heval := sync_eval_of_exec never_hidden_getAsicHitDisableMask h.runs
      rw [h.devices_of_loads x.counter ⟨id, fun _ => trivial⟩]
      exact congrArg (fun r => some (r.1, b.devices x.counter t)) heval
  | vata n a =>
      cases a with
      | setHoldDelay delay =>
          have hdelay := Vata.Core.Run.holdDelay_of_set h.runs
          obtain ⟨_, _, -, hret⟩ := exec_bind.mp h.runs
          obtain ⟨rfl, -⟩ := exec_done.mp hret
          rw [h.vata x.counter, hdelay]
          rfl
      | _ => exact hrest h
  | vataQuery n q =>
      cases q with
      | getHoldDelay =>
          have hdelay := Vata.Core.Run.holdDelay_of_get h.runs
          rw [h.devices_of_loads x.counter ⟨id, fun _ => trivial⟩]
          exact congrArg (fun v => some (v, b.devices x.counter t)) hdelay.symm
      | _ => exact hrest h
  | _ => exact hrest h

/-- What the server does with a request on the board, it does in the world of its registers. -/
lemma evalPartial_of_exec {α : Type} {p : Method α} {s s' : Machine × Moment} {a : α}
    (h : Exec (b.env o nVata x) p s a s') :
    p.evalPartial (world nVata x.others) ⟨s.1, b.devices x.counter s.2⟩ =
      some (a, ⟨s'.1, b.devices x.counter s'.2⟩) := by
  induction h with
  | done => rfl
  | @call c next s s' s'' ans a hcall _ ih =>
      obtain ⟨hmachine, hdoes⟩ := hcall
      have hstep : world nVata x.others c ⟨s.1, b.devices x.counter s.2⟩ =
          some (ans, ⟨s'.1, b.devices x.counter s'.2⟩) := by
        rw [world, answer_of_does hdoes, hmachine]
        rfl
      rw [evalPartial_call, hstep]
      exact ih

end Request

/-! ## Sessions -/

/-- The server between two clients, at a moment of the board. -/
structure Running where
  srv : LayerServer
  exited : Bool
  moment : Moment

/-- The server is started when the resets are released. -/
def Running.start : Running where
  srv := .constructed
  exited := false
  moment _ := 0

/-- The process of the server, with what the cores hold. -/
def process (s : Running) (counter : BitVec 64) : Process where
  srv := s.srv
  devices := b.devices counter s.moment
  exited := s.exited

/-- A client of the board: a request that the server handles, or a tool. -/
inductive Step (o : WordOrder) (nVata : ℕ) (s : Running) : Client → Running → Prop
  | request {x : Served} {m m' : Machine} {ret : ℤ} {srv : LayerServer} {t : Moment}
      (hgo : s.exited = false)
      (hhandle : Exec (b.env o nVata x) (handle nVata s.srv x.request) (m, s.moment)
        (ret, srv) (m', t))
      (hsent : sockets m'.log = sockets m.log ++ x.events) :
      Step o nVata s (.request x) ⟨srv, decide (ret < 0 ∨ ret = exitReqRecvCode), t⟩
  | calctrl {args : List Arg} {e : Ended} {t : Moment}
      (h : b.Drives .cal (Calctrl.main args) s.moment e t) :
      Step o nVata s (.calctrl args e) { s with moment := t }
  | dacctrl {args : List Arg} {e : Ended} {t : Moment}
      (h : b.Drives .dac (Dacctrl.main args) s.moment e t) :
      Step o nVata s (.dacctrl args e) { s with moment := t }
  | syncctrl {args : List Arg} {e : Ended} {t : Moment}
      (h : b.Drives .sync (Syncctrl.main o nVata args) s.moment e t) :
      Step o nVata s (.syncctrl args e) { s with moment := t }

section Session

variable {b} {o : WordOrder} {nVata : ℕ} {x : Client} {xs : List Client} {s s' : Running}
  {i : Instrument}

/-- A client of the board is one of the server and the tools. -/
lemma happens_of_step (counter : BitVec 64) (h : b.Step o nVata s x s') :
    ∃ counter', Happens o nVata (b.process s counter) x (b.process s' counter') := by
  cases h with
  | @request x m m' ret srv t hgo hhandle hsent =>
      exact ⟨x.counter, .request ⟨hgo, ⟨m, b.devices x.counter s.moment⟩,
        ⟨m', b.devices x.counter t⟩, ret, rfl, evalPartial_of_exec hhandle, hsent, rfl, rfl⟩⟩
  | @calctrl args e t h =>
      have hrun : Happens o nVata (b.process s counter) (.calctrl args e) _ :=
        .calctrl (exec_cal h.runs)
      exact ⟨counter, by simpa only [process, h.cal counter] using hrun⟩
  | @dacctrl args e t h =>
      have hrun : Happens o nVata (b.process s counter) (.dacctrl args e) _ :=
        .dacctrl (exec_dac h.runs)
      exact ⟨counter, by simpa only [process, h.dac counter] using hrun⟩
  | @syncctrl args e t h =>
      have hrun : Happens o nVata (b.process s counter) (.syncctrl args e) _ :=
        .syncctrl (exec_sync h.runs)
      exact ⟨counter, by simpa only [process, h.sync counter] using hrun⟩

/-- The instrument is what the server and the registers show. -/
structure ShownBy (b : Board) (s : Running) (i : Instrument) : Prop
    extends Shows i s.srv (b.cores s.moment) where
  halted : s.exited = i.halted

/-- The server on the board shows what its process does. -/
lemma shownBy_process {counter : BitVec 64} :
    (b.process s counter).ShownBy i ↔ b.ShownBy s i :=
  ⟨fun h => ⟨h.toShows, h.halted⟩, fun h => ⟨h.toShows, h.halted⟩⟩

/-- **One client.** -/
lemma step_refines (hi : b.ShownBy s i) (h : b.Step o nVata s x s') :
    ∃ i', Observes nVata i x i' ∧ b.ShownBy s' i' := by
  obtain ⟨counter, hhappens⟩ := happens_of_step 0#64 h
  obtain ⟨i', hobserves, hi'⟩ := happens_refines (shownBy_process.mpr hi) hhappens
  exact ⟨i', hobserves, shownBy_process.mp hi'⟩

lemma shownBy_start (hb : b.FromReset) : b.ShownBy .start .start := by
  have hcores : b.cores (fun _ => 0) = Process.start.devices.cores := by
    have hcal : b.cal.slvReg 0 = Cal.Core.Regs.reset.file.slvReg :=
      congrArg (fun s : Cal.Core.Regs => s.file.slvReg) hb.cal
    have hdac : b.dac.slvReg 0 = Dac.Core.slvRegReset :=
      congrArg (fun s : Dac.Core.Regs => s.file.slvReg) hb.dac
    have hsync : (b.sync.regs 0).file.slvReg = Sync.Core.Regs.reset.file.slvReg :=
      congrArg (fun s : Sync.Core.Regs => s.file.slvReg) hb.sync
    rw [cores, hcal, hdac, hsync]
    rfl
  have hstart : Shows .start .constructed (b.cores fun _ => 0) := by
    rw [hcores]
    exact Server.shownBy_start.toShows
  exact ⟨hstart, rfl⟩

/-! ## Ports -/

/-- The instrument is what the machines of the cores get from the registers. -/
structure Ports (b : Board) (i : Instrument) (t : Moment) : Prop where
  calPulseEna : ∀ s ∈ i.loaded, (b.cal.fsm.inp (t .cal)).calPulseEna = s.calPulseEna
  vataTriggerEna : ∀ s ∈ i.loaded, (b.cal.fsm.inp (t .cal)).vataTriggerEna = s.vataTriggerEna
  fastOrTriggerDisable : ∀ s ∈ i.loaded,
    Cal.Core.vataFastOrTriggerDisable (b.cal.regs (t .cal)) = s.vataFastOrDisable
  calPulseWidth : ∀ s ∈ i.loaded, (b.cal.fsm.inp (t .cal)).calPulseWidth = s.calPulseWidth
  triggerDelay : ∀ s ∈ i.loaded, (b.cal.fsm.inp (t .cal)).triggerDelay = s.vataTriggerDelay
  pulseWait : ∀ s ∈ i.loaded, (b.cal.fsm.inp (t .cal)).pulseWait = s.repetitionDelay
  nPulsesIn : (b.cal.fsm.inp (t .cal)).nPulsesIn.toNat = i.train
  runPulses : (b.cal.fsm.inp (t .cal)).runPulses = i.pulsing
  delayRegister : (b.dac.fsm.inp (t .dac)).delayRegister = BitVec.ofNat 16 i.delay
  inputWord : (b.dac.fsm.inp (t .dac)).inputWord = BitVec.ofNat 16 i.counts
  disableHits : ∀ n < 32,
    (Sync.Core.disableHits (b.sync.regs (t .sync))).getLsbD n = decide (n ∈ i.disabled)
  globalHitEna : Sync.Core.globalHitEna (b.sync.regs (t .sync)) = i.hits

/-- The ports of the machines are bits of the registers. -/
lemma ShownBy.ports (h : b.ShownBy s i) : b.Ports i s.moment := by
  have hword : ∀ {v : BitVec 32} {n : ℕ}, v.toNat = n →
      v.extractLsb' 0 16 = BitVec.ofNat 16 n := by
    rintro v n rfl
    apply BitVec.eq_of_toNat_eq
    rw [BitVec.extractLsb'_toNat, BitVec.toNat_ofNat, Nat.shiftRight_zero]
  have henable : ∀ c ∈ i.loaded, ∀ k, ((b.cores s.moment).cal 0).getLsbD k = c.enable.getLsbD k :=
    fun c hc k => congrArg (fun v => v.getLsbD k) (h.loaded c hc).enable
  exact {
    calPulseEna := fun c hc => (henable c hc 0).trans c.enable_bits.1
    vataTriggerEna := fun c hc => (henable c hc 1).trans c.enable_bits.2.1
    fastOrTriggerDisable := fun c hc => (henable c hc 2).trans c.enable_bits.2.2
    calPulseWidth := fun c hc => (h.loaded c hc).width
    triggerDelay := fun c hc => (h.loaded c hc).delay
    pulseWait := fun c hc => (h.loaded c hc).repetition
    nPulsesIn := h.train
    runPulses := by
      have hbit := congrArg (fun v => v.getLsbD 0) h.pulsing
      cases hpulsing : i.pulsing <;> rw [hpulsing] at hbit <;> exact hbit
    delayRegister := hword h.delay
    inputWord := hword h.counts
    disableHits := fun n hn =>
      (congrArg (fun v => v.getLsbD n) h.disabled).trans (Instrument.getLsbD_mask hn)
    globalHitEna := by
      have hbit := congrArg (fun v => v.getLsbD 0) h.hits
      cases hhits : i.hits <;> rw [hhits] at hbit <;> exact hbit }

/-- **A session on the cores.**  In every session on a board from reset, what the server replies and
what the tools print and return is what one instrument shows, and after it the registers of the
cores and the ports of their machines hold what the instrument has. -/
theorem board_refines (hb : b.FromReset) (h : Trace (b.Step o nVata) .start xs s') :
    ∃ i', Trace (Observes nVata) .start xs i' ∧ b.ShownBy s' i' ∧ b.Ports i' s'.moment := by
  have hsim : ∀ (i : Instrument) (s : Running) (x : Client) (s' : Running), b.ShownBy s i →
      b.Step o nVata s x s' → ∃ i', Observes nVata i x i' ∧ b.ShownBy s' i' :=
    fun _ _ _ _ hi hstep => step_refines hi hstep
  obtain ⟨i', htrace, hi'⟩ := h.simulates hsim (shownBy_start hb)
  exact ⟨i', htrace, hi', hi'.ports⟩

end Session

/-! ## A delay of the DACs -/

/-- A delay is set and then read back on the bus of the DACs. -/
def delayScript : ℕ → Option (Job 4)
  | 0 => some (.write (regAddr 2 1) 100#32)
  | 1 => some (.read (regAddr 2 1))
  | _ => none

/-- The cores from reset, of which only that of the DACs is accessed. -/
def delayBoard : Board where
  cal := ⟨.reset, fun _ => .quiet⟩
  dac := ⟨.reset, scripted delayScript⟩
  sync := ⟨.reset, fun _ => .quiet⟩
  vata _ := ⟨.reset 0#12 0#520, fun _ => .quiet .quiet⟩

lemma fromReset_delayBoard : delayBoard.FromReset :=
  ⟨rfl, rfl, rfl, fun _ => ⟨_, _, rfl⟩⟩

lemma follows_delayBoard : Follows delayBoard.dac.file delayScript :=
  follows_of_slave fun t => ⟨true, Dac.Core.Run.axi_of_script fromReset_delayBoard.dac rfl t⟩

/-- The DACs are at cycle `t`, and the other cores are where they started. -/
def dacAt (t : ℕ) : Moment := Function.update (fun _ => 0) .dac t

/-- Cores whose clock does not advance are kept. -/
lemma kept_refl (b : Board) (t : Moment) (dev : Device) :
    t dev ≤ t dev ∧ b.Kept dev (t dev) (t dev) :=
  ⟨le_rfl, kept_of_noWrites fun _ hx hxt => absurd (hx.trans_lt hxt) (lt_irrefl _)⟩

/-- A call of the server, and those after it. -/
lemma path_does {b : Board} {o : WordOrder} {nVata : ℕ} {x : Served} {c : Call} {ans : c.Answer}
    {m : Machine} {t t' : Moment} {calls : List Event} {s : Machine × Moment}
    (h : b.Does o nVata x c m.tokens t ans t')
    (hrest : Path (b.env o nVata x) (m.after c ans, t') calls s) :
    Path (b.env o nVata x) (m, t) (⟨c, ans⟩ :: calls) s := .cons ⟨rfl, h⟩ hrest

lemma drives_dacAt {b : Board} {α : Type} {p : Driver α} {a : α} {t t' : ℕ}
    (h : Exec b.dac.bus.env p t a t') : b.Drives .dac p (dacAt t) a (dacAt t') where
  runs := h
  others dev hdev := by
    rw [dacAt, dacAt, Function.update_of_ne hdev, Function.update_of_ne hdev]
    exact b.kept_refl (fun _ => 0) dev

/-- What the server calls for a request that sets the delay. -/
def setDelay100 : List Event :=
  [⟨.strtok (some (bytes "dac set-delay 100")), some (bytes "dac")⟩,
    ⟨.strtok none, some (bytes "set-delay")⟩, ⟨.strtok none, some (bytes "100")⟩,
    ⟨.dac (.setDelay 100#32), (0 : ℤ)⟩, ⟨.send (bytes "ok" ++ [0#8]), ()⟩]

/-- The server sets the delay, and then `dacctrl` prints it. -/
def delayClients : List Client :=
  [.request (answeredOk (bytes "dac set-delay 100")),
    .dacctrl [bytes "--get-delay"] ⟨[bytes "100"], [], 0⟩]

lemma step_setDelay : delayBoard.Step .lowFirst 12 .start
    (.request (answeredOk (bytes "dac set-delay 100"))) ⟨.constructed, false, dacAt 2⟩ := by
  have hplay : (handle 12 .constructed (bytes "dac set-delay 100")).play setDelay100 =
      some (0, .constructed) := by decide +kernel
  have hstore : Exec delayBoard.dac.bus.env (Driver.write 1 100#32) 0 () 2 :=
    exec_write_slot (n := 0) follows_delayBoard (by decide) rfl
  have hwrite : Exec delayBoard.dac.bus.env (Dac.DacCtrl.setDelay 100#32) 0 0 2 :=
    exec_bind.mpr ⟨(), _, hstore, exec_done.mpr ⟨rfl, rfl⟩⟩
  have hpath : Path (delayBoard.env .lowFirst 12 (answeredOk (bytes "dac set-delay 100")))
      (⟨[], []⟩, dacAt 0) setDelay100 (⟨[], setDelay100⟩, dacAt 2) :=
    path_does ⟨fun _ => rfl, kept_refl _ _⟩ <| path_does ⟨fun _ => rfl, kept_refl _ _⟩ <|
      path_does ⟨fun _ => rfl, kept_refl _ _⟩ <| path_does (drives_dacAt hwrite) <|
      path_does ⟨fun _ => rfl, kept_refl _ _⟩ <| .nil _
  have hstart : dacAt 0 = fun _ => 0 := Function.update_eq_self (f := fun _ => 0) Device.dac
  rw [hstart] at hpath
  have hhandle : Exec (delayBoard.env .lowFirst 12 (answeredOk (bytes "dac set-delay 100")))
      (handle 12 .constructed (bytes "dac set-delay 100")) (⟨[], []⟩, fun _ => 0)
      (0, .constructed) (⟨[], setDelay100⟩, dacAt 2) := exec_of_play hplay hpath
  exact .request (s := .start) rfl hhandle rfl

lemma step_getDelay {srv : LayerServer} : delayBoard.Step .lowFirst 12 ⟨srv, false, dacAt 2⟩
    (.dacctrl [bytes "--get-delay"] ⟨[bytes "100"], [], 0⟩) ⟨srv, false, dacAt 6⟩ := by
  have hword : (delayBoard.dac.file (4 * 1 + 2)).axiRdata = 100#32 := by decide +kernel
  have hload : Exec delayBoard.dac.bus.env (Driver.read 1) 2 100#32 6 :=
    hword ▸ exec_read_slot (n := 1) follows_delayBoard (by decide) rfl
  have hplay : (Dacctrl.main [bytes "--get-delay"]).play [⟨.read 1, 100#32⟩] =
      some ⟨[bytes "100"], [], 0⟩ := by decide +kernel
  have hpath : Path delayBoard.dac.bus.env 2 [⟨.read 1, 100#32⟩] 6 :=
    .cons (exec_perform.mp hload) (.nil _)
  exact .dacctrl (drives_dacAt (exec_of_play hplay hpath))

/-- The instrument has the delay that was set, and so has the machine of the DACs. -/
theorem delayBoard_refines : ∃ s' i', Trace (delayBoard.Step .lowFirst 12) .start delayClients s' ∧
    Trace (Observes 12) .start delayClients i' ∧ i'.delay = 100 ∧
      delayBoard.Ports i' s'.moment := by
  have htrace : Trace (delayBoard.Step .lowFirst 12) .start delayClients _ :=
    .cons step_setDelay (.cons step_getDelay (.nil _))
  obtain ⟨i', hobserves, hi', hports⟩ := board_refines fromReset_delayBoard htrace
  have hword : (held (delayBoard.dac.slvReg 6) 1).toNat = 100 := by decide +kernel
  exact ⟨_, i', htrace, hobserves, hi'.delay.symm.trans hword, hports⟩

end Board

end TrackerFpga.System
