import Mathlib.Combinatorics.Colex
import TrackerFpga.Lib.Traces
import TrackerFpga.Server.Accepts

/-!
# The instrument that a client sees

What the `emit`, `cal`, `dac` and `sync` groups are for, without sockets, tokens, drivers and
registers: an `Instrument` has an emitter, a pulser, DACs and a set of asics whose hits are
disabled, and a form of the grammar changes it (`Instrument.perform`) and asks it
(`Instrument.reply`).  A request is answered as the form that it resembles, or by an error
(`Instrument.Step`).
-/

namespace TrackerFpga.Server

open ByteCodec CString

/-- The fields that `LayerServer::LayerServer` leaves. -/
def LayerServer.constructed : LayerServer where
  calctrl := .default
  dataEmitterRunning := false

/-- What a client sees of the instrument.  `loaded` is what the pulser was last given. -/
structure Instrument where
  emitting : Bool
  settings : CalCtrl
  loaded : Option CalCtrl
  train : ℕ
  pulsing : Bool
  delay : ℕ
  counts : ℕ
  disabled : Finset ℕ
  hits : Bool
  halted : Bool

/-- A request that was answered: the synchronous counter meanwhile, the results of the calls that
are not about the instrument, and what was seen of it at the socket. -/
structure Served where
  request : List Byte
  counter : BitVec 64
  others : (o : Call) → Option o.Answer
  events : List SocketEvent

namespace Instrument

open LayerServer

/-- The instrument after a form. -/
def perform (i : Instrument) : Form → Instrument
  | .plain (.emit .start) => { i with emitting := true }
  | .plain (.emit .stop) => { i with emitting := false }
  | .plain .startInf => { i with loaded := some i.settings, train := 0, pulsing := true }
  | .plain .stopInf => { i with pulsing := false }
  | .plain .globalHitEnable => { i with hits := true }
  | .plain .globalHitDisable => { i with hits := false }
  | .plain .halt => { i with emitting := false, halted := true }
  | .plain _ => i
  | .number (.flag f) n =>
      { i with settings := f.set i.settings (n = 1), loaded := some (f.set i.settings (n = 1)) }
  | .number (.setting f) n =>
      { i with
        settings := f.set i.settings (BitVec.ofInt 32 n)
        loaded := some (f.set i.settings (BitVec.ofInt 32 n)) }
  | .number .nPulses n =>
      { i with loaded := some i.settings, train := n.toNat, pulsing := false }
  | .number .setDelay n => { i with delay := n.toNat }
  | .number (.setCounts _ _) n => { i with counts := n.toNat }
  | .number (.asicHit true) n => { i with disabled := i.disabled.erase n.toNat }
  | .number (.asicHit false) n => { i with disabled := insert n.toNat i.disabled }

/-- Only `halt` ends it. -/
lemma perform_halted (i : Instrument) (f : Form) :
    (i.perform f).halted = (i.halted || decide (f = .plain .halt)) := by
  cases f with
  | plain p =>
      cases p with
      | emit c => cases c <;> simp [perform]
      | _ => simp [perform]
  | number c n =>
      cases c with
      | asicHit ena => cases ena <;> simp [perform]
      | _ => simp [perform]

/-- The mask of a set of asics. -/
def mask (asics : Finset ℕ) : BitVec 32 := BitVec.ofNat 32 (∑ n ∈ asics, 2 ^ n)

lemma getLsbD_mask {asics : Finset ℕ} {k : ℕ} (hk : k < 32) :
    (mask asics).getLsbD k = decide (k ∈ asics) := by
  have hbit : (∑ n ∈ asics, 2 ^ n).testBit k = true ↔ k ∈ asics := by
    rw [← Nat.mem_bitIndices, ← List.mem_toFinset, Finset.toFinset_bitIndices_sum_two_pow]
  rw [mask, BitVec.getLsbD_ofNat, decide_eq_true hk, Bool.true_and, Bool.eq_iff_iff, hbit,
    decide_eq_true_iff]

/-- What the instrument answers. -/
def reply (i : Instrument) (counter : BitVec 64) : Form → List (List Byte)
  | .plain (.emit .status) => [bytes (if i.emitting then "running" else "stopped") ++ [0#8]]
  | .plain (.emit .start) =>
      [bytes (if i.emitting then "ERROR: emitter already running" else "ok") ++ [0#8]]
  | .plain (.emit .stop) =>
      [bytes (if i.emitting then "ok" else "ERROR: emitter not running") ++ [0#8]]
  | .plain (.dacQuery .getDelay) => [encodeLE 4 i.delay]
  | .plain (.dacQuery .getInput) => [encodeLE 4 i.counts]
  | .plain .getCounter => [encodeLE 8 counter.toNat]
  | .plain .getGlobalHitEna => [[if i.hits then 1#8 else 0#8]]
  | .plain .getAsicHitDisableMask => [encodeLE 4 (mask i.disabled).toNat]
  | .plain .halt => []
  | _ => [bytes "ok" ++ [0#8]]

/-- The instrument before the first request; a reset leaves the delay of the DACs at `4`. -/
def start : Instrument where
  emitting := false
  settings := .default
  loaded := none
  train := 0
  pulsing := false
  delay := 4
  counts := 0
  disabled := ∅
  hits := false
  halted := false

/-- A request is served: as the form that it resembles, or by an error; one for the `vata` group or
for the number of cores is none of this. -/
inductive Step (nVata : ℕ) (i : Instrument) (x : Served) : Instrument → Prop
  | form {f : Form} (hgo : i.halted = false) (hf : Resembles nVata x.request f)
      (hevents : x.events = (i.reply x.counter f).map .send) : Step nVata i x (i.perform f)
  | refused {msg : List Byte} (hgo : i.halted = false) (hf : ∀ f, ¬ Resembles nVata x.request f)
      (hother : ¬ OtherGroup x.request) (hevents : x.events = [.send msg]) (herror : IsError msg) :
      Step nVata i x i
  | other (hgo : i.halted = false) (hother : OtherGroup x.request) : Step nVata i x i

/-- The pulser was given the settings of the instrument. -/
def Given (i : Instrument) : Prop := i.loaded = some i.settings

end Instrument

/-- The form gives settings to the pulser. -/
def LayerServer.Form.Loads : Form → Prop
  | .plain .startInf => True
  | .number (.flag _) _ => True
  | .number (.setting _) _ => True
  | .number .nPulses _ => True
  | _ => False

namespace Instrument

open LayerServer

section Given

variable {nVata : ℕ} {i i' : Instrument} {x : Served} {xs : List Served} {f f' : Form}
  {request : List Byte}

/-- A request resembles one form at most. -/
lemma resembles_unique (hf : Resembles nVata request f) (hf' : Resembles nVata request f') :
    f = f' := by
  have hmixed : ∀ {p c n}, Resembles nVata request (.plain p) →
      ¬ Resembles nVata request (.number c n) := by
    intro p c n hp hc
    obtain ⟨a, hr, -⟩ := resembles_number_iff.mp hc
    exact absurd ((plainRequest_iff.mpr hp).symm.trans (plainRequest_of_number hr)) (by simp)
  cases f with
  | plain p =>
      cases f' with
      | plain p' =>
          have hsame := (plainRequest_iff.mpr hf).symm.trans (plainRequest_iff.mpr hf')
          exact congrArg Form.plain (Option.some.inj hsame)
      | number c n => exact absurd hf' (hmixed hf)
  | number c n =>
      cases f' with
      | plain p => exact absurd hf (hmixed hf')
      | number c' n' =>
          obtain ⟨a, hr, -, rfl⟩ := resembles_number_iff.mp hf
          obtain ⟨a', hr', -, rfl⟩ := resembles_number_iff.mp hf'
          obtain ⟨rfl, rfl⟩ : c = c' ∧ a = a' := by simpa [hr] using hr'
          rfl

lemma given_of_loads (hf : f.Loads) : (i.perform f).Given := by
  cases f with
  | plain p =>
      cases p with
      | startInf => rfl
      | _ => exact hf.elim
  | number c n =>
      cases c with
      | flag f => rfl
      | setting f => rfl
      | nPulses => rfl
      | _ => exact hf.elim

lemma Given.perform (h : i.Given) (f : Form) : (i.perform f).Given := by
  by_cases hf : f.Loads
  · exact given_of_loads hf
  cases f with
  | plain p =>
      cases p with
      | emit c => cases c <;> exact h
      | startInf => exact absurd trivial hf
      | _ => exact h
  | number c n =>
      cases c with
      | flag f => exact absurd trivial hf
      | setting f => exact absurd trivial hf
      | nPulses => exact absurd trivial hf
      | asicHit ena => cases ena <;> exact h
      | _ => exact h

lemma Given.step (h : i.Given) (hstep : Step nVata i x i') : i'.Given := by
  cases hstep with
  | form _ _ _ => exact h.perform _
  | refused _ _ _ _ _ => exact h
  | other _ _ => exact h

/-- What is done with a request that resembles a form. -/
lemma step_of_resembles (hf : Resembles nVata x.request f) (hstep : Step nVata i x i') :
    i.halted = false ∧ x.events = (i.reply x.counter f).map .send ∧ i' = i.perform f := by
  cases hstep with
  | form hgo hf' hevents =>
      obtain rfl := resembles_unique hf hf'
      exact ⟨hgo, hevents, rfl⟩
  | refused _ hno _ _ _ => exact absurd hf (hno f)
  | other _ hother =>
      obtain ⟨g, hg, hword⟩ := exists_group_of_resembles hf
      exact absurd hother (not_otherGroup_of_group hg hword)

/-- **After the first settings** the pulser has those of the instrument. -/
lemma given_of_trace (h : Labelled.Trace (Step nVata) i xs i')
    (hx : ∃ x ∈ xs, ∃ f, Resembles nVata x.request f ∧ f.Loads) : i'.Given := by
  induction h with
  | nil i =>
      obtain ⟨x, hmem, -⟩ := hx
      simp at hmem
  | cons hstep hrest ih =>
      obtain ⟨x, hmem, f, hf, hloads⟩ := hx
      rcases List.mem_cons.mp hmem with rfl | hmem
      · obtain ⟨-, -, rfl⟩ := step_of_resembles hf hstep
        exact hrest.invariant (fun _ _ _ => Given.step) (given_of_loads hloads)
      · exact ih ⟨x, hmem, f, hf, hloads⟩

end Given

end Instrument

end TrackerFpga.Server
