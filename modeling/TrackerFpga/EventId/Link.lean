import TrackerFpga.Lib.Clocked
import TrackerFpga.Vata.Components

/-!
# The serial link of the event id

`event_id_p2s` sends an id bit by bit, the most significant one first: each bit is on the line for
`2 * EVENT_ID_CLK_RATIO` cycles, and `event_id_latch` is high in the first half of them.
`event_id_s2p` (`Vata.EventIdS2p`) resynchronises the latch and takes the bit when it has seen the
latch rise.  Here is the sender, and a run of the two on one clock.
-/

namespace TrackerFpga.EventId

open Clocked Vata

variable {W : ℕ}

/-! ## `event_id_p2s` -/

/-- The states of `event_id_p2s`. -/
inductive P2sState
  | idle
  | latchHi
  | latchLo
  deriving DecidableEq, Repr

/-- The registers of `event_id_p2s`, with `EVENT_ID_WIDTH = W`. -/
structure P2s (W : ℕ) where
  currentState : P2sState
  idBitCount : BitVec 6
  clkCount : BitVec 4
  data : BitVec W
  deriving DecidableEq, Repr

namespace P2s

/-- The registers under `rst_n = '0'`. -/
def reset : P2s W := { currentState := .idle, idBitCount := 0#6, clkCount := 0#4, data := 0#W }

/-- `CLK_MAX`, with `EVENT_ID_CLK_RATIO = R`. -/
def clkMax (R : ℕ) : BitVec 4 := BitVec.ofNat 4 (R - 1)

/-- `ID_BIT_MAX`. -/
def idBitMax (W : ℕ) : BitVec 6 := BitVec.ofNat 6 (W - 1)

/-- The signals of `state_xfer_proc`; a branch raises the ones it names. -/
structure Control where
  nextState : P2sState
  startIdOut : Bool := false
  incIdBitCount : Bool := false
  clkCountClr : Bool := false
  incEventId : Bool := false
  deriving DecidableEq, Repr

/-- `state_xfer_proc`. -/
def control (R : ℕ) (eventIdGo : Bool) (s : P2s W) : Control :=
  match s.currentState with
  | .idle =>
      if eventIdGo then { nextState := .latchHi, startIdOut := true, clkCountClr := true }
      else { nextState := .idle }
  | .latchHi =>
      if s.clkCount ≥ clkMax R then { nextState := .latchLo, clkCountClr := true }
      else { nextState := .latchHi }
  | .latchLo =>
      if s.clkCount ≥ clkMax R then
        if s.idBitCount ≥ idBitMax W then { nextState := .idle, incEventId := true }
        else { nextState := .latchHi, clkCountClr := true, incIdBitCount := true }
      else { nextState := .latchLo }

/-- `event_id_out`. -/
def eventIdOut (s : P2s W) : Bool :=
  match s.currentState with
  | .idle => false
  | .latchHi | .latchLo => s.data.getLsbD (W - 1)

/-- `event_id_latch`. -/
def eventIdLatch (s : P2s W) : Bool :=
  match s.currentState with
  | .idle | .latchLo => false
  | .latchHi => true

/-- `clk_count_ena`. -/
def clkCountEna (s : P2s W) : Bool :=
  match s.currentState with
  | .idle => false
  | .latchHi | .latchLo => true

/-- One clock cycle. -/
def step (R : ℕ) (eventIdGo : Bool) (eventIdIn : BitVec W) (s : P2s W) : P2s W :=
  let c := control R eventIdGo s
  { currentState := c.nextState
    idBitCount :=
      if c.startIdOut then 0#6
      else if c.incIdBitCount then s.idBitCount + 1#6
      else s.idBitCount
    clkCount :=
      if c.clkCountClr then 0#4
      else if clkCountEna s then s.clkCount + 1#4
      else s.clkCount
    data :=
      if c.startIdOut then eventIdIn
      else if c.incIdBitCount then s.data <<< 1
      else s.data }

end P2s

/-! ## The link -/

/-- What the two entities hold. -/
structure Link (W : ℕ) where
  p2s : P2s W
  s2p : EventIdS2p W
  deriving DecidableEq, Repr

/-- The inputs of a cycle. -/
structure Input (W : ℕ) where
  eventIdGo : Bool
  eventIdIn : BitVec W
  eventIdClr : Bool
  deriving DecidableEq, Repr

/-- One clock cycle of both entities. -/
def step (R : ℕ) (i : Input W) (s : Link W) : Link W where
  p2s := s.p2s.step R i.eventIdGo i.eventIdIn
  s2p := s.s2p.step s.p2s.eventIdOut s.p2s.eventIdLatch i.eventIdClr

/-- A run of the link, with `EVENT_ID_CLK_RATIO = R`. -/
structure Run (W R : ℕ) where
  start : Link W
  inp : ℕ → Input W

namespace Run

variable {R : ℕ} (r : Run W R)

/-- What is held in cycle `t`. -/
def regs (t : ℕ) : Link W := run (step R) r.start r.inp t

/-- The sender waits for a go in cycle `t`. -/
def Idle (t : ℕ) : Prop := (r.regs t).p2s.currentState = .idle

instance : DecidablePred r.Idle := fun _ => inferInstanceAs (Decidable (_ = _))

/-- `event_id_latch` in cycle `t`. -/
def latch (t : ℕ) : Bool := (r.regs t).p2s.eventIdLatch

/-- `inc_event_id` in cycle `t`. -/
def incEventId (t : ℕ) : Bool := ((r.regs t).p2s.control R (r.inp t).eventIdGo).incEventId

/-- `event_id_out` of the receiver in cycle `t`. -/
def eventIdOut (t : ℕ) : BitVec W := (r.regs t).s2p.eventIdOut

/-- The receiver is being cleared in cycle `t`. -/
def Cleared (t : ℕ) : Prop := (r.regs t).s2p.triggerEventIdClr = true

instance : DecidablePred r.Cleared := fun _ => inferInstanceAs (Decidable (_ = _))

lemma regs_succ (t : ℕ) : r.regs (t + 1) = step R (r.inp t) (r.regs t) := run_succ ..

end Run

end TrackerFpga.EventId
