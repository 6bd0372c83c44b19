import Mathlib.Data.Bool.Basic
import Mathlib.Tactic.Common
import TrackerFpga.Lib.SerialRegister

/-!
# The components inside the VATA interface

`vata_460p3_iface_fsm.vhd` instantiates three small machines next to its own processes:

* `trigger_ack_timeout_fsm`, which waits for an acknowledge after a trigger and raises
  `abort_daq` for two cycles when none comes (`TriggerAckTimeout`);
* `rising_edge_vector`, a registered edge detector over the twelve hit lines
  (`RisingEdgeVector`);
* `event_id_s2p`, which collects the serial event id (`EventIdS2p`).

`control_register_triggers`, which turns a write to register `0` of a core into a pulse, is in the
cores around it and in `sync_vata_distn` (`ControlRegisterTriggers`).

Each is a record of its registers and a step function: the value the registers take at the
rising clock edge that ends a cycle, from their value in the cycle and the inputs of the
cycle.  Names are the source's, in camel case.  `rst_n` is `'1'` in every step; the
asynchronous reset is the function `reset` of each component.
-/

namespace TrackerFpga.Vata

/-! ## `trigger_ack_timeout_fsm` -/

/-- The states of `trigger_ack_timeout_fsm`. -/
inductive TimeoutState
  | idle
  | incCounter
  | acqOk
  | acqAbort0
  | acqAbort1
  deriving DecidableEq, Repr

/-- The registers of `trigger_ack_timeout_fsm`. -/
structure TriggerAckTimeout where
  currentState : TimeoutState
  counter : BitVec 32
  deriving DecidableEq, Repr

namespace TriggerAckTimeout

/-- The registers under `rst_n = '0'`. -/
def reset : TriggerAckTimeout := { currentState := .idle, counter := 0#32 }

/-- `counter_clr` of the next-state process. -/
def counterClr (triggerEna : Bool) (timeout : BitVec 32) (s : TriggerAckTimeout) : Bool :=
  match s.currentState with
  | .idle => triggerEna && decide (timeout > 0#32)
  | _ => false

/-- `next_state` of the next-state process. -/
def nextState (triggerEna triggerAck : Bool) (timeout : BitVec 32) (s : TriggerAckTimeout) :
    TimeoutState :=
  match s.currentState with
  | .idle => if triggerEna && decide (timeout > 0#32) then .incCounter else .idle
  | .incCounter =>
      if s.counter ≥ timeout then .acqAbort0
      else if triggerAck then .acqOk
      else .incCounter
  | .acqAbort0 => .acqAbort1
  | .acqAbort1 => .idle
  | .acqOk => .idle

/-- `counter_ena` of the output process. -/
def counterEna (s : TriggerAckTimeout) : Bool := decide (s.currentState = .incCounter)

/-- `abort_daq` of the output process. -/
def abortDaq (s : TriggerAckTimeout) : Bool :=
  match s.currentState with
  | .acqAbort0 => true
  | .acqAbort1 => true
  | _ => false

/-- One clock cycle. -/
def step (triggerEna triggerAck : Bool) (timeout : BitVec 32) (s : TriggerAckTimeout) :
    TriggerAckTimeout where
  currentState := nextState triggerEna triggerAck timeout s
  counter :=
    if counterClr triggerEna timeout s then 0#32
    else if counterEna s then s.counter + 1#32
    else s.counter

end TriggerAckTimeout

/-! ## `rising_edge_vector` -/

/-- The registers of `rising_edge_vector`, with `VECTOR_WIDTH = 12`. -/
structure RisingEdgeVector where
  lastVector : BitVec 12
  risingEdgeOut : BitVec 12
  deriving DecidableEq, Repr

namespace RisingEdgeVector

/-- The registers under `rst_n = '0'`: `rising_edge_out` has no reset branch and keeps what it
held, which is here `edges`. -/
def reset (edges : BitVec 12) : RisingEdgeVector :=
  { lastVector := 0#12, risingEdgeOut := edges }

/-- One clock cycle: a bit of `rising_edge_out` is set where the line was low and is high. -/
def step (vectorIn : BitVec 12) (s : RisingEdgeVector) : RisingEdgeVector where
  lastVector := vectorIn
  risingEdgeOut := vectorIn &&& ~~~s.lastVector

end RisingEdgeVector

/-! ## `event_id_s2p` -/

/-- The registers of `event_id_s2p`, with `EVENT_ID_WIDTH = W`.  `clrResync` and `latchResync`
are the variables `resync` of its two processes. -/
structure EventIdS2p (W : ℕ) where
  triggerEventIdClr : Bool
  clrResync : BitVec 3
  data : BitVec W
  latchResync : BitVec 3
  deriving DecidableEq, Repr

namespace EventIdS2p

variable {W : ℕ}

/-- The registers under `rst_n = '0'`. -/
def reset : EventIdS2p W :=
  { triggerEventIdClr := false, clrResync := 0#3, data := 0#W, latchResync := 0#3 }

/-- `resync(1) = '1' and resync(2) = '0'`: the edge both processes look for. -/
def resyncEdge (resync : BitVec 3) : Bool := resync.getLsbD 1 && !resync.getLsbD 2

/-- One clock cycle.  `trigger_event_id_clr` is an asynchronous clear of the second process: the
register is empty from the edge at which the clear rises to the end of the cycle in which it is
high. -/
def step (eventIdData eventIdLatch eventIdClr : Bool) (s : EventIdS2p W) : EventIdS2p W :=
  let triggerEventIdClr := resyncEdge s.clrResync
  let cleared := triggerEventIdClr || s.triggerEventIdClr
  { triggerEventIdClr := triggerEventIdClr
    clrResync := s.clrResync.shiftConcat eventIdClr
    data :=
      if cleared then 0#W
      else if resyncEdge s.latchResync then s.data.shiftConcat eventIdData
      else s.data
    latchResync := if cleared then 0#3 else s.latchResync.shiftConcat eventIdLatch }

/-- `event_id_out`. -/
def eventIdOut (s : EventIdS2p W) : BitVec W := s.data

/-- The register is cleared at the end of the cycle. -/
def clears (s : EventIdS2p W) : Bool := resyncEdge s.clrResync || s.triggerEventIdClr

end EventIdS2p

/-! ## `control_register_triggers` -/

/-- The registers of `control_register_triggers`, with `N_TRIGGERS = n`. -/
structure ControlRegisterTriggers (n : ℕ) where
  triggers : BitVec n
  lastAxiWready : Bool
  deriving DecidableEq, Repr

namespace ControlRegisterTriggers

variable {n w : ℕ}

/-- The registers under `axi_aresetn = '0'`. -/
def reset : ControlRegisterTriggers n := { triggers := 0#n, lastAxiWready := false }

/-- One clock cycle, with `AXI_ADDR_WIDTH = w` and `AXI_AWADDR_CONTROL = 0`: a write to the control
register raises the trigger it names. -/
def step (axiAwaddr : BitVec w) (axiWdata : BitVec 32) (axiWready : Bool)
    (s : ControlRegisterTriggers n) : ControlRegisterTriggers n where
  triggers :=
    if axiWready && !s.lastAxiWready && axiAwaddr == 0#w then
      if axiWdata.toNat < n then 1#n <<< axiWdata.toNat else 0#n
    else 0#n
  lastAxiWready := axiWready

/-- A trigger that is high was raised by a write in the cycle before. -/
lemma wready_of_triggers (axiAwaddr : BitVec w) (axiWdata : BitVec 32) {axiWready : Bool}
    {s : ControlRegisterTriggers n} (h : (s.step axiAwaddr axiWdata axiWready).triggers ≠ 0#n) :
    axiWready = true ∧ s.lastAxiWready = false := by
  unfold step at h
  by_contra hcon
  cases axiWready <;> cases hlast : s.lastAxiWready <;> simp_all

end ControlRegisterTriggers

end TrackerFpga.Vata
