import TrackerFpga.Lib.Clocked
import TrackerFpga.Vata.Components

/-!
# `vata_460p3_iface_fsm`

The interface to one VATA460.3 ASIC, translated process by process from
`vata_460p3_iface_fsm.vhd`.  The whole entity, its instances included, is one synchronous
machine: `Regs` is everything it stores, `Input` its input ports, `step` one clock cycle and
`outputs` the combinational output process.

Cycle `t` lasts from one rising edge to the next; the inputs of a cycle are stable in it.  Three
kinds of register are stepped together at its end:

* registers on the rising edge (`current_state`, `state_counter`, `reg_indx`, `reg_from_vata`,
  the live counter, the instances);
* registers on the falling edge in the middle of the cycle (`uevent_counter`, the packet
  header): they are written from the signals of this cycle and read in later ones only;
* the latch `cfg_reg_from_pl`, which is transparent in `GC_XFER_DATA`.

`counter_rst` and `event_counter_rst` clear their counters asynchronously, so a counter is `0`
in the very cycle in which its reset is high (`liveCounter`, `eventCounter`).  `rst_n` is `'1'`
in every step; `reset` is what the registers hold when it is released.

Names are the source's, in camel case.  The nineteen states `RO_WFIFO_00` to `RO_WFIFO_18` are
the values of one constructor.  `reg_indx`, an integer from `0` to `519` in the source, is the
ten-bit register that holds such an integer.
-/

namespace TrackerFpga.Vata

/-! ## Ports, states and registers -/

/-- The states of the main machine. -/
inductive State
  | idle
  -- set-config
  | scSetModeM1
  | scLatchModeM1
  | scLowerLatchM1
  | scSetDataI3
  | scClockData
  | scLowerClock
  | scSetModeM3
  | scLatchModeM3
  -- get-config
  | gcSetModeM2
  | gcLatchModeM2
  | gcLowerLatchM2
  | gcSetDataI3
  | gcClockData
  | gcShiftCfgReg
  | gcReadO5
  | gcLowerClock
  | gcXferData
  | gcSetModeM3
  | gcLatchModeM3
  -- acquisition and conversion
  | acqDelay
  | acqHold
  | acqLowerI1
  | acqSetModeM4
  | convLatchM4
  | convRaiseI3
  | convLowerI4
  | convClkHi
  | convClkLo
  | convSetModeM5
  -- readout
  | roLatchModeM5
  | roClkHi
  | roReadO6
  | roClkLo
  | roShiftData
  | roWfifo (k : Fin 19)
  | roSetModeM3
  | roLatchModeM3
  -- abort
  | abortWfifo
  | abortSetModeM3
  | abortLatchModeM3
  deriving DecidableEq, Repr

/-- The input ports, but for the clock, `rst_n` and `int_cal_trigger`, which drives nothing here
but a toggle of its own.  No process of the entity reads `disable_fast_or_trigger` or
`data_tready`. -/
structure Input where
  forceFsmIdle : Bool
  fastOrTrigger : Bool
  fastOrTriggerEna : Bool
  triggerAck : Bool
  ackTriggerEna : Bool
  vataHits : BitVec 12
  localVataTriggerEna : BitVec 12
  forceTrigger : Bool
  forceTriggerEna : Bool
  calPulseTrigger : Bool
  disableFastOrTrigger : Bool
  triggerAckTimeout : BitVec 32
  eventIdLatch : Bool
  eventIdData : Bool
  getConfig : Bool
  setConfig : Bool
  holdTime : BitVec 16
  vataO5 : Bool
  vataO6 : Bool
  cfgRegFromPs : BitVec 520
  dataTready : Bool
  counterRst : Bool
  runningCounter : BitVec 64
  eventCounterRst : Bool
  deriving DecidableEq, Repr

/-- All lines low, but for a receiver that is ready. -/
def Input.quiet : Input where
  forceFsmIdle := false
  fastOrTrigger := false
  fastOrTriggerEna := false
  triggerAck := false
  ackTriggerEna := false
  vataHits := 0#12
  localVataTriggerEna := 0#12
  forceTrigger := false
  forceTriggerEna := false
  calPulseTrigger := false
  disableFastOrTrigger := false
  triggerAckTimeout := 0#32
  eventIdLatch := false
  eventIdData := false
  getConfig := false
  setConfig := false
  holdTime := 0#16
  vataO5 := false
  vataO6 := false
  cfgRegFromPs := 0#520
  dataTready := true
  counterRst := false
  runningCounter := 0#64
  eventCounterRst := false

/-- The registers of the entity and of its instances. -/
structure Regs where
  currentState : State
  stateCounter : BitVec 16
  regIndx : BitVec 10
  regFromVata : BitVec 520
  cfgRegFromPl : BitVec 520
  uliveCounter : BitVec 64
  ueventCounter : BitVec 32
  pktRunningCounter : BitVec 64
  pktLiveCounter : BitVec 64
  pktEventCounter : BitVec 32
  pktEventTriggers : BitVec 16
  eventIdS2p : EventIdS2p 32
  triggerAckTimeout : TriggerAckTimeout
  risingEdgeVector : RisingEdgeVector
  deriving DecidableEq, Repr

/-- The registers when `rst_n` is released.  Two of them have no reset branch and keep what they
held: the detected edges of the hit lines, and the latch of the configuration read back. -/
def Regs.reset (edges : BitVec 12) (pl : BitVec 520) : Regs where
  currentState := .idle
  stateCounter := 0#16
  regIndx := 0#10
  regFromVata := 0#520
  cfgRegFromPl := pl
  uliveCounter := 0#64
  ueventCounter := 0#32
  pktRunningCounter := 0#64
  pktLiveCounter := 0#64
  pktEventCounter := 0#32
  pktEventTriggers := 0#16
  eventIdS2p := .reset
  triggerAckTimeout := .reset
  risingEdgeVector := .reset edges

/-! ## Combinational signals -/

/-- `vata_hits_rising_edge`. -/
def vataHitsRisingEdge (s : Regs) : BitVec 12 := s.risingEdgeVector.risingEdgeOut

/-- `trigger_acq`: some trigger source fires that is enabled. -/
def triggerAcq (i : Input) (s : Regs) : Bool :=
  (i.forceTrigger && i.forceTriggerEna)
    || (i.fastOrTrigger && i.fastOrTriggerEna)
    || (i.triggerAck && i.ackTriggerEna)
    || (List.range 12).any fun n =>
        (vataHitsRisingEdge s).getLsbD n && i.localVataTriggerEna.getLsbD n

/-- `abort_daq`. -/
def abortDaq (s : Regs) : Bool := s.triggerAckTimeout.abortDaq

/-- `event_id_out`. -/
def eventIdOut (s : Regs) : BitVec 32 := s.eventIdS2p.eventIdOut

/-- `cfg_bit`. -/
def cfgBit (i : Input) (s : Regs) : Bool := i.cfgRegFromPs.getLsbD s.regIndx.toNat

/-- `cfg_reg0`. -/
def cfgReg0 (s : Regs) : Bool := s.regFromVata.getLsbD 0

/-- `cfg_reg1`. -/
def cfgReg1 (s : Regs) : Bool := s.regFromVata.getLsbD 1

/-- `live_counter`, which `counter_rst` clears asynchronously. -/
def liveCounter (i : Input) (s : Regs) : BitVec 64 :=
  if i.counterRst then 0#64 else s.uliveCounter

/-- `event_counter`, which `event_counter_rst` clears asynchronously. -/
def eventCounter (i : Input) (s : Regs) : BitVec 32 :=
  if i.eventCounterRst then 0#32 else s.ueventCounter

/-- The port `cfg_reg_from_pl`: a latch that is open in `GC_XFER_DATA`. -/
def cfgRegFromPl (s : Regs) : BitVec 520 :=
  if s.currentState = .gcXferData then s.regFromVata else s.cfgRegFromPl

/-- The sixteen trigger bits the packet header latches. -/
def eventTriggers (i : Input) (s : Regs) : BitVec 16 :=
  BitVec.ofBool i.calPulseTrigger ++ BitVec.ofBool i.forceTrigger ++ BitVec.ofBool i.triggerAck
    ++ BitVec.ofBool i.fastOrTrigger ++ vataHitsRisingEdge s

/-- `vata_busy`. -/
def vataBusy (s : Regs) : Bool := !decide (s.currentState = .idle)

/-- `vata_hit`. -/
def vataHit (i : Input) (s : Regs) : Bool := decide (s.currentState = .idle) && !i.vataO6

/-! ## The next-state process -/

/-- The signals the next-state process drives; a branch raises the strobes it names. -/
structure Control where
  nextState : State
  stateCounterClr : Bool := false
  decRegIndx : Bool := false
  incRegIndx : Bool := false
  rstRegIndx519 : Bool := false
  rstRegIndx0 : Bool := false
  shiftRegLeft1 : Bool := false
  shiftRegRight1 : Bool := false
  regClr : Bool := false
  readO5 : Bool := false
  readO6 : Bool := false
  incEventCounter : Bool := false
  setPktData : Bool := false
  deriving DecidableEq, Repr

/-- `if force_fsm_idle = '1' then` clear the counter and go to `ABORT_SET_MODE_M3`. -/
def onForce (i : Input) (otherwise : Control) : Control :=
  if i.forceFsmIdle then { nextState := .abortSetModeM3, stateCounterClr := true } else otherwise

/-- `elsif abort_daq = '1' then` clear the counter and go to `RO_SET_MODE_M3`. -/
def onAbort (s : Regs) (otherwise : Control) : Control :=
  if abortDaq s then { nextState := .roSetModeM3, stateCounterClr := true } else otherwise

/-- `elsif state_counter >= n then` leave, `else` stay. -/
def onCount (n : BitVec 16) (s : Regs) (leave : Control) : Control :=
  if s.stateCounter ≥ n then leave else { nextState := s.currentState }

/-- The next-state process. -/
def control (i : Input) (s : Regs) : Control :=
  match s.currentState with
  | .idle =>
      if triggerAcq i s then
        { nextState := .acqDelay, stateCounterClr := true, setPktData := true }
      else if i.setConfig then { nextState := .scSetModeM1, stateCounterClr := true }
      else if i.getConfig then { nextState := .gcSetModeM2 }
      else { nextState := .idle }
  | .scSetModeM1 => onForce i <| onCount 9#16 s
      { nextState := .scLatchModeM1, stateCounterClr := true, rstRegIndx519 := true }
  | .scLatchModeM1 => onForce i <| onCount 9#16 s
      { nextState := .scLowerLatchM1, stateCounterClr := true }
  | .scLowerLatchM1 => onForce i <| onCount 499#16 s
      { nextState := .scSetDataI3, stateCounterClr := true }
  | .scSetDataI3 => onForce i <| onCount 499#16 s
      { nextState := .scClockData, stateCounterClr := true }
  | .scClockData => onForce i <| onCount 999#16 s
      { nextState := .scLowerClock, stateCounterClr := true }
  | .scLowerClock => onForce i <| onCount 499#16 s <|
      if s.regIndx = 0#10 then { nextState := .scSetModeM3, stateCounterClr := true }
      else { nextState := .scSetDataI3, stateCounterClr := true, decRegIndx := true }
  | .scSetModeM3 => onForce i <| onCount 9#16 s
      { nextState := .scLatchModeM3, stateCounterClr := true }
  | .scLatchModeM3 => onForce i <| onCount 9#16 s { nextState := .idle }
  | .gcSetModeM2 => onForce i <| onCount 9#16 s
      { nextState := .gcLatchModeM2, stateCounterClr := true, rstRegIndx519 := true,
        regClr := true }
  | .gcLatchModeM2 => onForce i <| onCount 9#16 s
      { nextState := .gcLowerLatchM2, stateCounterClr := true }
  | .gcLowerLatchM2 => onForce i <| onCount 499#16 s
      { nextState := .gcSetDataI3, stateCounterClr := true, readO5 := true }
  | .gcSetDataI3 => onForce i <| onCount 499#16 s
      { nextState := .gcClockData, stateCounterClr := true }
  | .gcClockData => onForce i <|
      if s.regIndx > 0#10 ∧ s.stateCounter ≥ 29#16 then
        { nextState := .gcShiftCfgReg, stateCounterClr := true, shiftRegLeft1 := true }
      else onCount 999#16 s { nextState := .gcLowerClock, stateCounterClr := true }
  | .gcShiftCfgReg => onForce i
      { nextState := .gcReadO5, stateCounterClr := true, readO5 := true }
  | .gcReadO5 => onForce i <| onCount 969#16 s
      { nextState := .gcLowerClock, stateCounterClr := true }
  | .gcLowerClock => onForce i <| onCount 499#16 s <|
      if s.regIndx = 0#10 then { nextState := .gcXferData, stateCounterClr := true }
      else { nextState := .gcSetDataI3, stateCounterClr := true, decRegIndx := true }
  | .gcXferData => onForce i { nextState := .gcSetModeM3 }
  | .gcSetModeM3 => onForce i <| onCount 9#16 s
      { nextState := .gcLatchModeM3, stateCounterClr := true }
  | .gcLatchModeM3 => onForce i <| onCount 9#16 s { nextState := .idle }
  | .acqDelay => onForce i <| onAbort s <| onCount i.holdTime s
      { nextState := .acqHold, stateCounterClr := true }
  | .acqHold => onForce i <| onAbort s <| onCount 34#16 s
      { nextState := .acqLowerI1, stateCounterClr := true }
  | .acqLowerI1 => onForce i <| onAbort s <| onCount 1#16 s
      { nextState := .acqSetModeM4, stateCounterClr := true }
  | .acqSetModeM4 => onForce i <| onAbort s
      { nextState := .convLatchM4, stateCounterClr := true }
  | .convLatchM4 => onForce i <| onAbort s
      { nextState := .convRaiseI3, stateCounterClr := true }
  | .convRaiseI3 => onForce i <| onAbort s <| onCount 9#16 s
      { nextState := .convLowerI4, stateCounterClr := true }
  | .convLowerI4 => onForce i <| onAbort s <| onCount 14#16 s
      { nextState := .convClkHi, stateCounterClr := true }
  | .convClkHi => onForce i <| onAbort s <| onCount 4#16 s <|
      if i.vataO5 then { nextState := .convSetModeM5, stateCounterClr := true }
      else { nextState := .convClkLo, stateCounterClr := true }
  | .convClkLo => onForce i <| onAbort s <| onCount 4#16 s
      { nextState := .convClkHi, stateCounterClr := true }
  | .convSetModeM5 => onForce i <| onAbort s <| onCount 4#16 s
      { nextState := .roLatchModeM5, stateCounterClr := true }
  | .roLatchModeM5 => onForce i <| onAbort s <| onCount 39#16 s
      { nextState := .roClkHi, stateCounterClr := true, rstRegIndx0 := true }
  | .roClkHi => onForce i <| onAbort s <| onCount 24#16 s
      { nextState := .roReadO6, stateCounterClr := true }
  | .roReadO6 => onForce i <| onAbort s <| onCount 7#16 s
      { nextState := .roClkLo, stateCounterClr := true, readO6 := true, incRegIndx := true }
  | .roClkLo => onForce i <| onAbort s <| onCount 32#16 s <|
      if i.vataO5 then
        if s.regIndx = 379#10 then { nextState := .roWfifo 0, stateCounterClr := true }
        else
          { nextState := .roShiftData, stateCounterClr := true, incRegIndx := true,
            shiftRegRight1 := true }
      else { nextState := .roClkHi, stateCounterClr := true, shiftRegRight1 := true }
  | .roShiftData => onForce i <| onAbort s <|
      if s.regIndx ≥ 379#10 then { nextState := .roWfifo 0, incRegIndx := true }
      else { nextState := .roShiftData, incRegIndx := true, shiftRegRight1 := true }
  | .roWfifo k =>
      if h : k.val < 18 then onForce i { nextState := .roWfifo ⟨k.val + 1, by omega⟩ }
      else onForce i
        { nextState := .roSetModeM3, stateCounterClr := true, incEventCounter := true }
  | .roSetModeM3 => onForce i <| onCount 9#16 s
      { nextState := .roLatchModeM3, stateCounterClr := true }
  | .roLatchModeM3 => onForce i <| onCount 9#16 s { nextState := .idle, stateCounterClr := true }
  | .abortWfifo => { nextState := .abortSetModeM3, stateCounterClr := true }
  | .abortSetModeM3 => onCount 9#16 s
      { nextState := .abortLatchModeM3, stateCounterClr := true }
  | .abortLatchModeM3 => onCount 9#16 s { nextState := .idle }

/-! ## The output process -/

/-- The signals the output process drives; a state raises the ones it names. -/
structure Output where
  vataI1 : Bool := false
  vataI3 : Bool := false
  vataI4 : Bool := false
  vataMode : BitVec 3
  vataSLatch : Bool := false
  dataTvalid : Bool := false
  dataTlast : Bool := false
  dataTdata : BitVec 32 := 0#32
  eventIdClr : Bool := false
  deriving DecidableEq, Repr

/-- `data_tdata` in `RO_WFIFO_k`: the event id, the latched header, and the 379 data bits in
words 7 to 18. -/
def wfifoWord (s : Regs) (k : Fin 19) : BitVec 32 :=
  match k with
  | 0 => eventIdOut s
  | 1 => s.pktEventCounter
  | 2 => s.pktEventTriggers.setWidth 32
  | 3 => s.pktRunningCounter.extractLsb' 0 32
  | 4 => s.pktRunningCounter.extractLsb' 32 32
  | 5 => s.pktLiveCounter.extractLsb' 0 32
  | 6 => s.pktLiveCounter.extractLsb' 32 32
  | 18 => (s.regFromVata.extractLsb' 352 27).setWidth 32
  | k => s.regFromVata.extractLsb' (32 * (k.val - 7)) 32

/-- The output process. -/
def outputs (i : Input) (s : Regs) : Output :=
  match s.currentState with
  | .idle => { vataI4 := true, vataMode := 2#3 }
  | .scSetModeM1 => { vataMode := 0#3 }
  | .scLatchModeM1 => { vataMode := 0#3, vataSLatch := true }
  | .scLowerLatchM1 => { vataMode := 0#3 }
  | .scSetDataI3 =>
      { vataI3 := cfgBit i s, vataI4 := !decide (s.regIndx = 519#10), vataMode := 0#3 }
  | .scClockData => { vataI1 := true, vataI3 := cfgBit i s, vataI4 := true, vataMode := 0#3 }
  | .scLowerClock => { vataI3 := cfgBit i s, vataI4 := true, vataMode := 0#3 }
  | .scSetModeM3 => { vataMode := 2#3 }
  | .scLatchModeM3 => { vataMode := 2#3, vataSLatch := true }
  | .gcSetModeM2 => { vataMode := 1#3 }
  | .gcLatchModeM2 => { vataMode := 1#3, vataSLatch := true }
  | .gcLowerLatchM2 => { vataMode := 1#3 }
  | .gcSetDataI3 => { vataI3 := cfgReg0 s, vataMode := 1#3 }
  | .gcClockData => { vataI1 := true, vataI3 := cfgReg0 s, vataMode := 1#3 }
  | .gcShiftCfgReg => { vataI1 := true, vataI3 := cfgReg1 s, vataMode := 1#3 }
  | .gcReadO5 => { vataI1 := true, vataI3 := cfgReg1 s, vataMode := 1#3 }
  | .gcLowerClock =>
      { vataI3 := if s.regIndx = 0#10 then cfgReg0 s else cfgReg1 s, vataMode := 1#3 }
  | .gcXferData => { vataMode := 1#3 }
  | .gcSetModeM3 => { vataMode := 2#3 }
  | .gcLatchModeM3 => { vataMode := 2#3, vataSLatch := true }
  | .acqDelay => { vataI4 := true, vataMode := 2#3 }
  | .acqHold => { vataI1 := true, vataI4 := true, vataMode := 2#3 }
  | .acqLowerI1 => { vataI4 := true, vataMode := 2#3 }
  | .acqSetModeM4 => { vataI4 := true, vataMode := 3#3 }
  | .convLatchM4 => { vataI4 := true, vataMode := 3#3, vataSLatch := true }
  | .convRaiseI3 => { vataI3 := true, vataI4 := true, vataMode := 3#3, vataSLatch := true }
  | .convLowerI4 => { vataI3 := true, vataMode := 3#3 }
  | .convClkHi => { vataI1 := true, vataI3 := true, vataMode := 3#3 }
  | .convClkLo => { vataI3 := true, vataMode := 3#3 }
  | .convSetModeM5 => { vataI3 := true, vataMode := 4#3 }
  | .roLatchModeM5 => { vataI3 := true, vataMode := 4#3, vataSLatch := true }
  | .roClkHi => { vataI1 := true, vataI3 := true, vataMode := 4#3 }
  | .roReadO6 => { vataI1 := true, vataI3 := true, vataMode := 4#3 }
  | .roClkLo => { vataI3 := true, vataMode := 4#3 }
  | .roShiftData => { vataI3 := true, vataMode := 4#3 }
  | .roWfifo k =>
      { vataI3 := true, vataMode := 4#3, dataTvalid := true, dataTdata := wfifoWord s k,
        dataTlast := decide (k = 18), eventIdClr := decide (k = 1) }
  | .roSetModeM3 => { vataMode := 2#3 }
  | .roLatchModeM3 => { vataMode := 2#3, vataSLatch := true }
  | .abortWfifo =>
      { vataI3 := true, vataMode := 4#3, dataTvalid := true, dataTdata := BitVec.allOnes 32,
        dataTlast := true }
  | .abortSetModeM3 => { vataMode := 2#3 }
  | .abortLatchModeM3 => { vataMode := 2#3, vataSLatch := true }

/-! ## One clock cycle -/

/-- The process that writes `reg_from_vata`. -/
def nextRegFromVata (i : Input) (c : Control) (r : BitVec 520) : BitVec 520 :=
  if c.shiftRegLeft1 then r <<< 1
  else if c.shiftRegRight1 then r >>> 1
  else if c.readO5 then SerialRegister.setBit r 0 i.vataO5
  else if c.readO6 then SerialRegister.setBit r 378 (!i.vataO6)
  else if c.regClr then 0#520
  else r

/-- The process that writes `reg_indx`. -/
def nextRegIndx (c : Control) (r : BitVec 10) : BitVec 10 :=
  if c.rstRegIndx0 then 0#10
  else if c.rstRegIndx519 then 519#10
  else if c.incRegIndx then r + 1#10
  else if c.decRegIndx then r - 1#10
  else r

/-- One clock cycle of the entity. -/
def step (i : Input) (s : Regs) : Regs :=
  let c := control i s
  { currentState := c.nextState
    stateCounter := if c.stateCounterClr then 0#16 else s.stateCounter + 1#16
    regIndx := nextRegIndx c s.regIndx
    regFromVata := nextRegFromVata i c s.regFromVata
    cfgRegFromPl := cfgRegFromPl s
    uliveCounter :=
      if i.counterRst then 0#64
      else if s.currentState = .idle then s.uliveCounter + 1#64
      else s.uliveCounter
    ueventCounter :=
      if i.eventCounterRst then 0#32
      else if c.incEventCounter then s.ueventCounter + 1#32
      else s.ueventCounter
    pktRunningCounter := if c.setPktData then i.runningCounter else s.pktRunningCounter
    pktLiveCounter := if c.setPktData then liveCounter i s else s.pktLiveCounter
    pktEventCounter := if c.setPktData then eventCounter i s else s.pktEventCounter
    pktEventTriggers := if c.setPktData then eventTriggers i s else s.pktEventTriggers
    eventIdS2p := s.eventIdS2p.step i.eventIdData i.eventIdLatch (outputs i s).eventIdClr
    triggerAckTimeout :=
      s.triggerAckTimeout.step (triggerAcq i s) i.triggerAck i.triggerAckTimeout
    risingEdgeVector := s.risingEdgeVector.step i.vataHits }

section StepFields

variable (i : Input) (s : Regs)

@[simp] lemma step_currentState : (step i s).currentState = (control i s).nextState := rfl

@[simp] lemma step_stateCounter :
    (step i s).stateCounter =
      if (control i s).stateCounterClr then 0#16 else s.stateCounter + 1#16 := rfl

@[simp] lemma step_regIndx : (step i s).regIndx = nextRegIndx (control i s) s.regIndx := rfl

@[simp] lemma step_regFromVata :
    (step i s).regFromVata = nextRegFromVata i (control i s) s.regFromVata := rfl

@[simp] lemma step_cfgRegFromPl : (step i s).cfgRegFromPl = cfgRegFromPl s := rfl

@[simp] lemma step_uliveCounter :
    (step i s).uliveCounter =
      if i.counterRst then 0#64
      else if s.currentState = .idle then s.uliveCounter + 1#64
      else s.uliveCounter := rfl

@[simp] lemma step_ueventCounter :
    (step i s).ueventCounter =
      if i.eventCounterRst then 0#32
      else if (control i s).incEventCounter then s.ueventCounter + 1#32
      else s.ueventCounter := rfl

@[simp] lemma step_eventIdS2p :
    (step i s).eventIdS2p =
      s.eventIdS2p.step i.eventIdData i.eventIdLatch (outputs i s).eventIdClr := rfl

@[simp] lemma step_triggerAckTimeout :
    (step i s).triggerAckTimeout =
      s.triggerAckTimeout.step (triggerAcq i s) i.triggerAck i.triggerAckTimeout := rfl

@[simp] lemma step_risingEdgeVector :
    (step i s).risingEdgeVector = s.risingEdgeVector.step i.vataHits := rfl

end StepFields

/-! ## Runs -/

/-- A run of the entity: what its registers hold in cycle `0` and its inputs in every cycle. -/
structure Run where
  start : Regs
  inp : ℕ → Input

namespace Run

variable (r : Run)

/-- The registers in cycle `t`. -/
def regs (t : ℕ) : Regs := Clocked.run step r.start r.inp t

/-- The output ports in cycle `t`. -/
def out (t : ℕ) : Output := outputs (r.inp t) (r.regs t)

/-- The main machine is in `IDLE` in cycle `t`. -/
def Idle (t : ℕ) : Prop := (r.regs t).currentState = .idle

instance : DecidablePred r.Idle :=
  fun t => inferInstanceAs (Decidable ((r.regs t).currentState = _))

/-- An acquisition is accepted in cycle `t`: a trigger fires in `IDLE`. -/
def Accepts (t : ℕ) : Prop := r.Idle t ∧ triggerAcq (r.inp t) (r.regs t) = true

instance : DecidablePred r.Accepts := fun _ => inferInstanceAs (Decidable (_ ∧ _))

/-- A word is offered in cycle `t`. -/
def Offered (t : ℕ) : Prop := (r.out t).dataTvalid = true

instance : DecidablePred r.Offered :=
  fun t => inferInstanceAs (Decidable ((r.out t).dataTvalid = _))

/-- A word is transferred in cycle `t`: it is offered and the receiver is ready. -/
def Sent (t : ℕ) : Prop := r.Offered t ∧ (r.inp t).dataTready = true

instance : DecidablePred r.Sent := fun _ => inferInstanceAs (Decidable (_ ∧ _))

/-- The run starts when `rst_n` is released. -/
def FromReset : Prop := ∃ edges pl, r.start = Regs.reset edges pl

/-- The run from the reset state in which the registers without a reset branch are `0`. -/
def ofReset (inp : ℕ → Input) : Run where
  start := Regs.reset 0#12 0#520
  inp := inp

lemma fromReset_ofReset (inp : ℕ → Input) : (ofReset inp).FromReset := ⟨0#12, 0#520, rfl⟩

/-- One forced trigger in cycle `0`, answered by an ASIC that reads out a single bit. -/
def singleEvent : Run := ofReset fun t =>
  { Input.quiet with forceTrigger := decide (t = 0), forceTriggerEna := true, vataO5 := true }

@[simp] lemma regs_zero : r.regs 0 = r.start := Clocked.run_zero ..

lemma regs_succ (t : ℕ) : r.regs (t + 1) = step (r.inp t) (r.regs t) := Clocked.run_succ ..

end Run

end TrackerFpga.Vata
