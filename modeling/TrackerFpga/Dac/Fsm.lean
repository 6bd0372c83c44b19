import TrackerFpga.Lib.Clocked
import TrackerFpga.Lib.SpiWire

/-!
# `dac121s101_fsm`

The machine that writes a word into the DAC121S101 chips, translated from `dac121s101_fsm.vhd`
with its generics `REGISTER_DATA_WIDTH` and `SELECT_MASK_WIDTH`.  After a trigger it goes through
forty states, and stays in each until its counter has reached the delay register; the input word
and the select mask are not stored but go to the outputs as they are.

The sixteen states `DBk_set` are the values of one constructor, and so are the `DBk_clk` and the
`SCLK_ONLY` states.
-/

namespace TrackerFpga.Dac

open Clocked SpiWire

/-- The states. -/
inductive State
  | idle
  | sclkOnly (k : Fin 4)
  | syncSet
  | syncClk
  | dbSet (k : Fin 16)
  | dbClk (k : Fin 16)
  | syncEndSet
  | syncEndClk
  deriving DecidableEq, Repr

/-- The state that the next-state process goes to when it leaves a state. -/
def State.next : State → State
  | .idle => .sclkOnly 0
  | .sclkOnly k => if h : k.val < 3 then .sclkOnly ⟨k.val + 1, by omega⟩ else .syncSet
  | .syncSet => .syncClk
  | .syncClk => .dbSet 15
  | .dbSet k => .dbClk k
  | .dbClk k => if 0 < k.val then .dbSet ⟨k.val - 1, by omega⟩ else .syncEndSet
  | .syncEndSet => .syncEndClk
  | .syncEndClk => .idle

/-- The input ports, with `REGISTER_DATA_WIDTH = D` and `SELECT_MASK_WIDTH = M`. -/
structure Input (D M : ℕ) where
  delayRegister : BitVec D
  inputWord : BitVec 16
  writeTrig : Bool
  selectMask : BitVec M
  deriving DecidableEq, Repr

/-- The registers. -/
structure Regs (D : ℕ) where
  currentState : State
  counterStayValue : BitVec D
  deriving DecidableEq, Repr

variable {D M : ℕ}

/-- The registers under `rst_n = '0'`. -/
def Regs.reset : Regs D := { currentState := .idle, counterStayValue := 0#D }

/-- The signals of the next-state process. -/
structure Control where
  nextState : State
  counterStayEnable : Bool := true
  counterStayClr : Bool := false
  deriving DecidableEq, Repr

/-- The next-state process. -/
def control (i : Input D M) (s : Regs D) : Control :=
  match s.currentState with
  | .idle =>
      if i.writeTrig then
        { nextState := .sclkOnly 0, counterStayEnable := false, counterStayClr := true }
      else { nextState := .idle, counterStayEnable := false, counterStayClr := true }
  | state =>
      if s.counterStayValue ≥ i.delayRegister then
        { nextState := state.next, counterStayClr := true }
      else { nextState := state }

/-- The output ports. -/
structure Output (M : ℕ) where
  outSclk : Bool
  outSync : BitVec M
  outMosi : Bool
  fsmDone : Bool
  deriving DecidableEq, Repr

/-- `output_logic`. -/
def outputs (i : Input D M) (state : State) : Output M :=
  match state with
  | .idle =>
      { outSclk := false, outSync := BitVec.allOnes M, outMosi := false, fsmDone := true }
  | .sclkOnly _ => { outSclk := false, outSync := 0#M, outMosi := false, fsmDone := false }
  | .syncSet =>
      { outSclk := true, outSync := BitVec.allOnes M, outMosi := false, fsmDone := false }
  | .syncClk =>
      { outSclk := false, outSync := BitVec.allOnes M, outMosi := false, fsmDone := false }
  | .dbSet k =>
      { outSclk := true, outSync := if 6 ≤ k.val then 0#M else ~~~i.selectMask
        outMosi := i.inputWord.getLsbD k.val, fsmDone := false }
  | .dbClk k =>
      { outSclk := false, outSync := if 6 ≤ k.val then 0#M else ~~~i.selectMask
        outMosi := i.inputWord.getLsbD k.val, fsmDone := false }
  | .syncEndSet | .syncEndClk =>
      { outSclk := true, outSync := BitVec.allOnes M, outMosi := false, fsmDone := false }

/-- One clock cycle. -/
def step (i : Input D M) (s : Regs D) : Regs D :=
  let c := control i s
  { currentState := c.nextState
    counterStayValue :=
      if c.counterStayClr then 0#D
      else if c.counterStayEnable then s.counterStayValue + 1#D
      else s.counterStayValue }

/-- What chip `n` sees of the outputs. -/
def level (i : Input D M) (state : State) (n : ℕ) : Level where
  sync := (outputs i state).outSync.getLsbD n
  sclk := (outputs i state).outSclk
  mosi := (outputs i state).outMosi

/-! ## Runs -/

/-- A run of the machine. -/
structure Run (D M : ℕ) where
  start : Regs D
  inp : ℕ → Input D M

namespace Run

variable (r : Run D M)

/-- The registers in cycle `t`. -/
def regs (t : ℕ) : Regs D := run step r.start r.inp t

/-- The machine is in `IDLE` in cycle `t`. -/
def Idle (t : ℕ) : Prop := (r.regs t).currentState = .idle

instance : DecidablePred r.Idle := fun _ => inferInstanceAs (Decidable (_ = _))

/-- What chip `n` sees in cycle `t`. -/
def level (n t : ℕ) : Level := Dac.level (r.inp t) (r.regs t).currentState n

lemma regs_succ (t : ℕ) : r.regs (t + 1) = step (r.inp t) (r.regs t) := run_succ ..

end Run

/-! ## The way of a frame -/

/-- The states of a frame in their order: `IDLE` at `0`, and again at `41`. -/
def frameState (p : ℕ) : State := State.next^[p] .idle

lemma frameState_succ (p : ℕ) : frameState (p + 1) = (frameState p).next :=
  Function.iterate_succ_apply' ..

/-- Forty states lie between two `IDLE`. -/
lemma frameState_eq_idle_iff {p : ℕ} (hp : p ≤ 41) : frameState p = .idle ↔ p = 0 ∨ p = 41 := by
  revert p
  decide

section Step

variable {i : Input D M} {s : Regs D}

lemma step_of_idle (h : s.currentState = .idle) :
    step i s =
      { currentState := if i.writeTrig then .sclkOnly 0 else .idle, counterStayValue := 0#D } := by
  unfold step control
  rw [h]
  cases i.writeTrig <;> rfl

/-- A state is left when the counter has reached the delay. -/
lemma step_of_busy (h : s.currentState ≠ .idle) :
    step i s =
      if s.counterStayValue ≥ i.delayRegister then
        { currentState := s.currentState.next, counterStayValue := 0#D }
      else { s with counterStayValue := s.counterStayValue + 1#D } := by
  unfold step control
  split
  · exact absurd ‹_› h
  · split_ifs <;> simp_all

end Step

end TrackerFpga.Dac
