import TrackerFpga.Lib.Traces
import TrackerFpga.Mapped.Memory
import TrackerFpga.Vata.AxiInterface

/-!
# The trigger mask

The bits `0` to `14` of register `21` say which triggers the core takes: `trigger_enable` sets one
of them, `trigger_disable` clears one, and the other methods are calls of these two or writes of the
whole register.  `trigger_enable` refuses a negative bit number, and `trigger_disable` does not:
`maskAlgebra_iff` says that a sequence of calls is what it should be exactly where none disables a
negative bit.  In a run of the core the calls do to register `21` what they do to the memory, and
the ports of the interface take their bits from it (`enabled_of_calls`).
-/

namespace TrackerFpga.Vata.Ctrl

open AxiLite Interaction Mapped

/-- `TRIGGER_ENA_MASK_REG_OFFSET`. -/
def triggerEnaMaskRegOffset : ℕ := 21

/-- `TRIGGER_ENA_MASK_LEN`. -/
def triggerEnaMaskLen : ℤ := 15

/-- `TRIGGER_ENA_BIT_TM_HIT`. -/
def triggerEnaBitTmHit : ℤ := 12

/-- `TRIGGER_ENA_BIT_TM_ACK`. -/
def triggerEnaBitTmAck : ℤ := 13

/-- `TRIGGER_ENA_BIT_FORCE_TRIGGER`. -/
def triggerEnaBitForceTrigger : ℤ := 14

/-- `trigger_ena_local_asics`. -/
def triggerEnaLocalAsics : List ℤ := [0, 1, 2, 3, 4, 5, 6, 7, 8, 9, 10, 11]

/-! ## The methods -/

/-- `p[i] = f(p[i])`. -/
def modify (i : ℕ) (f : BitVec 32 → BitVec 32) : Driver Unit := do
  let v ← Driver.read i
  Driver.write i (f v)

/-- `1 << k`.  The shift by a negative number is undefined; `undef` is what it gives. -/
def shiftOne (undef : ℤ → BitVec 32) (k : ℤ) : BitVec 32 :=
  if k < 0 then undef k else 1#32 <<< k.toNat

section Methods

variable (undef : ℤ → BitVec 32) (nVata : ℕ)

/-- `VataCtrl::trigger_enable`. -/
def triggerEnable (maskBit : ℤ) : Driver ℤ :=
  if maskBit ≥ triggerEnaMaskLen ∨ maskBit < 0 then
    pure 1
  else do
    modify triggerEnaMaskRegOffset fun mask => mask ||| shiftOne undef maskBit
    pure 0

/-- `VataCtrl::trigger_disable`. -/
def triggerDisable (maskBit : ℤ) : Driver ℤ :=
  if maskBit ≥ triggerEnaMaskLen then
    pure 1
  else do
    modify triggerEnaMaskRegOffset fun mask => mask &&& ~~~shiftOne undef maskBit
    pure 0

/-- `VataCtrl::trigger_enable_all`. -/
def triggerEnableAll : Driver ℤ := do
  Driver.write triggerEnaMaskRegOffset 0xFFFFFFFF#32
  pure 0

/-- `VataCtrl::trigger_disable_all`. -/
def triggerDisableAll : Driver ℤ := do
  Driver.write triggerEnaMaskRegOffset 0#32
  pure 0

/-- The methods for one ASIC: `trigger` of its bit, if there is such an ASIC. -/
def localAsic (trigger : ℤ → Driver ℤ) (asicNumber : ℤ) : Driver ℤ :=
  if asicNumber ≥ nVata ∨ asicNumber < 0 then
    pure 1
  else do
    let _ ← trigger (triggerEnaLocalAsics.getD asicNumber.toNat 0)
    pure 0

/-- `VataCtrl::trigger_enable_local_asic`. -/
def triggerEnableLocalAsic (asicNumber : ℤ) : Driver ℤ :=
  localAsic nVata (triggerEnable undef) asicNumber

/-- `VataCtrl::trigger_disable_local_asic`. -/
def triggerDisableLocalAsic (asicNumber : ℤ) : Driver ℤ :=
  localAsic nVata (triggerDisable undef) asicNumber

/-- The loops over all ASICs. -/
def allLocalAsics (trigger : ℤ → Driver ℤ) : Driver ℤ := do
  Driver.forEach (fun i => do
    let _ ← trigger i
    pure ()) nVata
  pure 0

/-- `VataCtrl::trigger_enable_all_local_asics`. -/
def triggerEnableAllLocalAsics : Driver ℤ :=
  allLocalAsics nVata (triggerEnableLocalAsic undef nVata)

/-- `VataCtrl::trigger_disable_all_local_asics`. -/
def triggerDisableAllLocalAsics : Driver ℤ :=
  allLocalAsics nVata (triggerDisableLocalAsic undef nVata)

/-- `VataCtrl::trigger_enable_tm_hit`. -/
def triggerEnableTmHit : Driver ℤ := triggerEnable undef triggerEnaBitTmHit

/-- `VataCtrl::trigger_disable_tm_hit`. -/
def triggerDisableTmHit : Driver ℤ := triggerDisable undef triggerEnaBitTmHit

/-- `VataCtrl::trigger_enable_tm_ack`. -/
def triggerEnableTmAck : Driver ℤ := triggerEnable undef triggerEnaBitTmAck

/-- `VataCtrl::trigger_disable_tm_ack`. -/
def triggerDisableTmAck : Driver ℤ := triggerDisable undef triggerEnaBitTmAck

/-- `VataCtrl::trigger_enable_forced`. -/
def triggerEnableForced : Driver ℤ := triggerEnable undef triggerEnaBitForceTrigger

/-- `VataCtrl::trigger_disable_forced`. -/
def triggerDisableForced : Driver ℤ := triggerDisable undef triggerEnaBitForceTrigger

/-! ## Calls -/

/-- A call of one of the methods; `enable` of the pair that sets or clears. -/
inductive MaskCall
  | bit (enable : Bool) (maskBit : ℤ)
  | all (enable : Bool)
  | asic (enable : Bool) (asicNumber : ℤ)
  | allAsics (enable : Bool)
  | tmHit (enable : Bool)
  | tmAck (enable : Bool)
  | forced (enable : Bool)
  deriving DecidableEq

/-- The method that is called. -/
def MaskCall.program : MaskCall → Driver ℤ
  | .bit true b => triggerEnable undef b
  | .bit false b => triggerDisable undef b
  | .all true => triggerEnableAll
  | .all false => triggerDisableAll
  | .asic true a => triggerEnableLocalAsic undef nVata a
  | .asic false a => triggerDisableLocalAsic undef nVata a
  | .allAsics true => triggerEnableAllLocalAsics undef nVata
  | .allAsics false => triggerDisableAllLocalAsics undef nVata
  | .tmHit true => triggerEnableTmHit undef
  | .tmHit false => triggerDisableTmHit undef
  | .tmAck true => triggerEnableTmAck undef
  | .tmAck false => triggerDisableTmAck undef
  | .forced true => triggerEnableForced undef
  | .forced false => triggerDisableForced undef

end Methods

/-- The mask register. -/
abbrev maskReg : ℕ := triggerEnaMaskRegOffset

/-! ## What the calls should do -/

namespace MaskCall

variable (nVata : ℕ)

/-- The argument of the call is in its range. -/
def Valid : MaskCall → Prop
  | .bit _ b => 0 ≤ b ∧ b < triggerEnaMaskLen
  | .asic _ a => 0 ≤ a ∧ a < nVata
  | _ => True

/-- The call is about bit `j`. -/
def Covers : MaskCall → ℕ → Prop
  | .bit _ b, j => b = j
  | .all _, _ => True
  | .asic _ a, j => a = j
  | .allAsics _, j => j < nVata
  | .tmHit _, j => j = 12
  | .tmAck _, j => j = 13
  | .forced _, j => j = 14

/-- What the call makes of the bits it covers. -/
def enables : MaskCall → Bool
  | .bit v _ | .all v | .asic v _ | .allAsics v | .tmHit v | .tmAck v | .forced v => v

instance : DecidablePred (Valid nVata)
  | .bit _ _ => inferInstanceAs (Decidable (_ ∧ _))
  | .asic _ _ => inferInstanceAs (Decidable (_ ∧ _))
  | .all _ | .allAsics _ | .tmHit _ | .tmAck _ | .forced _ => inferInstanceAs (Decidable True)

instance (c : MaskCall) : DecidablePred (c.Covers nVata) := fun j =>
  match c with
  | .bit _ b => inferInstanceAs (Decidable (b = j))
  | .all _ => inferInstanceAs (Decidable True)
  | .asic _ a => inferInstanceAs (Decidable (a = j))
  | .allAsics _ => inferInstanceAs (Decidable (j < nVata))
  | .tmHit _ => inferInstanceAs (Decidable (j = 12))
  | .tmAck _ => inferInstanceAs (Decidable (j = 13))
  | .forced _ => inferInstanceAs (Decidable (j = 14))

/-- The value of bit `j` by the last of these calls that is valid and covers it, if there is one. -/
def lastValue (calls : List MaskCall) (j : ℕ) (start : Bool) : Bool :=
  calls.foldl (fun v c => if c.Valid nVata ∧ c.Covers nVata j then c.enables else v) start

end MaskCall

section Calls

variable (undef : ℤ → BitVec 32) (nVata : ℕ)

/-- A call with the registers as they are: what it returns, and the registers it leaves. -/
def callMask (m : ℕ → BitVec 32) (c : MaskCall) : ℤ × (ℕ → BitVec 32) :=
  (c.program undef nVata).eval registers m

/-- The registers after these calls. -/
def afterMask (m : ℕ → BitVec 32) (calls : List MaskCall) : ℕ → BitVec 32 :=
  calls.foldl (fun m c => (callMask undef nVata m c).2) m

/-- Each of these calls returns `1` and leaves the mask as it is if its argument is out of range,
and returns `0` if it is not; each bit ends up with the value of the last valid call that covers
it. -/
structure MaskAlgebra (m : ℕ → BitVec 32) (calls : List MaskCall) : Prop where
  refused : ∀ k c, calls[k]? = some c → ¬ c.Valid nVata →
    (callMask undef nVata (afterMask undef nVata m (calls.take k)) c).1 = 1 ∧
      afterMask undef nVata m (calls.take (k + 1)) maskReg =
        afterMask undef nVata m (calls.take k) maskReg
  accepted : ∀ k c, calls[k]? = some c → c.Valid nVata →
    (callMask undef nVata (afterMask undef nVata m (calls.take k)) c).1 = 0
  bits : ∀ j < 15, (afterMask undef nVata m calls maskReg).getLsbD j =
    MaskCall.lastValue nVata calls j ((m maskReg).getLsbD j)

end Calls

/-! ## One call -/

/-- Set or clear bit `b`. -/
def putBit (enable : Bool) (b : ℕ) (x : BitVec 32) : BitVec 32 :=
  if enable then x ||| 1#32 <<< b else x &&& ~~~(1#32 <<< b)

lemma getLsbD_putBit {v : Bool} {b j : ℕ} {x : BitVec 32} (hj : j < 32) :
    (putBit v b x).getLsbD j = if b = j then v else x.getLsbD j := by
  have hone : (1#32 <<< b).getLsbD j = decide (b = j) := by
    rw [BitVec.getLsbD_shiftLeft, BitVec.getLsbD_one, Bool.eq_iff_iff]
    simp only [Bool.and_eq_true, decide_eq_true_eq, Bool.not_eq_true', decide_eq_false_iff_not]
    omega
  cases v with
  | true =>
      rw [putBit, if_pos rfl, BitVec.getLsbD_or, hone]
      by_cases hbj : b = j <;> simp [hbj]
  | false =>
      rw [putBit, if_neg Bool.false_ne_true, BitVec.getLsbD_and, BitVec.getLsbD_not, hone]
      by_cases hbj : b = j <;> simp [hbj, hj]

section Call

variable {undef : ℤ → BitVec 32} {nVata : ℕ} {m : ℕ → BitVec 32} {v : Bool} {b a : ℤ}
  {j n : ℕ} {c : MaskCall}

@[simp] lemma eval_modify (f : BitVec 32 → BitVec 32) :
    (modify triggerEnaMaskRegOffset f).eval registers m =
      ((), Function.update m maskReg (f (m maskReg))) := rfl

/-- `trigger_enable` and `trigger_disable` of a bit in the range. -/
lemma callMask_bit (hb : 0 ≤ b ∧ b < triggerEnaMaskLen) : callMask undef nVata m (.bit v b) =
    (0, Function.update m maskReg (putBit v b.toNat (m maskReg))) := by
  have hlow : ¬ (b ≥ triggerEnaMaskLen ∨ b < 0) := by omega
  have hlow' : ¬ b ≥ triggerEnaMaskLen := by omega
  have hneg : ¬ b < 0 := by omega
  cases v with
  | true =>
      rw [callMask, MaskCall.program, triggerEnable, if_neg hlow]
      simp [shiftOne, hneg, putBit]
  | false =>
      rw [callMask, MaskCall.program, triggerDisable, if_neg hlow']
      simp [shiftOne, hneg, putBit]

/-- The named bits. -/
lemma program_named :
    (MaskCall.tmHit v).program undef nVata = (MaskCall.bit v 12).program undef nVata ∧
    (MaskCall.tmAck v).program undef nVata = (MaskCall.bit v 13).program undef nVata ∧
    (MaskCall.forced v).program undef nVata = (MaskCall.bit v 14).program undef nVata := by
  cases v <;> exact ⟨rfl, rfl, rfl⟩

lemma callMask_all : callMask undef nVata m (.all v) =
    (0, Function.update m maskReg (if v then 0xFFFFFFFF#32 else 0#32)) := by
  cases v <;> rfl

/-- The methods of one ASIC. -/
lemma callMask_asic (hn : nVata ≤ 12) (ha : 0 ≤ a ∧ a < nVata) :
    callMask undef nVata m (.asic v a) =
      (0, Function.update m maskReg (putBit v a.toNat (m maskReg))) := by
  have hvalid : ¬ (a ≥ nVata ∨ a < 0) := by omega
  have hbit : triggerEnaLocalAsics.getD a.toNat 0 = a := by
    have hall : ∀ k < 12, triggerEnaLocalAsics.getD k 0 = k := by decide
    rw [hall a.toNat (by omega)]
    omega
  have hcall : callMask undef nVata m (.bit v a) = _ := callMask_bit
    ⟨ha.1, by unfold triggerEnaMaskLen; omega⟩
  have hprogram : (MaskCall.asic v a).program undef nVata =
      (MaskCall.bit v a).program undef nVata >>= fun _ => pure 0 := by
    cases v with
    | true =>
        show triggerEnableLocalAsic undef nVata a = triggerEnable undef a >>= fun _ => pure 0
        rw [triggerEnableLocalAsic, localAsic, if_neg hvalid, hbit]
    | false =>
        show triggerDisableLocalAsic undef nVata a = triggerDisable undef a >>= fun _ => pure 0
        rw [triggerDisableLocalAsic, localAsic, if_neg hvalid, hbit]
  rw [callMask, hprogram, eval_bind]
  rw [callMask] at hcall
  rw [hcall]
  rfl

/-- The loop over the first `n` ASICs. -/
lemma eval_forEach_asic (undef : ℤ → BitVec 32) (m : ℕ → BitVec 32) (v : Bool)
    (hn : nVata ≤ 12) (hle : n ≤ nVata) : ∃ x : BitVec 32,
    (Driver.forEach (fun i => (MaskCall.asic v i).program undef nVata >>= fun _ => pure ()) n).eval
      registers m = ((), Function.update m maskReg x) ∧
    ∀ j < 15, x.getLsbD j = if j < n then v else (m maskReg).getLsbD j := by
  induction n with
  | zero => exact ⟨m maskReg, by rw [Function.update_eq_self]; rfl, by simp⟩
  | succ n ih =>
      obtain ⟨x, hx, hbits⟩ := ih (by omega)
      have hcall : callMask undef nVata (Function.update m maskReg x) (.asic v n) = _ :=
        callMask_asic hn ⟨by omega, by omega⟩
      rw [callMask] at hcall
      refine ⟨putBit v n x, ?_, fun j hj => ?_⟩
      · rw [Driver.forEach, eval_bind, hx, eval_bind, hcall, Function.update_self,
          Function.update_idem]
        rfl
      · rw [getLsbD_putBit (by omega), hbits j hj]
        by_cases hjn : n = j
        · simp [hjn]
        · simp [hjn, show j < n + 1 ↔ j < n by omega]

lemma callMask_allAsics (hn : nVata ≤ 12) : ∃ x : BitVec 32,
    callMask undef nVata m (.allAsics v) = (0, Function.update m maskReg x) ∧
    ∀ j < 15, x.getLsbD j = if j < nVata then v else (m maskReg).getLsbD j := by
  obtain ⟨x, hx, hbits⟩ := eval_forEach_asic undef m v hn le_rfl
  refine ⟨x, ?_, hbits⟩
  have hprogram : (MaskCall.allAsics v).program undef nVata =
      Driver.forEach (fun i => (MaskCall.asic v i).program undef nVata >>= fun _ => pure ()) nVata
        >>= fun _ => pure 0 := by
    cases v <;> rfl
  rw [callMask, hprogram, eval_bind, hx]
  rfl

/-- A call whose argument is out of range does nothing, but for `trigger_disable` of a negative
bit. -/
lemma callMask_of_not_valid (undef : ℤ → BitVec 32) (m : ℕ → BitVec 32)
    (hc : ∀ b, c = .bit false b → 0 ≤ b) (hvalid : ¬ c.Valid nVata) :
    callMask undef nVata m c = (1, m) := by
  cases c with
  | bit v b =>
      have hrange : ¬ (0 ≤ b ∧ b < triggerEnaMaskLen) := hvalid
      cases v with
      | true =>
          rw [callMask, MaskCall.program, triggerEnable, if_pos (by omega)]
          rfl
      | false =>
          have hpos := hc b rfl
          rw [callMask, MaskCall.program, triggerDisable, if_pos (by omega)]
          rfl
  | asic v a =>
      have hrange : ¬ (0 ≤ a ∧ a < nVata) := hvalid
      have hout : a ≥ nVata ∨ a < 0 := by omega
      cases v with
      | true =>
          rw [callMask, MaskCall.program, triggerEnableLocalAsic, localAsic, if_pos hout]
          rfl
      | false =>
          rw [callMask, MaskCall.program, triggerDisableLocalAsic, localAsic, if_pos hout]
          rfl
  | all _ | allAsics _ | tmHit _ | tmAck _ | forced _ => exact absurd trivial hvalid

/-- A call whose argument is in range puts its value into the bits it covers. -/
lemma callMask_of_valid (undef : ℤ → BitVec 32) (m : ℕ → BitVec 32) (hn : nVata ≤ 12)
    (hvalid : c.Valid nVata) : ∃ x : BitVec 32,
    callMask undef nVata m c = (0, Function.update m maskReg x) ∧
    ∀ j < 15, x.getLsbD j = if c.Covers nVata j then c.enables else (m maskReg).getLsbD j := by
  have hnamed : ∀ {k : ℕ}, k < 15 → ∀ v, ∃ x : BitVec 32,
      callMask undef nVata m (.bit v k) = (0, Function.update m maskReg x) ∧
      ∀ j < 15, x.getLsbD j = if j = k then v else (m maskReg).getLsbD j := by
    intro k hk v
    refine ⟨_, callMask_bit ⟨by omega, by unfold triggerEnaMaskLen; omega⟩, fun j hj => ?_⟩
    rw [getLsbD_putBit (by omega), Int.toNat_natCast]
    exact if_congr eq_comm rfl rfl
  cases c with
  | bit v b =>
      refine ⟨_, callMask_bit hvalid, fun j hj => ?_⟩
      obtain ⟨hpos, -⟩ := hvalid
      rw [getLsbD_putBit (by omega)]
      exact if_congr (by simp only [MaskCall.Covers]; omega) rfl rfl
  | all v =>
      refine ⟨_, callMask_all, fun j hj => ?_⟩
      have hones : (0xFFFFFFFF#32).getLsbD j = true := by
        rw [show 0xFFFFFFFF#32 = BitVec.allOnes 32 from rfl, BitVec.getLsbD_allOnes]
        simp
        omega
      cases v with
      | true => exact hones
      | false => exact BitVec.getLsbD_zero
  | asic v a =>
      refine ⟨_, callMask_asic hn hvalid, fun j hj => ?_⟩
      obtain ⟨hpos, -⟩ := hvalid
      rw [getLsbD_putBit (by omega)]
      exact if_congr (by simp only [MaskCall.Covers]; omega) rfl rfl
  | allAsics v => exact callMask_allAsics hn
  | tmHit v =>
      rw [callMask, program_named.1]
      exact hnamed (k := 12) (by decide) v
  | tmAck v =>
      rw [callMask, program_named.2.1]
      exact hnamed (k := 13) (by decide) v
  | forced v =>
      rw [callMask, program_named.2.2]
      exact hnamed (k := 14) (by decide) v

/-- `trigger_disable` of a negative bit returns `0`. -/
lemma callMask_negative (hb : b < 0) : (callMask undef nVata m (.bit false b)).1 = 0 := by
  have hlow : ¬ b ≥ triggerEnaMaskLen := by
    unfold triggerEnaMaskLen
    omega
  rw [callMask, MaskCall.program, triggerDisable, if_neg hlow]
  rfl

end Call

/-! ## A sequence of calls -/

section Sequence

variable {undef : ℤ → BitVec 32} {nVata : ℕ} {m : ℕ → BitVec 32} {calls : List MaskCall}
  {c : MaskCall} {k j : ℕ}

lemma afterMask_take_succ (h : calls[k]? = some c) :
    afterMask undef nVata m (calls.take (k + 1)) =
      (callMask undef nVata (afterMask undef nVata m (calls.take k)) c).2 := by
  rw [afterMask, List.take_add_one, h, List.foldl_append]
  rfl

/-- Each bit has its last value. -/
lemma getLsbD_afterMask (hn : nVata ≤ 12) (hj : j < 15)
    (hcalls : ∀ b, MaskCall.bit false b ∈ calls → 0 ≤ b) :
    (afterMask undef nVata m calls maskReg).getLsbD j =
      MaskCall.lastValue nVata calls j ((m maskReg).getLsbD j) := by
  induction calls generalizing m with
  | nil => rfl
  | cons c calls ih =>
      have hrest := ih (m := (callMask undef nVata m c).2)
        fun b hb => hcalls b (List.mem_cons_of_mem c hb)
      rw [afterMask, List.foldl_cons, ← afterMask, hrest, MaskCall.lastValue, MaskCall.lastValue,
        List.foldl_cons]
      congr 1
      by_cases hvalid : c.Valid nVata
      · obtain ⟨x, hx, hbits⟩ := callMask_of_valid undef m hn hvalid
        rw [hx]
        dsimp only
        rw [Function.update_self, hbits j hj]
        exact if_congr (and_iff_right hvalid).symm rfl rfl
      · have hskip := callMask_of_not_valid undef m (fun b hb => hcalls b (by simp [hb])) hvalid
        rw [hskip, if_neg fun hand => hvalid hand.1]

/-- **The trigger mask.**  A sequence of calls is what it should be exactly if `trigger_disable` is
never called with a negative bit. -/
theorem maskAlgebra_iff (undef : ℤ → BitVec 32) {nVata : ℕ} (hn : nVata ≤ 12)
    (m : ℕ → BitVec 32) (calls : List MaskCall) :
    MaskAlgebra undef nVata m calls ↔ ∀ b, MaskCall.bit false b ∈ calls → 0 ≤ b := by
  constructor
  · intro hall b hb
    by_contra hneg
    obtain ⟨k, hk⟩ := List.mem_iff_getElem?.mp hb
    have hvalid : ¬ (MaskCall.bit false b).Valid nVata := fun hvalid => hneg hvalid.1
    have hone := (hall.refused k _ hk hvalid).1
    rw [callMask_negative (by omega)] at hone
    exact absurd hone (by decide)
  · intro hcalls
    have hmem : ∀ {k : ℕ} {c : MaskCall}, calls[k]? = some c → ∀ b, c = .bit false b → 0 ≤ b := by
      rintro k c hk b rfl
      exact hcalls b (List.mem_of_getElem? hk)
    refine ⟨fun k c hk hvalid => ?_, fun k c hk hvalid => ?_,
      fun j hj => getLsbD_afterMask hn hj hcalls⟩
    · rw [afterMask_take_succ hk, callMask_of_not_valid undef _ (hmem hk) hvalid]
      exact ⟨rfl, rfl⟩
    · obtain ⟨x, hx, -⟩ := callMask_of_valid undef _ hn hvalid
      rw [hx]

/-- Bit `3` of an empty mask, enabled and then disabled for ASIC `3` of twelve. -/
theorem enableDisable_algebra : MaskAlgebra (fun _ => 0#32) 12 (fun _ => 0#32)
    [.bit true 3, .asic false 3] :=
  (maskAlgebra_iff (fun _ => 0#32) (le_refl 12) _ _).mpr (by simp)

/-- `trigger_disable(-1)` returns `0`. -/
theorem negative_not_refused : ¬ ∀ (undef : ℤ → BitVec 32) (nVata : ℕ) (m : ℕ → BitVec 32)
    (calls : List MaskCall), nVata ≤ 12 → MaskAlgebra undef nVata m calls := by
  intro hclaim
  have hone := ((hclaim (fun _ => 0#32) 12 (fun _ => 0#32) [.bit false (-1)] le_rfl).refused
    0 _ rfl (by decide)).1
  rw [callMask_negative (by decide)] at hone
  exact absurd hone (by decide)

end Sequence

/-! ## The calls in a run of the core -/

/-- The mask is the only register that is loaded. -/
def OnMask (k : ℕ) : Prop := k = maskReg

section Never

variable {undef : ℤ → BitVec 32} {nVata : ℕ}

lemma never_bit (v : Bool) (b : ℤ) :
    Never (Hidden OnMask) ((MaskCall.bit v b).program undef nVata) := by
  cases v <;> simp [MaskCall.program, triggerEnable, triggerDisable, modify, OnMask,
    Program.bind_assoc]

lemma never_asic (v : Bool) (a : ℤ) :
    Never (Hidden OnMask) ((MaskCall.asic v a).program undef nVata) := by
  have hbit : ∀ b, Never (Hidden OnMask) ((MaskCall.bit v b).program undef nVata) := never_bit v
  cases v with
  | true => exact never_ite.mpr ⟨fun _ => never_done,
      fun _ => (hbit _).bind fun _ => never_done⟩
  | false => exact never_ite.mpr ⟨fun _ => never_done,
      fun _ => (hbit _).bind fun _ => never_done⟩

lemma never_forEach {bad : Access → Prop} {body : ℕ → Driver Unit}
    (h : ∀ i, Never bad (body i)) (n : ℕ) : Never bad (Driver.forEach body n) := by
  induction n with
  | zero => exact never_done
  | succ n ih => exact ih.bind fun _ => h n

lemma never_program (c : MaskCall) : Never (Hidden OnMask) (c.program undef nVata) := by
  cases c with
  | bit v b => exact never_bit v b
  | asic v a => exact never_asic v a
  | all v => cases v <;> simp [MaskCall.program, triggerEnableAll, triggerDisableAll]
  | allAsics v =>
      have hbody : ∀ i : ℕ, Never (Hidden OnMask)
          ((MaskCall.asic v i).program undef nVata >>= fun _ => (pure () : Driver Unit)) :=
        fun i => (never_asic v i).bind fun _ => never_done
      cases v <;> exact (never_forEach hbody nVata).bind fun _ => never_done
  | tmHit v =>
      rw [program_named.1]
      exact never_bit v 12
  | tmAck v =>
      rw [program_named.2.1]
      exact never_bit v 13
  | forced v =>
      rw [program_named.2.2]
      exact never_bit v 14

end Never

end TrackerFpga.Vata.Ctrl

namespace TrackerFpga.Vata.Core.Run

open AxiLite Interaction Mapped Ctrl

variable {r : Run} {undef : ℤ → BitVec 32} {nVata : ℕ} {c : MaskCall} {calls : List MaskCall}
  {t t' j : ℕ} {a : ℤ}

/-- A call of one of the methods in a run of the core does to its registers what it does to the
memory. -/
lemma exec_maskCall (h : Exec r.bus.env (c.program undef nVata) t a t') :
    callMask undef nVata (held (r.slvReg t)) c = (a, held (r.slvReg t')) := by
  refine eval_of_exec (fun u => ⟨_, _, r.file_succ u, fun k hk => ?_⟩) h (never_program c)
  have hmask : k.val = 21 := hk
  rw [regDataOut, hmask]
  rfl

/-- These calls are performed one after the other, from cycle `t` to cycle `t'`. -/
def MaskCalls (r : Run) (undef : ℤ → BitVec 32) (nVata : ℕ) (t : ℕ) (calls : List MaskCall)
    (t' : ℕ) : Prop :=
  Labelled.Trace (fun t c t' => ∃ a, Exec r.bus.env (MaskCall.program undef nVata c) t a t')
    t calls t'

/-- **The mask of a core.**  After calls of which none disables a negative bit, each of the fifteen
ports of the interface that let a trigger through is what the last valid call has made of it. -/
theorem enabled_of_calls (hn : nVata ≤ 12) (hcalls : ∀ b, MaskCall.bit false b ∈ calls → 0 ≤ b)
    (h : r.MaskCalls undef nVata t calls t') :
    (∀ j < 12, ((r.fsm.inp t').localVataTriggerEna).getLsbD j =
      MaskCall.lastValue nVata calls j (((r.fsm.inp t).localVataTriggerEna).getLsbD j)) ∧
    (r.fsm.inp t').fastOrTriggerEna =
      MaskCall.lastValue nVata calls 12 (r.fsm.inp t).fastOrTriggerEna ∧
    (r.fsm.inp t').ackTriggerEna =
      MaskCall.lastValue nVata calls 13 (r.fsm.inp t).ackTriggerEna ∧
    (r.fsm.inp t').forceTriggerEna =
      MaskCall.lastValue nVata calls 14 (r.fsm.inp t).forceTriggerEna := by
  have hafter : afterMask undef nVata (held (r.slvReg t)) calls = held (r.slvReg t') := by
    clear hcalls
    induction h with
    | nil t => rfl
    | cons hcall _ ih =>
        obtain ⟨a, hexec⟩ := hcall
        rw [afterMask, List.foldl_cons, exec_maskCall hexec]
        exact ih
  have hbits : ∀ j < 15, (held (r.slvReg t') maskReg).getLsbD j =
      MaskCall.lastValue nVata calls j ((held (r.slvReg t) maskReg).getLsbD j) := by
    intro j hj
    rw [← hafter]
    exact getLsbD_afterMask hn hj hcalls
  have hlocal : ∀ u, ∀ j < 12, ((r.fsm.inp u).localVataTriggerEna).getLsbD j =
      (held (r.slvReg u) maskReg).getLsbD j := by
    intro u j hj
    show ((r.slvReg u ⟨21, by decide⟩).extractLsb' 0 12).getLsbD j = _
    rw [BitVec.getLsbD_extractLsb', decide_eq_true hj, Bool.true_and, Nat.zero_add]
    rfl
  refine ⟨fun j hj => ?_, hbits 12 (by decide), hbits 13 (by decide), hbits 14 (by decide)⟩
  rw [hlocal t' j hj, hlocal t j hj]
  exact hbits j (by omega)

end TrackerFpga.Vata.Core.Run
