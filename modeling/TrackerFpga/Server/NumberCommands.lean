import TrackerFpga.Server.Devices
import TrackerFpga.Vata.TriggerMask

/-!
# The commands with a number

Eleven sub-commands of `cal`, `dac` and `sync` take a number.  Those of `cal` and `sync` read it by
`_parse_positive_int`, those of `dac` by `atoi`; each takes the numbers of its own range, and calls
one method of a driver with them (`NumberCommand.call`), and answers every other argument by an
error.  `answers_number` says so of a whole request, with the number as the code reads it
(`NumberCommand.value`).
-/

namespace TrackerFpga.Server

open ByteCodec CString Interaction Mapped Vata

namespace LayerServer

open Method

/-- The flags of the calibrator. -/
inductive CalFlag
  | pulseEna
  | triggerEna
  | fastOrDisable
  deriving DecidableEq

/-- The settings with another value of the flag. -/
def CalFlag.set (calctrl : CalCtrl) : CalFlag → Bool → CalCtrl
  | .pulseEna, ena => { calctrl with calPulseEna := ena }
  | .triggerEna, ena => { calctrl with vataTriggerEna := ena }
  | .fastOrDisable, dis => { calctrl with vataFastOrDisable := dis }

/-- The numbers in the settings of the calibrator. -/
inductive CalNumber
  | pulseWidth
  | triggerDelay
  | repeatDelay
  deriving DecidableEq

/-- The settings with another value of the number. -/
def CalNumber.set (calctrl : CalCtrl) : CalNumber → BitVec 32 → CalCtrl
  | .pulseWidth, n => { calctrl with calPulseWidth := n }
  | .triggerDelay, n => { calctrl with vataTriggerDelay := n }
  | .repeatDelay, n => { calctrl with repetitionDelay := n }

/-- The method of `SyncCtrl` for one asic. -/
def asicHitAction (ena : Bool) (n : ℤ) : SyncAction :=
  if ena then .asicHitEnable n else .asicHitDisable n

/-- The sub-commands with a number; `dac set-counts` has a side and a DAC besides. -/
inductive NumberCommand
  | flag (f : CalFlag)
  | setting (f : CalNumber)
  | nPulses
  | setDelay
  | setCounts (side : SilayerSide) (choice : DacChoice)
  | asicHit (ena : Bool)
  deriving DecidableEq

namespace NumberCommand

/-- The least and the largest number that a command takes. -/
def bounds (nVata : ℕ) : NumberCommand → ℤ × ℤ
  | .flag _ => (0, 1)
  | .setting _ => (0, 2147483647)
  | .nPulses => (1, 2147483647)
  | .setDelay => (0, 65535)
  | .setCounts _ _ => (0, 4095)
  | .asicHit _ => (0, nVata - 1)

/-- The range of a command. -/
def InRange (nVata : ℕ) (c : NumberCommand) (n : ℤ) : Prop :=
  (c.bounds nVata).1 ≤ n ∧ n ≤ (c.bounds nVata).2

instance (nVata : ℕ) (c : NumberCommand) (n : ℤ) : Decidable (c.InRange nVata n) :=
  inferInstanceAs (Decidable (_ ∧ _))

/-- The number that the command makes of its argument. -/
def value : NumberCommand → Option Token → ℤ
  | .setDelay, arg => arg.elim (-1) atoi
  | .setCounts _ _, arg => arg.elim (-1) atoi
  | _, arg => (parsed arg).1

/-- The settings of the calibrator after the command. -/
def settings (calctrl : CalCtrl) (n : ℤ) : NumberCommand → CalCtrl
  | .flag f => f.set calctrl (n = 1)
  | .setting f => f.set calctrl (BitVec.ofInt 32 n)
  | _ => calctrl

/-- The method that the command calls. -/
def call (calctrl : CalCtrl) (n : ℤ) (c : NumberCommand) : Call :=
  match c with
  | .flag _ => .cal (.writeSettings (c.settings calctrl n))
  | .setting _ => .cal (.writeSettings (c.settings calctrl n))
  | .nPulses => .cal (.nPulses calctrl (BitVec.ofInt 32 n))
  | .setDelay => .dac (.setDelay (BitVec.ofInt 32 n))
  | .setCounts side choice => .dac (.setCounts side choice (BitVec.ofInt 32 n))
  | .asicHit ena => .sync (asicHitAction ena n)

/-- The devices after the command. -/
def after (nVata : ℕ) (calctrl : CalCtrl) (n : ℤ) (d : Devices) (c : NumberCommand) : Devices :=
  match c.call calctrl n with
  | .cal a => d.afterCal a
  | .dac a => d.afterDac a
  | .sync a => d.afterSync nVata a
  | _ => d

end NumberCommand

/-! ## Requests -/

/-- A request for a command with a number.  Where `dac set-counts` has no side or no DAC, it is for
no command. -/
structure NumberRequest where
  command : Option NumberCommand
  arg : Option Token
  deriving DecidableEq

/-- The sub-commands of `cal` that take a number. -/
def calNumberCommand : CalCommand → Option NumberCommand
  | .pulseEna => some (.flag .pulseEna)
  | .triggerEna => some (.flag .triggerEna)
  | .fastOrDisable => some (.flag .fastOrDisable)
  | .pulseWidth => some (.setting .pulseWidth)
  | .triggerDelay => some (.setting .triggerDelay)
  | .repeatDelay => some (.setting .repeatDelay)
  | .nPulses => some .nPulses
  | .startInf | .stopInf => none

/-- `dac set-counts` with these arguments. -/
def countsCommand : List Token → Option NumberCommand
  | sideStr :: choiceStr :: _ => do
      let side ← parseSilayerSide sideStr
      let choice ← parseDacChoice choiceStr
      pure (.setCounts side choice)
  | _ => none

/-- The sub-commands of `sync` that take a number. -/
def syncNumberCommand : SyncCommand → Option NumberCommand
  | .asicHitEnable => some (.asicHit true)
  | .asicHitDisable => some (.asicHit false)
  | _ => none

/-- The command in the tokens after the first word. -/
def numberParts (cmd : Token) (args : List Token) : Group → Option NumberRequest
  | .cal => do
      let command ← lookup calTable cmd
      let c ← calNumberCommand command
      pure ⟨some c, args.head?⟩
  | .dac => do
      let command ← lookup dacTable cmd
      match command with
      | .setDelay => pure ⟨some .setDelay, args.head?⟩
      | .setCounts => pure ⟨countsCommand args, args[2]?⟩
      | .getDelay | .getInput => none
  | .sync => do
      let command ← lookup syncTable cmd
      let c ← syncNumberCommand command
      pure ⟨some c, args.head?⟩
  | .emit | .vata | .getNVata | .halt => none

/-- The command with a number that a request comes to, if it does. -/
def numberRequest (request : List Byte) : Option NumberRequest :=
  match lookup groupTable (ofBuffer request), (tokens (ofBuffer request)).tail with
  | some group, cmd :: args => numberParts cmd args group
  | _, _ => none

example : numberRequest (bytes "dac set-counts B vth 100") =
    some ⟨some (.setCounts .sideB .vthDac), some (bytes "100")⟩ := by decide

/-! ## What the commands do -/

/-- The command takes its argument and returns `a` after the call `o`, which leaves the devices
`d`; or it fails, and calls nothing. -/
structure Takes {α : Type} (nVata : ℕ) (others : (o : Call) → Option o.Answer) (p : Method α)
    (w : World) (taken : Prop) (a : α) (failed : α → Prop) (o : Call) (d : Devices) : Prop where
  accepts : taken → Ends nVata others p w a [] [o] d
  refuses : ¬ taken → ∃ b, failed b ∧ Ends nVata others p w b [] [] w.devices

/-- The same with the reply: `ok`, or an error. -/
structure Answers {α : Type} (nVata : ℕ) (others : (o : Call) → Option o.Answer) (p : Method α)
    (w : World) (taken : Prop) (a b : α) (o : Call) (d : Devices) : Prop where
  accepts : taken → Ends nVata others p w a [bytes "ok" ++ [0#8]] [o] d
  refuses : ¬ taken → ∃ msg, Ends nVata others p w b [msg] [] w.devices ∧ IsError msg

section Commands

variable {nVata : ℕ} {others : (o : Call) → Option o.Answer} {w : World} {calctrl : CalCtrl}
  {taken : Prop} {o : Call} {d : Devices} {retmsg unparsed outOfRange : String}

lemma parsed_le (arg : Option Token) : (parsed arg).1 ≤ 2147483647 := by
  cases arg with
  | none => decide
  | some a =>
      show positiveInt a ≤ 2147483647
      rw [positiveInt]
      split_ifs
      · decide
      · exact (strtol_bounds 0 a).2

lemma takes_calFlag (f : CalFlag) {v : ℤ} (hv : (parsed w.tokens.head?).1 = v) :
    Takes nVata others (calFlag calctrl (f.set calctrl)) w
      ((NumberCommand.flag f).InRange nVata v) (0, f.set calctrl (v = 1))
      (fun r => r = (1, calctrl)) (.cal (.writeSettings (f.set calctrl (v = 1))))
      (w.devices.afterCal (.writeSettings (f.set calctrl (v = 1)))) := by
  have hrange : (NumberCommand.flag f).InRange nVata v ↔ 0 ≤ v ∧ v ≤ 1 := Iff.rfl
  rw [hrange]
  constructor
  · intro htaken
    refine ends_parse fun w₁ _ hdevices => ?_
    simp only [hv]
    rw [if_neg (by omega), ← hdevices]
    by_cases hone : v = 1
    · rw [if_neg (by omega), if_pos hone, decide_eq_true hone]
      exact ends_cal fun w₂ hdevices' => ends_pure hdevices'
    · rw [if_pos (by omega), decide_eq_false hone]
      exact ends_cal fun w₂ hdevices' => ends_pure hdevices'
  · intro htaken
    refine ⟨_, rfl, ends_parse fun w₁ _ hdevices => ?_⟩
    simp only [hv]
    by_cases hneg : v < 0
    · rw [if_pos hneg]
      exact ends_pure hdevices
    · rw [if_neg hneg, if_neg (by omega), if_neg (by omega)]
      exact ends_pure hdevices

lemma takes_calNumber (f : CalNumber) {v : ℤ} (hv : (parsed w.tokens.head?).1 = v) :
    Takes nVata others (calNumber calctrl (f.set calctrl)) w
      ((NumberCommand.setting f).InRange nVata v) (0, f.set calctrl (BitVec.ofInt 32 v))
      (fun r => r = (1, calctrl)) (.cal (.writeSettings (f.set calctrl (BitVec.ofInt 32 v))))
      (w.devices.afterCal (.writeSettings (f.set calctrl (BitVec.ofInt 32 v)))) := by
  have hle : v ≤ 2147483647 := hv ▸ parsed_le _
  have hrange : (NumberCommand.setting f).InRange nVata v ↔ 0 ≤ v ∧ v ≤ 2147483647 := Iff.rfl
  rw [hrange]
  constructor
  · intro htaken
    refine ends_parse fun w₁ _ hdevices => ?_
    simp only [hv]
    rw [if_neg (by omega), ← hdevices]
    exact ends_cal fun w₂ hdevices' => ends_pure hdevices'
  · intro htaken
    refine ⟨_, rfl, ends_parse fun w₁ _ hdevices => ?_⟩
    simp only [hv]
    rw [if_pos (by omega)]
    exact ends_pure hdevices

lemma takes_calNPulses {v : ℤ} (hv : (parsed w.tokens.head?).1 = v) :
    Takes nVata others (calNPulses calctrl) w (NumberCommand.nPulses.InRange nVata v) 0
      (fun ret => ret = 1 ∨ ret = 2) (.cal (.nPulses calctrl (BitVec.ofInt 32 v)))
      (w.devices.afterCal (.nPulses calctrl (BitVec.ofInt 32 v))) := by
  have hle : v ≤ 2147483647 := hv ▸ parsed_le _
  have hrange : NumberCommand.nPulses.InRange nVata v ↔ 1 ≤ v ∧ v ≤ 2147483647 := Iff.rfl
  rw [hrange]
  constructor
  · intro htaken
    refine ends_parse fun w₁ _ hdevices => ?_
    simp only [hv]
    rw [if_neg (by omega), if_neg (by omega), ← hdevices]
    exact ends_of_bind_pure (ends_cal fun w₂ hdevices' => ends_pure hdevices')
  · intro htaken
    by_cases hneg : v < 0
    · refine ⟨1, .inl rfl, ends_parse fun w₁ _ hdevices => ?_⟩
      simp only [hv]
      rw [if_pos hneg]
      exact ends_pure hdevices
    · refine ⟨2, .inr rfl, ends_parse fun w₁ _ hdevices => ?_⟩
      simp only [hv]
      rw [if_neg hneg, if_pos (by omega)]
      exact ends_pure hdevices

/-- What the comparison of an `int` with a maximum says once it is cast to `u32`. -/
lemma ofInt_le_iff {v : ℤ} {m : ℕ} (hm : m < 2147483648)
    (hv : -2147483648 ≤ v ∧ v ≤ 2147483647) :
    ¬ BitVec.ofNat 32 m < BitVec.ofInt 32 v ↔ 0 ≤ v ∧ v ≤ m := by
  rw [BitVec.lt_def, BitVec.toNat_ofNat, BitVec.toNat_ofInt]
  omega

lemma atoi_bounds (a : Token) : -2147483648 ≤ atoi a ∧ atoi a ≤ 2147483647 := strtol_bounds 10 a

lemma takes_dacSetDelay {v : ℤ} (hv : w.tokens.head?.elim (-1) atoi = v) :
    Takes nVata others dacSetDelay w (NumberCommand.setDelay.InRange nVata v) 0
      (fun ret => ret = 1 ∨ ret = 2) (.dac (.setDelay (BitVec.ofInt 32 v)))
      (w.devices.afterDac (.setDelay (BitVec.ofInt 32 v))) := by
  cases hhead : w.tokens.head? with
  | none =>
      obtain rfl : -1 = v := by rwa [hhead] at hv
      refine ⟨fun htaken => absurd (show (0 : ℤ) ≤ -1 from htaken.1) (by decide),
        fun _ => ⟨1, .inl rfl, ?_⟩⟩
      refine ends_strtok fun w₁ _ hdevices => ?_
      rw [hhead]
      exact ends_pure hdevices
  | some a =>
      obtain rfl : atoi a = v := by rwa [hhead] at hv
      have hrange : NumberCommand.setDelay.InRange nVata (atoi a) ↔
          ¬ Dac.DacCtrl.maxDelay < BitVec.ofInt 32 (atoi a) :=
        (ofInt_le_iff (m := 65535) (by decide) (atoi_bounds a)).symm
      rw [hrange]
      constructor
      · intro htaken
        refine ends_strtok fun w₁ _ hdevices => ?_
        rw [hhead, ← hdevices]
        refine ends_dac ?_ fun w₂ hdevices' => ends_pure hdevices'
        simp [Dac.DacCtrl.Call.method, Dac.DacCtrl.setDelay, htaken]
      · intro htaken
        refine ⟨2, .inr rfl, ends_strtok fun w₁ _ hdevices => ?_⟩
        rw [hhead]
        refine ends_dac_refused ?_ fun w₂ hdevices' => ends_pure (hdevices'.trans hdevices)
        simp only [not_not] at htaken
        simp [Dac.DacCtrl.Call.method, Dac.DacCtrl.setDelay, htaken]

section Counts

variable {sideStr choiceStr countStr : Token} {side : SilayerSide} {choice : DacChoice}

lemma setCounts_inRange_iff : (NumberCommand.setCounts side choice).InRange nVata (atoi countStr) ↔
    ¬ Dac.DacCtrl.maxInput < BitVec.ofInt 32 (atoi countStr) :=
  (ofInt_le_iff (m := 4095) (by decide) (atoi_bounds countStr)).symm

variable (hside : parseSilayerSide sideStr = some side)
  (hchoice : parseDacChoice choiceStr = some choice)
include hside hchoice

lemma ends_dacCounts
    (htaken : (NumberCommand.setCounts side choice).InRange nVata (atoi countStr)) :
    Ends nVata others (dacCounts sideStr choiceStr countStr) w 0 []
      [.dac (.setCounts side choice (BitVec.ofInt 32 (atoi countStr)))]
      (w.devices.afterDac (.setCounts side choice (BitVec.ofInt 32 (atoi countStr)))) := by
  rw [setCounts_inRange_iff] at htaken
  rw [dacCounts, hside, hchoice]
  refine ends_dac ?_ fun w₁ hdevices => ends_pure hdevices
  simp [Dac.DacCtrl.Call.method, Dac.DacCtrl.setCounts, htaken]

lemma ends_dacCounts_refused
    (htaken : ¬ (NumberCommand.setCounts side choice).InRange nVata (atoi countStr)) :
    Ends nVata others (dacCounts sideStr choiceStr countStr) w 2 [] [] w.devices := by
  rw [setCounts_inRange_iff, not_not] at htaken
  rw [dacCounts, hside, hchoice]
  refine ends_dac_refused ?_ fun w₁ hdevices => ends_pure hdevices
  simp [Dac.DacCtrl.Call.method, Dac.DacCtrl.setCounts, htaken]

end Counts

/-- The bit of the asic in the mask of the hits that are disabled. -/
lemma asicHit_eval (ena : Bool) (n : ℤ) (m : ℕ → BitVec 32) :
    ((asicHitAction ena n).method nVata).eval registers m =
      if 0 ≤ n ∧ n < nVata then (0, Function.update m 3 (Ctrl.putBit (!ena) n.toNat (m 3)))
      else (1, m) := by
  by_cases hn : 0 ≤ n ∧ n < nVata
  · have hvalid : ¬ (n < 0 ∨ n ≥ nVata) := by omega
    cases ena
    · simp [asicHitAction, SyncAction.method, Sync.SyncCtrl.asicHitDisable, hvalid, hn, Ctrl.putBit]
    · simp [asicHitAction, SyncAction.method, Sync.SyncCtrl.asicHitEnable, hvalid, hn, Ctrl.putBit]
  · have hbad : n < 0 ∨ n ≥ nVata := by omega
    cases ena
    · simp [asicHitAction, SyncAction.method, Sync.SyncCtrl.asicHitDisable, hbad, hn]
    · simp [asicHitAction, SyncAction.method, Sync.SyncCtrl.asicHitEnable, hbad, hn]

lemma takes_asicHit (ena : Bool) {v : ℤ} (hv : (parsed w.tokens.head?).1 = v) :
    Takes nVata others (syncSetAsicHitEnable (asicHitAction ena)) w
      ((NumberCommand.asicHit ena).InRange nVata v) 0 (fun ret => ret = 1)
      (.sync (asicHitAction ena v)) (w.devices.afterSync nVata (asicHitAction ena v)) := by
  have hrange : (NumberCommand.asicHit ena).InRange nVata v ↔ 0 ≤ v ∧ v < nVata :=
    and_congr_right fun _ => Int.le_sub_one_iff
  rw [hrange]
  constructor
  · intro htaken
    refine ends_parse fun w₁ _ hdevices => ?_
    simp only [hv]
    rw [if_neg (by omega), ← hdevices]
    refine ends_sync ?_ fun w₂ hdevices' => ends_pure hdevices'
    rw [asicHit_eval, if_pos htaken]
  · intro htaken
    refine ⟨1, rfl, ends_parse fun w₁ _ hdevices => ?_⟩
    simp only [hv]
    by_cases hneg : v < 0
    · rw [if_pos hneg]
      exact ends_pure hdevices
    · rw [if_neg hneg]
      refine ends_sync_refused ?_ fun w₂ hdevices' => ends_pure (hdevices'.trans hdevices)
      rw [asicHit_eval, if_neg htaken]

/-! ### Replies -/

lemma Takes.calReply {command : Method (ℤ × CalCtrl)} {c : CalCtrl}
    (h : Takes nVata others command w taken (0, c) (fun r => r = (1, calctrl)) o d)
    (herr : IsError (bytes retmsg ++ [0#8])) :
    Answers nVata others (calReply command retmsg) w taken (0, c) (1, calctrl) o d := by
  constructor
  · intro htaken
    refine ends_bind_reply (h.accepts htaken) fun w' hdevices => ?_
    rw [if_neg (by simp)]
    exact ends_send_pure hdevices
  · intro htaken
    obtain ⟨r, rfl, hend⟩ := h.refuses htaken
    refine ⟨_, ends_bind_reply hend fun w' hdevices => ?_, herr⟩
    rw [if_pos one_ne_zero]
    exact ends_send_pure hdevices

lemma answers_calNPulses
    (h : Takes nVata others (calNPulses calctrl) w taken 0 (fun ret => ret = 1 ∨ ret = 2) o d) :
    Answers nVata others (calCommand calctrl (some .nPulses)) w taken (0, calctrl) (1, calctrl)
      o d := by
  constructor
  · intro htaken
    exact ends_bind_reply (h.accepts htaken) fun w' hdevices => ends_send_pure hdevices
  · intro htaken
    obtain ⟨r, rfl | rfl, hend⟩ := h.refuses htaken
    · exact ⟨_, ends_bind_reply hend fun w' hdevices => ends_send_pure hdevices,
        isError_ofList (by decide)⟩
    · exact ⟨_, ends_bind_reply hend fun w' hdevices => ends_send_pure hdevices,
        isError_ofList (by decide)⟩

lemma Takes.dacReply {command : Method ℤ}
    (h : Takes nVata others command w taken 0 (fun ret => ret = 1 ∨ ret = 2) o d)
    (herr : IsError (bytes unparsed ++ [0#8])) (herr' : IsError (bytes outOfRange ++ [0#8])) :
    Answers nVata others (dacReply command unparsed outOfRange) w taken 0 1 o d := by
  constructor
  · intro htaken
    exact ends_bind_reply (h.accepts htaken) fun w' hdevices => ends_send_pure hdevices
  · intro htaken
    obtain ⟨r, rfl | rfl, hend⟩ := h.refuses htaken
    · exact ⟨_, ends_bind_reply hend fun w' hdevices => ends_send_pure hdevices, herr⟩
    · exact ⟨_, ends_bind_reply hend fun w' hdevices => ends_send_pure hdevices, herr'⟩

lemma Takes.syncReply {command : Method ℤ}
    (h : Takes nVata others command w taken 0 (fun ret => ret = 1) o d) :
    Answers nVata others (syncReply command) w taken 0 1 o d := by
  constructor
  · intro htaken
    exact ends_bind_reply (h.accepts htaken) fun w' hdevices => ends_send_pure hdevices
  · intro htaken
    obtain ⟨r, rfl, hend⟩ := h.refuses htaken
    exact ⟨_, ends_bind_reply hend fun w' hdevices => ends_send_pure hdevices,
      isError_ofList (by decide)⟩

/-! ### Requests -/

/-- `_dac_set_counts` with its three tokens. -/
lemma ends_dacSetCounts {sideStr choiceStr countStr : Token} {ts : List Token} {ret : ℤ}
    {acts : List Call} (htokens : w.tokens = sideStr :: choiceStr :: countStr :: ts)
    (h : ∀ w' : World, w'.devices = w.devices →
      Ends nVata others (dacCounts sideStr choiceStr countStr) w' ret [] acts d) :
    Ends nVata others dacSetCounts w ret [] acts d := by
  refine ends_strtok fun w₁ htokens₁ hdevices₁ => ?_
  rw [htokens]
  refine ends_strtok fun w₂ htokens₂ hdevices₂ => ?_
  rw [htokens₁, htokens]
  refine ends_strtok fun w₃ _ hdevices₃ => ?_
  rw [htokens₂, htokens₁, htokens]
  exact h w₃ (hdevices₃.trans (hdevices₂.trans hdevices₁))

/-- With fewer tokens it fails. -/
lemma ends_dacSetCounts_missing (htokens : w.tokens.length < 3) :
    Ends nVata others dacSetCounts w 1 [] [] w.devices := by
  refine ends_strtok fun w₁ htokens₁ hdevices₁ => ?_
  rcases hw : w.tokens with - | ⟨sideStr, - | ⟨choiceStr, - | ⟨countStr, ts⟩⟩⟩
  · exact ends_pure hdevices₁
  · refine ends_strtok fun w₂ htokens₂ hdevices₂ => ?_
    rw [htokens₁, hw]
    exact ends_pure (hdevices₂.trans hdevices₁)
  · refine ends_strtok fun w₂ htokens₂ hdevices₂ => ?_
    rw [htokens₁, hw]
    refine ends_strtok fun w₃ _ hdevices₃ => ?_
    rw [htokens₂, htokens₁, hw]
    exact ends_pure (hdevices₃.trans (hdevices₂.trans hdevices₁))
  · simp [hw] at htokens
    omega

/-- What `dac set-counts` needs in front of the number. -/
lemma exists_of_countsCommand {args : List Token} {c : NumberCommand}
    (hc : countsCommand args = some c) :
    ∃ sideStr choiceStr ts side choice, args = sideStr :: choiceStr :: ts ∧
      parseSilayerSide sideStr = some side ∧ parseDacChoice choiceStr = some choice ∧
      c = .setCounts side choice := by
  rcases args with - | ⟨sideStr, - | ⟨choiceStr, ts⟩⟩
  · simp [countsCommand] at hc
  · simp [countsCommand] at hc
  · obtain ⟨side, hside, hc⟩ := Option.bind_eq_some_iff.mp hc
    obtain ⟨choice, hchoice, hc⟩ := Option.bind_eq_some_iff.mp hc
    exact ⟨_, _, _, _, _, rfl, hside, hchoice, (Option.some.inj hc).symm⟩

lemma takes_dacSetCounts {c : NumberCommand} (hc : countsCommand w.tokens = some c) {v : ℤ}
    (hv : c.value w.tokens[2]? = v) :
    Takes nVata others dacSetCounts w (c.InRange nVata v) 0 (fun ret => ret = 1 ∨ ret = 2)
      (c.call calctrl v) (c.after nVata calctrl v w.devices) := by
  obtain ⟨sideStr, choiceStr, args, side, choice, htokens, hside, hchoice, rfl⟩ :=
    exists_of_countsCommand hc
  cases args with
  | nil =>
      obtain rfl : -1 = v := by rwa [htokens] at hv
      refine ⟨fun htaken => absurd (show (0 : ℤ) ≤ -1 from htaken.1) (by decide),
        fun _ => ⟨1, .inl rfl, ends_dacSetCounts_missing ?_⟩⟩
      simp [htokens]
  | cons countStr ts =>
      obtain rfl : atoi countStr = v := by rwa [htokens] at hv
      constructor
      · refine fun htaken => ends_dacSetCounts htokens fun w' hdevices => ?_
        have hend : Ends nVata others (dacCounts sideStr choiceStr countStr) w' _ _ _ _ :=
          ends_dacCounts hside hchoice htaken
        rwa [hdevices] at hend
      · refine fun htaken => ⟨2, .inr rfl, ends_dacSetCounts htokens fun w' hdevices => ?_⟩
        rw [← hdevices]
        exact ends_dacCounts_refused hside hchoice htaken

lemma ends_dacSetCounts_none (hc : countsCommand w.tokens = none) :
    Ends nVata others dacSetCounts w 1 [] [] w.devices := by
  rcases htokens : w.tokens with - | ⟨sideStr, - | ⟨choiceStr, - | ⟨countStr, ts⟩⟩⟩
  · exact ends_dacSetCounts_missing (by simp [htokens])
  · exact ends_dacSetCounts_missing (by simp [htokens])
  · exact ends_dacSetCounts_missing (by simp [htokens])
  refine ends_dacSetCounts htokens fun w' hdevices => ?_
  rw [htokens] at hc
  rw [dacCounts]
  cases hside : parseSilayerSide sideStr with
  | none => exact ends_pure hdevices
  | some side =>
      cases hchoice : parseDacChoice choiceStr with
      | none => exact ends_pure hdevices
      | some choice => simp [countsCommand, hside, hchoice] at hc

/-- What a dispatcher makes of the answer of a command. -/
lemma Answers.lift {α β : Type} {p : Method α} {q : Method β} {w' : World} {a b : α} (g : α → β)
    (h : Answers nVata others p w' taken a b o d) (hdevices : w'.devices = w.devices)
    (hlift : ∀ r ms acts d', Ends nVata others p w' r ms acts d' →
      Ends nVata others q w (g r) ms acts d') :
    Answers nVata others q w taken (g a) (g b) o d := by
  refine ⟨fun htaken => hlift _ _ _ _ (h.accepts htaken), fun htaken => ?_⟩
  obtain ⟨msg, hend, herror⟩ := h.refuses htaken
  rw [hdevices] at hend
  exact ⟨msg, hlift _ _ _ _ hend, herror⟩

lemma answers_calCommand {command : CalCommand} {c : NumberCommand}
    (hc : calNumberCommand command = some c) {v : ℤ} (hv : c.value w.tokens.head? = v) :
    Answers nVata others (calCommand calctrl (some command)) w (c.InRange nVata v)
      (0, c.settings calctrl v) (1, calctrl) (c.call calctrl v)
      (c.after nVata calctrl v w.devices) := by
  cases command with
  | startInf => simp [calNumberCommand] at hc
  | stopInf => simp [calNumberCommand] at hc
  | pulseEna =>
      obtain rfl := Option.some.inj hc
      exact (takes_calFlag .pulseEna hv).calReply (isError_ofList (by decide))
  | triggerEna =>
      obtain rfl := Option.some.inj hc
      exact (takes_calFlag .triggerEna hv).calReply (isError_ofList (by decide))
  | fastOrDisable =>
      obtain rfl := Option.some.inj hc
      exact (takes_calFlag .fastOrDisable hv).calReply (isError_ofList (by decide))
  | pulseWidth =>
      obtain rfl := Option.some.inj hc
      exact (takes_calNumber .pulseWidth hv).calReply (isError_ofList (by decide))
  | triggerDelay =>
      obtain rfl := Option.some.inj hc
      exact (takes_calNumber .triggerDelay hv).calReply (isError_ofList (by decide))
  | repeatDelay =>
      obtain rfl := Option.some.inj hc
      exact (takes_calNumber .repeatDelay hv).calReply (isError_ofList (by decide))
  | nPulses =>
      obtain rfl := Option.some.inj hc
      exact answers_calNPulses (takes_calNPulses hv)

lemma answers_syncCommand {command : SyncCommand} {c : NumberCommand}
    (hc : syncNumberCommand command = some c) {v : ℤ} (hv : c.value w.tokens.head? = v) :
    Answers nVata others (syncCommand (some command)) w (c.InRange nVata v) 0 1
      (c.call calctrl v) (c.after nVata calctrl v w.devices) := by
  cases command with
  | asicHitEnable =>
      obtain rfl := Option.some.inj hc
      exact (takes_asicHit true hv).syncReply
  | asicHitDisable =>
      obtain rfl := Option.some.inj hc
      exact (takes_asicHit false hv).syncReply
  | _ => simp [syncNumberCommand] at hc

lemma answers_dacCommand {command : DacCommand} {c : NumberCommand} {arg : Option Token}
    (hc : command = .setDelay ∧ c = .setDelay ∧ arg = w.tokens.head? ∨
      command = .setCounts ∧ countsCommand w.tokens = some c ∧ arg = w.tokens[2]?)
    {v : ℤ} (hv : c.value arg = v) :
    Answers nVata others (dacCommand (some command)) w (c.InRange nVata v) 0 1
      (c.call calctrl v) (c.after nVata calctrl v w.devices) := by
  rcases hc with ⟨rfl, rfl, rfl⟩ | ⟨rfl, hcounts, rfl⟩
  · refine (takes_dacSetDelay hv).dacReply ?_ ?_
    · exact isError_ofList (by decide)
    · exact isError_ofList (by decide)
  · refine (takes_dacSetCounts hcounts hv).dacReply ?_ ?_
    · exact isError_ofList (by decide)
    · exact isError_ofList (by decide)

end Commands

section Requests

variable {nVata : ℕ} {others : (o : Call) → Option o.Answer} {w : World} {srv : LayerServer}
  {request : List Byte} {c : NumberCommand} {arg : Option Token}

/-- What such a request consists of. -/
lemma exists_parts_of_numberRequest {r : NumberRequest} (hr : numberRequest request = some r) :
    ∃ group cmd args, lookup groupTable (ofBuffer request) = some group ∧
      (tokens (ofBuffer request)).tail = cmd :: args ∧ numberParts cmd args group = some r := by
  unfold numberRequest at hr
  split at hr
  · exact ⟨_, _, _, ‹_›, ‹_›, hr⟩
  · simp at hr

/-- **Commands with a number.**  A request for one calls its method with the number that the code
makes of its argument, if this is in the range of the command; else it is answered by an error, and
nothing is changed. -/
lemma answers_number (hr : numberRequest request = some ⟨some c, arg⟩) {v : ℤ}
    (hv : c.value arg = v) :
    Answers nVata others (handle nVata srv request) w (c.InRange nVata v)
      (0, { srv with calctrl := c.settings srv.calctrl v }) (1, srv) (c.call srv.calctrl v)
      (c.after nVata srv.calctrl v w.devices) := by
  obtain ⟨group, cmd, args, hgroup, htail, hparts⟩ := exists_parts_of_numberRequest hr
  have hrest : (w.rest args).devices = w.devices := rfl
  cases group with
  | cal =>
      obtain ⟨command, hlookup, hparts⟩ := Option.bind_eq_some_iff.mp hparts
      obtain ⟨c', hc, hparts⟩ := Option.bind_eq_some_iff.mp hparts
      obtain ⟨rfl, rfl⟩ : c' = c ∧ args.head? = arg := by simpa using hparts
      have hcommand : Answers nVata others (calCommand srv.calctrl (some command)) (w.rest args)
          (c'.InRange nVata v) _ _ _ _ := answers_calCommand hc hv
      rw [← hlookup] at hcommand
      exact hcommand.lift (fun r => (r.1, { srv with calctrl := r.2 })) hrest
        fun r ms acts d' hend => ends_calMsg hgroup htail hend
  | dac =>
      obtain ⟨command, hlookup, hparts⟩ := Option.bind_eq_some_iff.mp hparts
      have hc : command = .setDelay ∧ c = .setDelay ∧ arg = args.head? ∨
          command = .setCounts ∧ countsCommand args = some c ∧ arg = args[2]? := by
        cases command with
        | setDelay => simpa [eq_comm] using hparts
        | setCounts => simpa [eq_comm] using hparts
        | _ => simp at hparts
      have hsettings : c.settings srv.calctrl v = srv.calctrl := by
        rcases hc with ⟨-, rfl, -⟩ | ⟨-, hcounts, -⟩
        · rfl
        · obtain ⟨-, -, -, side, choice, -, -, -, rfl⟩ := exists_of_countsCommand hcounts
          rfl
      have hcommand : Answers nVata others (dacCommand (some command)) (w.rest args)
          (c.InRange nVata v) 0 1 (c.call srv.calctrl v)
          (c.after nVata srv.calctrl v w.devices) := answers_dacCommand hc hv
      rw [← hlookup] at hcommand
      rw [hsettings]
      exact hcommand.lift (fun ret => (ret, srv)) hrest
        fun r ms acts d' hend => ends_dacMsg hgroup htail hend
  | sync =>
      obtain ⟨command, hlookup, hparts⟩ := Option.bind_eq_some_iff.mp hparts
      obtain ⟨c', hc, hparts⟩ := Option.bind_eq_some_iff.mp hparts
      obtain ⟨rfl, rfl⟩ : c' = c ∧ args.head? = arg := by simpa using hparts
      have hsettings : c'.settings srv.calctrl v = srv.calctrl := by
        cases command with
        | asicHitEnable =>
            obtain rfl := Option.some.inj hc
            rfl
        | asicHitDisable =>
            obtain rfl := Option.some.inj hc
            rfl
        | _ => simp [syncNumberCommand] at hc
      have hcommand : Answers nVata others (syncCommand (some command)) (w.rest args)
          (c'.InRange nVata v) 0 1 (c'.call srv.calctrl v)
          (c'.after nVata srv.calctrl v w.devices) := answers_syncCommand hc hv
      rw [← hlookup] at hcommand
      rw [hsettings]
      exact hcommand.lift (fun ret => (ret, srv)) hrest
        fun r ms acts d' hend => ends_syncMsg hgroup htail hend
  | emit => simp [numberParts] at hparts
  | vata => simp [numberParts] at hparts
  | getNVata => simp [numberParts] at hparts
  | halt => simp [numberParts] at hparts

/-- A `dac set-counts` without a side or a DAC is answered by an error. -/
lemma ends_no_number (hr : numberRequest request = some ⟨none, arg⟩) :
    Ends nVata others (handle nVata srv request) w (1, srv)
      [bytes "ERROR: could not parse set-counts command" ++ [0#8]] [] w.devices := by
  obtain ⟨group, cmd, args, hgroup, htail, hparts⟩ := exists_parts_of_numberRequest hr
  cases group with
  | cal => simp [numberParts, Option.bind_eq_some_iff] at hparts
  | sync => simp [numberParts, Option.bind_eq_some_iff] at hparts
  | dac =>
      obtain ⟨command, hlookup, hparts⟩ := Option.bind_eq_some_iff.mp hparts
      have hc : command = .setCounts ∧ countsCommand args = none := by
        cases command with
        | setCounts =>
            exact ⟨rfl, congrArg NumberRequest.command (Option.some.inj hparts)⟩
        | _ => simp at hparts
      obtain ⟨rfl, hcounts⟩ := hc
      refine ends_dacMsg hgroup htail ?_
      rw [hlookup]
      refine ends_bind_reply (ends_dacSetCounts_none hcounts) fun w' hdevices => ?_
      exact ends_send_pure hdevices
  | _ => simp [numberParts] at hparts

lemma mem_tokens_of_numberRequest {r : NumberRequest} {a : Token}
    (hr : numberRequest request = some r) (harg : r.arg = some a) :
    a ∈ tokens (ofBuffer request) := by
  obtain ⟨group, cmd, args, -, htail, hparts⟩ := exists_parts_of_numberRequest hr
  have hargs : r.arg = args.head? ∨ r.arg = args[2]? := by
    cases group with
    | cal =>
        obtain ⟨command, -, hparts⟩ := Option.bind_eq_some_iff.mp hparts
        obtain ⟨c, -, hparts⟩ := Option.bind_eq_some_iff.mp hparts
        exact .inl (congrArg NumberRequest.arg (Option.some.inj hparts)).symm
    | sync =>
        obtain ⟨command, -, hparts⟩ := Option.bind_eq_some_iff.mp hparts
        obtain ⟨c, -, hparts⟩ := Option.bind_eq_some_iff.mp hparts
        exact .inl (congrArg NumberRequest.arg (Option.some.inj hparts)).symm
    | dac =>
        obtain ⟨command, -, hparts⟩ := Option.bind_eq_some_iff.mp hparts
        cases command with
        | setDelay => exact .inl (congrArg NumberRequest.arg (Option.some.inj hparts)).symm
        | setCounts => exact .inr (congrArg NumberRequest.arg (Option.some.inj hparts)).symm
        | _ => simp at hparts
    | _ => simp [numberParts] at hparts
  refine List.mem_of_mem_tail (htail ▸ List.mem_cons_of_mem _ ?_)
  rcases hargs with hhead | hthird
  · exact List.mem_of_mem_head? (hhead.symm.trans harg)
  · exact List.mem_of_getElem? (hthird.symm.trans harg)

end Requests

end LayerServer

end TrackerFpga.Server
