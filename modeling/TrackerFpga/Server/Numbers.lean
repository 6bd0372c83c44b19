import TrackerFpga.Server.NumberCommands

/-!
# Malformed numbers

A request with a number should set what it says if the number is one of the range of its command,
and be answered by an error, with nothing changed, if its argument is anything else
(`NumberLaw`).  Where the argument is read by `strtol` with a look at what is left of it, this fails
for the numbers that are no `int` only: the nearest one is taken for them.  `atoi` reads the decimal
digits in front of any string, so it fails for octal and hexadecimal numbers, for what follows the
digits, and for words, which are `0` (`numberLaw_iff`).
-/

namespace TrackerFpga.Server

open ByteCodec CString Interaction Mapped Vata

namespace LayerServer

open Method

/-! ## The law -/

/-- The flag in the settings. -/
def CalFlag.get (calctrl : CalCtrl) : CalFlag → Bool
  | .pulseEna => calctrl.calPulseEna
  | .triggerEna => calctrl.vataTriggerEna
  | .fastOrDisable => calctrl.vataFastOrDisable

/-- The bit of the flag in the register `enable`. -/
def CalFlag.bit : CalFlag → ℕ
  | .pulseEna => 0
  | .triggerEna => 1
  | .fastOrDisable => 2

/-- The number in the settings. -/
def CalNumber.get (calctrl : CalCtrl) : CalNumber → BitVec 32
  | .pulseWidth => calctrl.calPulseWidth
  | .triggerDelay => calctrl.vataTriggerDelay
  | .repeatDelay => calctrl.repetitionDelay

/-- The register of the number. -/
def CalNumber.register : CalNumber → ℕ
  | .pulseWidth => 2
  | .triggerDelay => 3
  | .repeatDelay => 5

namespace NumberCommand

/-- The value that the command has written, to the settings and to its register, is `n`; for one
asic, the bit of its hits is changed and no other one. -/
def Written (n : ℤ) (calctrl : CalCtrl) (before after : Devices) : NumberCommand → Prop
  | .flag f => f.get calctrl = decide (n = 1) ∧ (after.cal 0).getLsbD f.bit = decide (n = 1)
  | .setting f => ((f.get calctrl).toNat : ℤ) = n ∧ ((after.cal f.register).toNat : ℤ) = n
  | .nPulses => ((after.cal 4).toNat : ℤ) = n
  | .setDelay => ((after.dac 1).toNat : ℤ) = n
  | .setCounts side choice =>
      after.dac 2 = Dac.DacCtrl.selectMask side choice ∧
        ((after.dac 0).toNat : ℤ) = n
  | .asicHit ena => ∀ j < 32,
      (after.sync 3).getLsbD j = if (j : ℤ) = n then !ena else (before.sync 3).getLsbD j

/-- The arguments that the command makes another number of than they are, or a number where they
are none: with `strtol` the numbers above the largest `int`, and with `atoi` those that are not the
decimal number in front of them. -/
def Misreads (a : Token) : NumberCommand → Prop
  | .flag _ => False
  | .setting _ => ∃ n, number a = some n ∧ 2147483647 < n
  | .nPulses => ∃ n, number a = some n ∧ 2147483647 < n
  | .setDelay => ∃ n, (0 ≤ n ∧ n ≤ 65535) ∧ ¬ (number a = some n ↔ decimalPart a = n)
  | .setCounts _ _ => ∃ n, (0 ≤ n ∧ n ≤ 4095) ∧ ¬ (number a = some n ↔ decimalPart a = n)
  | .asicHit _ => False

end NumberCommand

/-- The law of a request with a number.  If its argument is a number in the range of its command,
this is written and answered by `ok`; if not, the request is answered by one error, and neither the
server nor a device is changed. -/
structure NumberLaw (nVata : ℕ) (request : List Byte) (r : NumberRequest) : Prop where
  writes : ∀ (c : NumberCommand) (n : ℤ), r.command = some c → r.arg.bind number = some n →
    c.InRange nVata n →
    ∀ (others : (o : Call) → Option o.Answer) (srv : LayerServer) (w : World),
      ∃ srv' acts d, Ends nVata others (handle nVata srv request) w (0, srv')
        [bytes "ok" ++ [0#8]] acts d ∧ c.Written n srv'.calctrl w.devices d
  refuses : (¬ ∃ c n, r.command = some c ∧ r.arg.bind number = some n ∧ c.InRange nVata n) →
    ∀ (others : (o : Call) → Option o.Answer) (srv : LayerServer) (w : World),
      ∃ msg, Ends nVata others (handle nVata srv request) w (1, srv) [msg] [] w.devices ∧
        IsError msg

/-- The code makes something else of the argument than the number that it is. -/
def Misread (r : NumberRequest) : Prop :=
  ∃ c a, r.command = some c ∧ r.arg = some a ∧ c.Misreads a

/-! ## What is written -/

section Written

variable {nVata : ℕ} {calctrl : CalCtrl} {d : Devices} {n : ℤ}

lemma getLsbD_enable (f : CalFlag) : calctrl.enable.getLsbD f.bit = f.get calctrl := by
  have hword : ∀ pulse trigger fastOr : Bool,
      let word := BitVec.ofNat 32 fastOr.toNat <<< 2 ||| BitVec.ofNat 32 trigger.toNat <<< 1 |||
        BitVec.ofNat 32 pulse.toNat
      word.getLsbD 0 = pulse ∧ word.getLsbD 1 = trigger ∧ word.getLsbD 2 = fastOr := by decide
  obtain ⟨hpulse, htrigger, hfastOr⟩ :=
    hword calctrl.calPulseEna calctrl.vataTriggerEna calctrl.vataFastOrDisable
  cases f with
  | pulseEna => exact hpulse
  | triggerEna => exact htrigger
  | fastOrDisable => exact hfastOr

lemma toNat_ofInt (h : 0 ≤ n ∧ n ≤ 2147483647) : ((BitVec.ofInt 32 n).toNat : ℤ) = n := by
  rw [BitVec.toNat_ofInt]
  omega

/-- A method writes each register once. -/
lemma written_after {c : NumberCommand} (hrange : c.InRange nVata n) :
    c.Written n (c.settings calctrl n) d (c.after nVata calctrl n d) := by
  cases c with
  | flag f =>
      have hword : (((NumberCommand.flag f).after nVata calctrl n d).cal 0) =
          (f.set calctrl (n = 1)).enable := by
        simp [NumberCommand.after, NumberCommand.call, Devices.afterCal, CalAction.method,
          Cal.CalCtrl.writeSettings, NumberCommand.settings]
      have hget : f.get (f.set calctrl (n = 1)) = decide (n = 1) := by cases f <;> rfl
      exact ⟨hget, by rw [hword, getLsbD_enable, hget]⟩
  | setting f =>
      have hget : f.get (f.set calctrl (BitVec.ofInt 32 n)) = BitVec.ofInt 32 n := by
        cases f <;> rfl
      have hword : (((NumberCommand.setting f).after nVata calctrl n d).cal f.register) =
          BitVec.ofInt 32 n := by
        cases f <;> simp [NumberCommand.after, NumberCommand.call, Devices.afterCal,
          CalAction.method, Cal.CalCtrl.writeSettings, NumberCommand.settings, CalNumber.register,
          CalNumber.set]
      have hint : 0 ≤ n ∧ n ≤ 2147483647 := hrange
      refine ⟨?_, ?_⟩
      · rw [NumberCommand.settings, hget, toNat_ofInt hint]
      · rw [hword, toNat_ofInt hint]
  | nPulses =>
      have hword : ((NumberCommand.nPulses.after nVata calctrl n d).cal 4) = BitVec.ofInt 32 n := by
        simp [NumberCommand.after, NumberCommand.call, Devices.afterCal, CalAction.method,
          Cal.CalCtrl.nPulses]
      have hint : 1 ≤ n ∧ n ≤ 2147483647 := hrange
      rw [NumberCommand.Written, hword, toNat_ofInt (by omega)]
  | setDelay =>
      have hint : 0 ≤ n ∧ n ≤ 65535 := hrange
      have hle : ¬ Dac.DacCtrl.maxDelay < BitVec.ofInt 32 n :=
        (ofInt_le_iff (m := 65535) (by decide) (by omega)).mpr hint
      have hword :
          ((NumberCommand.setDelay.after nVata calctrl n d).dac 1) = BitVec.ofInt 32 n := by
        simp [NumberCommand.after, NumberCommand.call, Devices.afterDac, Dac.DacCtrl.Call.method,
          Dac.DacCtrl.setDelay, hle]
      rw [NumberCommand.Written, hword, toNat_ofInt (by omega)]
  | setCounts side choice =>
      have hint : 0 ≤ n ∧ n ≤ 4095 := hrange
      have hle : ¬ Dac.DacCtrl.maxInput < BitVec.ofInt 32 n :=
        (ofInt_le_iff (m := 4095) (by decide) (by omega)).mpr hint
      have hwords :
          ((NumberCommand.setCounts side choice).after nVata calctrl n d).dac 2 =
            Dac.DacCtrl.selectMask side choice ∧
          ((NumberCommand.setCounts side choice).after nVata calctrl n d).dac 0 =
            BitVec.ofInt 32 n := by
        simp [NumberCommand.after, NumberCommand.call, Devices.afterDac, Dac.DacCtrl.Call.method,
          Dac.DacCtrl.setCounts, hle]
      exact ⟨hwords.1, by rw [hwords.2, toNat_ofInt (by omega)]⟩
  | asicHit ena =>
      have hint : 0 ≤ n ∧ n ≤ nVata - 1 := hrange
      have hmask : ((NumberCommand.asicHit ena).after nVata calctrl n d).sync 3 =
          Ctrl.putBit (!ena) n.toNat (d.sync 3) := by
        have hvalid : 0 ≤ n ∧ n < nVata := by omega
        simp [NumberCommand.after, NumberCommand.call, Devices.afterSync, asicHit_eval, hvalid]
      intro j hj
      have hbit : n.toNat = j ↔ (j : ℤ) = n := by omega
      rw [hmask, Ctrl.getLsbD_putBit hj]
      simp only [hbit]

end Written

/-! ## What is made of an argument -/

section Value

variable {nVata : ℕ} {c : NumberCommand} {s : List Byte} {a : Token} {n : ℤ}

lemma clampLong_eq_iff {m : ℤ} (hn : -2147483648 < n ∧ n < 2147483647) :
    clampLong m = n ↔ m = n := by
  rw [clampLong]
  omega

lemma clampLong_of_le {m : ℤ} (hm : m ≤ 2147483647) (hn : -2147483648 < n) :
    clampLong m = n ↔ m = n := by
  rw [clampLong]
  omega

/-- An `int` below the largest one is what the argument is. -/
lemma parsed_eq_iff (ha : a ∈ tokens s) (hn : 0 ≤ n ∧ n < 2147483647) :
    (parsed (some a)).1 = n ↔ number a = some n := by
  show positiveInt a = n ↔ _
  rw [positiveInt_eq ha]
  cases number a with
  | none => simp; omega
  | some m =>
      rw [Option.elim_some, clampLong_eq_iff (by omega), Option.some_inj]

/-- So is the largest one, but for numbers that are no `int`. -/
lemma parsed_eq_iff_of_fits (ha : a ∈ tokens s)
    (hfits : ¬ ∃ m, number a = some m ∧ 2147483647 < m) (hn : 0 ≤ n) :
    (parsed (some a)).1 = n ↔ number a = some n := by
  show positiveInt a = n ↔ _
  rw [positiveInt_eq ha]
  cases hnumber : number a with
  | none => simp; omega
  | some m =>
      have hm : m ≤ 2147483647 := not_lt.mp fun hlt => hfits ⟨m, hnumber, hlt⟩
      rw [Option.elim_some, clampLong_of_le hm (by omega), Option.some_inj]

lemma atoi_eq_iff (hn : 0 ≤ n ∧ n < 2147483647) : atoi a = n ↔ decimalPart a = n := by
  rw [atoi_eq, clampLong_eq_iff (by omega)]

/-- **What is not misread.**  The command takes its argument for the numbers of its range that it
is. -/
lemma value_eq_iff (hn : nVata ≤ 12) (ha : a ∈ tokens s) (hreads : ¬ c.Misreads a)
    (hrange : c.InRange nVata n) : c.value (some a) = n ↔ number a = some n := by
  cases c with
  | flag f =>
      have hint : 0 ≤ n ∧ n ≤ 1 := hrange
      exact parsed_eq_iff ha (by omega)
  | setting f =>
      exact parsed_eq_iff_of_fits ha hreads hrange.1
  | nPulses =>
      have hint : 1 ≤ n ∧ n ≤ 2147483647 := hrange
      exact parsed_eq_iff_of_fits ha hreads (by omega)
  | setDelay =>
      have hint : 0 ≤ n ∧ n ≤ 65535 := hrange
      have hsame : number a = some n ↔ decimalPart a = n :=
        not_not.mp fun hne => hreads ⟨n, hint, hne⟩
      exact (atoi_eq_iff (by omega)).trans hsame.symm
  | setCounts side choice =>
      have hint : 0 ≤ n ∧ n ≤ 4095 := hrange
      have hsame : number a = some n ↔ decimalPart a = n :=
        not_not.mp fun hne => hreads ⟨n, hint, hne⟩
      exact (atoi_eq_iff (by omega)).trans hsame.symm
  | asicHit ena =>
      have hint : 0 ≤ n ∧ n ≤ nVata - 1 := hrange
      exact parsed_eq_iff ha (by omega)

/-- Without an argument the number is in no range. -/
lemma not_inRange_value_none : ¬ c.InRange nVata (c.value none) := by
  intro hrange
  have hlow : 0 ≤ (c.bounds nVata).1 ∧ c.value none = -1 := by
    cases c <;> exact ⟨by simp [NumberCommand.bounds], rfl⟩
  have hmin := hrange.1
  rw [hlow.2] at hmin
  omega

end Value

/-! ## When the law holds -/

section Law

variable {nVata : ℕ} {request : List Byte} {r : NumberRequest} {c : NumberCommand}
  {arg : Option Token} {a : Token} {n : ℤ}

lemma not_isError_sendMsg_ok : ¬ IsError (bytes "ok" ++ [0#8]) := by decide

/-- By the law, a request is taken only if its argument is a number in the range. -/
lemma NumberLaw.exists_number (hlaw : NumberLaw nVata request ⟨some c, arg⟩)
    (hr : numberRequest request = some ⟨some c, arg⟩) (hrange : c.InRange nVata (c.value arg)) :
    ∃ n, arg.bind number = some n ∧ c.InRange nVata n := by
  by_contra hno
  have hnone : ¬ ∃ c' n, some c = some c' ∧ arg.bind number = some n ∧ c'.InRange nVata n := by
    rintro ⟨c', n, hc, hn⟩
    obtain rfl := Option.some.inj hc
    exact hno ⟨n, hn⟩
  obtain ⟨msg, hend, herror⟩ := hlaw.refuses hnone (fun _ => none) started .start
  obtain ⟨-, hmsg, -⟩ := hend.unique ((answers_number hr rfl).accepts hrange)
  obtain rfl := List.head_eq_of_cons_eq hmsg
  exact not_isError_sendMsg_ok herror

/-- By the law, the value that is written for a number is that number. -/
lemma NumberLaw.written (hlaw : NumberLaw nVata request ⟨some c, arg⟩)
    (hr : numberRequest request = some ⟨some c, arg⟩) (hn : arg.bind number = some n)
    (hrange : c.InRange nVata n) :
    c.InRange nVata (c.value arg) ∧
      ∃ calctrl before after, c.Written n calctrl before after ∧
        c.Written (c.value arg) calctrl before after := by
  obtain ⟨srv', acts, d, hend, hwritten⟩ :=
    hlaw.writes c n rfl hn hrange (fun _ => none) started .start
  have hanswers : Answers nVata (fun _ => none) (handle nVata started request) .start
      (c.InRange nVata (c.value arg)) _ _ _ _ := answers_number hr rfl
  by_cases htaken : c.InRange nVata (c.value arg)
  · obtain ⟨hvalue, -, -, rfl⟩ := hend.unique (hanswers.accepts htaken)
    obtain ⟨-, rfl⟩ := Prod.mk.inj hvalue
    exact ⟨htaken, _, _, _, hwritten, written_after htaken⟩
  · obtain ⟨msg, hend', herror⟩ := hanswers.refuses htaken
    obtain ⟨-, hmsg, -⟩ := hend.unique hend'
    obtain rfl := List.head_eq_of_cons_eq hmsg
    exact absurd herror not_isError_sendMsg_ok

/-- A number that is no `int` is taken for the largest one. -/
lemma not_numberLaw_of_large (hr : numberRequest request = some ⟨some c, some a⟩)
    (hc : (∃ f, c = .setting f) ∨ c = .nPulses) (hn : number a = some n) (hlarge : 2147483647 < n) :
    ¬ NumberLaw nVata request ⟨some c, some a⟩ := by
  intro hlaw
  have ha := mem_tokens_of_numberRequest hr rfl
  have hclamp : clampLong n = 2147483647 := by
    rw [clampLong]
    omega
  have hvalue : (parsed (some a)).1 = 2147483647 := by
    rw [← hclamp]
    show positiveInt a = _
    rw [positiveInt_eq ha, hn]
    rfl
  have hbounds : c.value (some a) = 2147483647 ∧ ∀ m, c.InRange nVata m ↔
      (c.bounds nVata).1 ≤ m ∧ m ≤ 2147483647 := by
    rcases hc with ⟨f, rfl⟩ | rfl
    · exact ⟨hvalue, fun _ => Iff.rfl⟩
    · exact ⟨hvalue, fun _ => Iff.rfl⟩
  have hlow : (c.bounds nVata).1 ≤ 2147483647 := by
    rcases hc with ⟨f, rfl⟩ | rfl
    · exact (by decide : (0 : ℤ) ≤ 2147483647)
    · exact (by decide : (1 : ℤ) ≤ 2147483647)
  have hrange : c.InRange nVata (c.value (some a)) := by
    rw [hbounds.1, hbounds.2]
    exact ⟨hlow, le_rfl⟩
  obtain ⟨m, hm, hmrange⟩ := hlaw.exists_number hr hrange
  obtain rfl := Option.some.inj (hn.symm.trans hm)
  exact absurd ((hbounds.2 n).mp hmrange).2 (not_le.mpr hlarge)

/-- The DAC's commands, where `atoi` makes another number of the argument than it is. -/
lemma not_numberLaw_of_atoi (hr : numberRequest request = some ⟨some c, some a⟩)
    (hc : c = .setDelay ∨ ∃ side choice, c = .setCounts side choice) (hrange : c.InRange nVata n)
    (hne : ¬ (number a = some n ↔ decimalPart a = n)) :
    ¬ NumberLaw nVata request ⟨some c, some a⟩ := by
  intro hlaw
  have hvalue : c.value (some a) = atoi a := by
    rcases hc with rfl | ⟨side, choice, rfl⟩ <;> rfl
  have hunique : ∀ {k l calctrl before after}, c.Written k calctrl before after →
      c.Written l calctrl before after → k = l := by
    intro k l calctrl before after hk hl
    rcases hc with rfl | ⟨side, choice, rfl⟩
    · exact hk.symm.trans hl
    · exact hk.2.symm.trans hl.2
  have hsmall : ∀ {k}, c.InRange nVata k → 0 ≤ k ∧ k < 2147483647 := by
    intro k hk
    rcases hc with rfl | ⟨side, choice, rfl⟩
    · have hint : 0 ≤ k ∧ k ≤ 65535 := hk
      omega
    · have hint : 0 ≤ k ∧ k ≤ 4095 := hk
      omega
  have hsame : ∀ {k}, number a = some k → c.InRange nVata k → atoi a = k := by
    intro k hk hkrange
    obtain ⟨-, calctrl, before, after, hwritten, hwritten'⟩ := hlaw.written hr hk hkrange
    rw [← hvalue]
    exact hunique hwritten' hwritten
  refine hne ⟨fun hk => ?_, fun hk => ?_⟩
  · exact (atoi_eq_iff (hsmall hrange)).mp (hsame hk hrange)
  · have hatoi : atoi a = n := (atoi_eq_iff (hsmall hrange)).mpr hk
    obtain ⟨m, hm, hmrange⟩ := hlaw.exists_number hr (by rwa [hvalue, hatoi])
    rw [← hatoi, hsame hm hmrange]
    exact hm

lemma not_numberLaw (hr : numberRequest request = some r) (hmisread : Misread r) :
    ¬ NumberLaw nVata request r := by
  obtain ⟨command, arg⟩ := r
  obtain ⟨c, a, rfl, rfl, hmisreads⟩ := hmisread
  cases c with
  | flag f => exact absurd hmisreads id
  | asicHit ena => exact absurd hmisreads id
  | setting f =>
      obtain ⟨n, hn, hlarge⟩ := hmisreads
      exact not_numberLaw_of_large hr (.inl ⟨f, rfl⟩) hn hlarge
  | nPulses =>
      obtain ⟨n, hn, hlarge⟩ := hmisreads
      exact not_numberLaw_of_large hr (.inr rfl) hn hlarge
  | setDelay =>
      obtain ⟨n, hrange, hne⟩ := hmisreads
      exact not_numberLaw_of_atoi hr (.inl rfl) hrange hne
  | setCounts side choice =>
      obtain ⟨n, hrange, hne⟩ := hmisreads
      exact not_numberLaw_of_atoi hr (.inr ⟨side, choice, rfl⟩) hrange hne

/-- **Malformed numbers change nothing** and others are written as they are, if and only if the
code does not make something else of the argument. -/
theorem numberLaw_iff (hn : nVata ≤ 12) (hr : numberRequest request = some r) :
    NumberLaw nVata request r ↔ ¬ Misread r := by
  refine ⟨fun hlaw hmisread => not_numberLaw hr hmisread hlaw, fun hreads => ?_⟩
  have hvalue : ∀ c a n, r.command = some c → r.arg = some a → c.InRange nVata n →
      (c.value (some a) = n ↔ number a = some n) := fun c a n hc ha hrange =>
    value_eq_iff hn (mem_tokens_of_numberRequest hr ha) (fun hm => hreads ⟨c, a, hc, ha, hm⟩) hrange
  obtain ⟨command, arg⟩ := r
  constructor
  · rintro c n rfl hnumber hrange others srv w
    obtain ⟨a, rfl, hnumber⟩ := Option.bind_eq_some_iff.mp hnumber
    have hv : c.value (some a) = n := (hvalue c a n rfl rfl hrange).mpr hnumber
    exact ⟨_, _, _, (answers_number hr hv).accepts hrange, written_after hrange⟩
  · intro hno others srv w
    cases command with
    | none => exact ⟨_, ends_no_number hr, isError_ofList (by decide)⟩
    | some c =>
        refine (answers_number hr rfl).refuses fun hrange => hno ⟨c, c.value arg, rfl, ?_, hrange⟩
        cases arg with
        | some a => exact (hvalue c a _ rfl rfl hrange).mp rfl
        | none => exact absurd hrange not_inRange_value_none

end Law

/-- Nothing is wrong with a decimal number. -/
theorem numberLaw_setCounts :
    NumberLaw 12 (bytes "dac set-counts A cal 100")
      ⟨some (.setCounts .sideA .calDac), some (bytes "100")⟩ := by
  refine (numberLaw_iff (by decide) (by decide)).mpr ?_
  rintro ⟨c, a, hc, ha, hmisreads⟩
  obtain rfl := Option.some.inj hc
  obtain rfl := Option.some.inj ha
  obtain ⟨n, -, hne⟩ := hmisreads
  have hnumber : number (bytes "100") = some 100 ∧ decimalPart (bytes "100") = 100 := by decide
  rw [hnumber.1, hnumber.2, Option.some_inj] at hne
  exact hne Iff.rfl

/-- A threshold DAC is set to `0` for a word. -/
theorem set_counts_off :
    ¬ ∀ (nVata : ℕ) (request : List Byte) (r : NumberRequest), nVata ≤ 12 →
      numberRequest request = some r → NumberLaw nVata request r := by
  intro hlaw
  have hr : numberRequest (bytes "dac set-counts A vth off") =
      some ⟨some (.setCounts .sideA .vthDac), some (bytes "off")⟩ := by decide
  refine not_numberLaw hr ⟨_, _, rfl, rfl, 0, by decide, ?_⟩ (hlaw 12 _ _ (by decide) hr)
  decide

end LayerServer

end TrackerFpga.Server
