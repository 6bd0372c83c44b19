import TrackerFpga.Server.Keywords
import TrackerFpga.Server.Numbers

/-!
# The grammar of the requests

The comments over the dispatchers list the requests that these take, `halt` is one more: words, and
behind the words of some commands a number (`Spells`).  What the code takes for such a request is
more than that, since it compares most words only in the length of the keyword, the first one with
the start of the request, and looks at no token behind the last one that it needs (`Resembles`).  A
request resembles the forms of one command at most (`plainRequest_iff`, `numberRequest_iff`).
-/

/-! ## Words -/

namespace TrackerFpga.Dac

open CString Server

/-- `SIDE`. -/
def SilayerSide.word : SilayerSide → Token
  | .sideA => bytes "A"
  | .sideB => bytes "B"

/-- `DAC-CHOICE`. -/
def DacChoice.word : DacChoice → Token
  | .calDac => bytes "cal"
  | .vthDac => bytes "vth"

end TrackerFpga.Dac

namespace TrackerFpga.Server

open ByteCodec CString Interaction Mapped

namespace LayerServer

open Method

/-- The first words of the requests. -/
def Group.word : Group → Token
  | .emit => bytes "emit"
  | .cal => bytes "cal"
  | .dac => bytes "dac"
  | .sync => bytes "sync"
  | .vata => bytes "vata"
  | .getNVata => bytes "get-n-vata"
  | .halt => bytes "halt"

/-- `emit start | emit stop | emit status`. -/
def EmitCommand.word : EmitCommand → Token
  | .status => bytes "status"
  | .start => bytes "start"
  | .stop => bytes "stop"

/-- The words behind `cal`. -/
def CalCommand.word : CalCommand → Token
  | .pulseEna => bytes "pulse-ena"
  | .triggerEna => bytes "trigger-ena"
  | .fastOrDisable => bytes "fast-or-disable"
  | .pulseWidth => bytes "pulse-width"
  | .triggerDelay => bytes "trigger-delay"
  | .repeatDelay => bytes "repeat-delay"
  | .startInf => bytes "start-inf"
  | .stopInf => bytes "stop-inf"
  | .nPulses => bytes "n-pulses"

/-- The words behind `dac`. -/
def DacCommand.word : DacCommand → Token
  | .setDelay => bytes "set-delay"
  | .getDelay => bytes "get-delay"
  | .setCounts => bytes "set-counts"
  | .getInput => bytes "get-input"

/-- The words behind `sync`. -/
def SyncCommand.word : SyncCommand → Token
  | .counterReset => bytes "counter-reset"
  | .getCounter => bytes "get-counter"
  | .forceTrigger => bytes "force-trigger"
  | .getGlobalHitEna => bytes "get-global-hit-ena"
  | .globalHitEnable => bytes "global-hit-enable"
  | .globalHitDisable => bytes "global-hit-disable"
  | .asicHitEnable => bytes "asic-hit-enable"
  | .asicHitDisable => bytes "asic-hit-disable"
  | .getAsicHitDisableMask => bytes "get-asic-hit-disable-mask"

section Words

variable {s : List Byte} {cmd : Token}

lemma lookup_group (g : Group) : lookup groupTable s = some g ↔ g.word <+: s :=
  (lookup_iff (by decide) (by decide) (by cases g <;> decide)).trans strncmp_length

lemma lookup_emit (c : EmitCommand) : lookup emitTable cmd = some c ↔ c.word <+: cmd :=
  (lookup_iff (by decide) (by decide) (by cases c <;> decide)).trans strncmp_length

lemma lookup_cal (c : CalCommand) : lookup calTable cmd = some c ↔ c.word <+: cmd :=
  (lookup_iff (by decide) (by decide) (by cases c <;> decide)).trans strncmp_length

lemma lookup_sync (c : SyncCommand) : lookup syncTable cmd = some c ↔ c.word <+: cmd :=
  (lookup_iff (by decide) (by decide) (by cases c <;> decide)).trans strncmp_length

/-- The two commands of `dac` that set something. -/
lemma lookup_dac {c : DacCommand} (hc : c = .setDelay ∨ c = .setCounts) :
    lookup dacTable cmd = some c ↔ c.word <+: cmd :=
  (lookup_iff (by decide) (by decide) (by rcases hc with rfl | rfl <;> decide)).trans strncmp_length

/-- The two that get something are compared with their NUL. -/
lemma lookup_dac_get {c : DacCommand} (hc : c = .getDelay ∨ c = .getInput) :
    lookup dacTable cmd = some c ↔ cmd = c.word :=
  (lookup_iff (by decide) (by decide) (by rcases hc with rfl | rfl <;> decide)).trans
    strncmp_length_succ

lemma parseSilayerSide_iff (side : SilayerSide) :
    parseSilayerSide cmd = some side ↔ side.word <+: cmd := by
  have hA : strncmp (bytes "A") cmd 1 = true ↔ bytes "A" <+: cmd := strncmp_length
  have hB : strncmp (bytes "B") cmd 1 = true ↔ bytes "B" <+: cmd := strncmp_length
  have hnot : bytes "A" <+: cmd → ¬ bytes "B" <+: cmd := fun h h' =>
    absurd (List.prefix_of_prefix_length_le h h' (by decide)) (by decide)
  rw [parseSilayerSide]
  simp only [hA, hB]
  cases side with
  | sideA => split_ifs <;> simp_all [Dac.SilayerSide.word]
  | sideB => split_ifs <;> simp_all [Dac.SilayerSide.word]

lemma parseDacChoice_iff (choice : DacChoice) :
    parseDacChoice cmd = some choice ↔ choice.word <+: cmd := by
  have hcal : strncmp (bytes "cal") cmd 3 = true ↔ bytes "cal" <+: cmd := strncmp_length
  have hvth : strncmp (bytes "vth") cmd 3 = true ↔ bytes "vth" <+: cmd := strncmp_length
  have hnot : bytes "cal" <+: cmd → ¬ bytes "vth" <+: cmd := fun h h' =>
    absurd (List.prefix_of_prefix_length_le h h' (by decide)) (by decide)
  rw [parseDacChoice]
  simp only [hcal, hvth]
  cases choice with
  | calDac => split_ifs <;> simp_all [Dac.DacChoice.word]
  | vthDac => split_ifs <;> simp_all [Dac.DacChoice.word]

end Words

/-! ## Forms -/

/-- The queries of `dac`. -/
def queryCommand : DacQuery → DacCommand
  | .getDelay => .getDelay
  | .getInput => .getInput

/-- The commands without a number. -/
inductive PlainCommand
  | emit (c : EmitCommand)
  | startInf
  | stopInf
  | dacQuery (q : DacQuery)
  | counterReset
  | getCounter
  | forceTrigger
  | getGlobalHitEna
  | globalHitEnable
  | globalHitDisable
  | getAsicHitDisableMask
  | halt
  deriving DecidableEq

/-- The words of a command without a number. -/
def PlainCommand.words : PlainCommand → List Token
  | .emit c => [Group.emit.word, c.word]
  | .startInf => [Group.cal.word, CalCommand.startInf.word]
  | .stopInf => [Group.cal.word, CalCommand.stopInf.word]
  | .dacQuery q => [Group.dac.word, (queryCommand q).word]
  | .counterReset => [Group.sync.word, SyncCommand.counterReset.word]
  | .getCounter => [Group.sync.word, SyncCommand.getCounter.word]
  | .forceTrigger => [Group.sync.word, SyncCommand.forceTrigger.word]
  | .getGlobalHitEna => [Group.sync.word, SyncCommand.getGlobalHitEna.word]
  | .globalHitEnable => [Group.sync.word, SyncCommand.globalHitEnable.word]
  | .globalHitDisable => [Group.sync.word, SyncCommand.globalHitDisable.word]
  | .getAsicHitDisableMask => [Group.sync.word, SyncCommand.getAsicHitDisableMask.word]
  | .halt => [Group.halt.word]

/-- The sub-command of `cal` that sets the flag. -/
def CalFlag.command : CalFlag → CalCommand
  | .pulseEna => .pulseEna
  | .triggerEna => .triggerEna
  | .fastOrDisable => .fastOrDisable

/-- The sub-command of `cal` that sets the number. -/
def CalNumber.command : CalNumber → CalCommand
  | .pulseWidth => .pulseWidth
  | .triggerDelay => .triggerDelay
  | .repeatDelay => .repeatDelay

namespace NumberCommand

/-- The words in front of the number. -/
def words : NumberCommand → List Token
  | .flag f => [Group.cal.word, f.command.word]
  | .setting f => [Group.cal.word, f.command.word]
  | .nPulses => [Group.cal.word, CalCommand.nPulses.word]
  | .setDelay => [Group.dac.word, DacCommand.setDelay.word]
  | .setCounts side choice =>
      [Group.dac.word, DacCommand.setCounts.word, side.word, choice.word]
  | .asicHit true => [Group.sync.word, SyncCommand.asicHitEnable.word]
  | .asicHit false => [Group.sync.word, SyncCommand.asicHitDisable.word]

/-- The number that an argument is.  For a flag the digits are listed, `[1|0]`. -/
def Denotes (a : Token) (n : ℤ) : NumberCommand → Prop
  | .flag _ => a = bytes "0" ∧ n = 0 ∨ a = bytes "1" ∧ n = 1
  | _ => number a = some n

/-- The number that the code makes of an argument: the nearest `int` that is not larger, or for the
DACs the decimal number in front of it. -/
def Reads (a : Token) (n : ℤ) : NumberCommand → Prop
  | .setDelay => decimalPart a = n
  | .setCounts _ _ => decimalPart a = n
  | _ => ∃ m, number a = some m ∧ min m 2147483647 = n

end NumberCommand

/-- A request of the grammar. -/
inductive Form
  | plain (p : PlainCommand)
  | number (c : NumberCommand) (n : ℤ)
  deriving DecidableEq

/-- The tokens are exactly the form. -/
def Spells (nVata : ℕ) (toks : List Token) : Form → Prop
  | .plain p => toks = p.words
  | .number c n => c.InRange nVata n ∧ ∃ a, c.Denotes a n ∧ toks = c.words ++ [a]

/-- The first word begins the request, and each other word the token in its place. -/
def Begins (words : List Token) (request : List Byte) : Prop :=
  List.Forall₂ (· <+: ·) words
    ((ofBuffer request :: (tokens (ofBuffer request)).tail).take words.length)

/-- The request is a form for the code: the words begin it, those of the DACs' queries are the
tokens in their places, and the token behind the words is read as the number. -/
def Resembles (nVata : ℕ) (request : List Byte) : Form → Prop
  | .plain p => Begins p.words request ∧
      ∀ q, p = .dacQuery q → (tokens (ofBuffer request))[1]? = some (queryCommand q).word
  | .number c n => Begins c.words request ∧ c.InRange nVata n ∧
      ∃ a, (tokens (ofBuffer request))[c.words.length]? = some a ∧ c.Reads a n

/-! ## One command -/

/-- The sub-commands of `cal` without a number. -/
def calPlainCommand : CalCommand → Option PlainCommand
  | .startInf => some .startInf
  | .stopInf => some .stopInf
  | _ => none

/-- The sub-commands of `dac` without a number. -/
def dacPlainCommand : DacCommand → Option PlainCommand
  | .getDelay => some (.dacQuery .getDelay)
  | .getInput => some (.dacQuery .getInput)
  | .setDelay | .setCounts => none

/-- The sub-commands of `sync` without a number. -/
def syncPlainCommand : SyncCommand → Option PlainCommand
  | .counterReset => some .counterReset
  | .getCounter => some .getCounter
  | .forceTrigger => some .forceTrigger
  | .getGlobalHitEna => some .getGlobalHitEna
  | .globalHitEnable => some .globalHitEnable
  | .globalHitDisable => some .globalHitDisable
  | .getAsicHitDisableMask => some .getAsicHitDisableMask
  | .asicHitEnable | .asicHitDisable => none

/-- The command in the tokens after the first word. -/
def plainParts (cmd : Token) : Group → Option PlainCommand
  | .emit => (lookup emitTable cmd).map .emit
  | .cal => (lookup calTable cmd).bind calPlainCommand
  | .dac => (lookup dacTable cmd).bind dacPlainCommand
  | .sync => (lookup syncTable cmd).bind syncPlainCommand
  | .vata | .getNVata | .halt => none

/-- The command without a number that a request comes to, if it does. -/
def plainRequest (request : List Byte) : Option PlainCommand :=
  match lookup groupTable (ofBuffer request), (tokens (ofBuffer request)).tail with
  | some .halt, _ => some .halt
  | some group, cmd :: _ => plainParts cmd group
  | _, _ => none

section Begins

variable {nVata : ℕ} {request : List Byte} {p : PlainCommand} {c : NumberCommand}
  {word sub cmd : Token} {words args : List Token} {arg : Option Token}

lemma begins_cons : Begins (word :: words) request ↔
    word <+: ofBuffer request ∧
      List.Forall₂ (· <+: ·) words ((tokens (ofBuffer request)).tail.take words.length) := by
  rw [Begins, List.length_cons, List.take_succ_cons, List.forall₂_cons]

/-- A request of two words, and whatever is behind them. -/
lemma begins_pair : Begins [word, sub] request ↔ word <+: ofBuffer request ∧
    ∃ cmd args, (tokens (ofBuffer request)).tail = cmd :: args ∧ sub <+: cmd := by
  rw [begins_cons]
  cases (tokens (ofBuffer request)).tail with
  | nil => simp
  | cons cmd args => simp

/-- The tokens behind the second one. -/
lemma getElem?_tokens (htail : (tokens (ofBuffer request)).tail = cmd :: args) (i : ℕ) :
    (tokens (ofBuffer request))[i + 2]? = args[i]? := by
  rw [← List.getElem?_tail, htail, List.getElem?_cons_succ]

lemma plainRequest_of_halt (h : lookup groupTable (ofBuffer request) = some .halt) :
    plainRequest request = some .halt := by
  rw [plainRequest, h]

lemma plainRequest_of_parts {group : Group}
    (hgroup : lookup groupTable (ofBuffer request) = some group)
    (htail : (tokens (ofBuffer request)).tail = cmd :: args) (hhalt : group ≠ .halt) :
    plainRequest request = plainParts cmd group := by
  rw [plainRequest, hgroup, htail]
  cases group with
  | halt => exact absurd rfl hhalt
  | _ => rfl

lemma plainRequest_of_cal {command : CalCommand}
    (h : Begins [Group.cal.word, command.word] request) :
    plainRequest request = calPlainCommand command := by
  obtain ⟨hgroup, cmd, args, htail, hsub⟩ := begins_pair.mp h
  rw [plainRequest_of_parts ((lookup_group .cal).mpr hgroup) htail (by decide), plainParts,
    (lookup_cal command).mpr hsub, Option.bind_some]

lemma plainRequest_of_sync {command : SyncCommand}
    (h : Begins [Group.sync.word, command.word] request) :
    plainRequest request = syncPlainCommand command := by
  obtain ⟨hgroup, cmd, args, htail, hsub⟩ := begins_pair.mp h
  rw [plainRequest_of_parts ((lookup_group .sync).mpr hgroup) htail (by decide), plainParts,
    (lookup_sync command).mpr hsub, Option.bind_some]

lemma words_of_calPlainCommand {command : CalCommand} (h : calPlainCommand command = some p) :
    p.words = [Group.cal.word, command.word] ∧ ∀ q, p ≠ .dacQuery q := by
  cases command <;> simp [calPlainCommand] at h <;> subst h <;> simp [PlainCommand.words]

lemma words_of_syncPlainCommand {command : SyncCommand} (h : syncPlainCommand command = some p) :
    p.words = [Group.sync.word, command.word] ∧ ∀ q, p ≠ .dacQuery q := by
  cases command <;> simp [syncPlainCommand] at h <;> subst h <;> simp [PlainCommand.words]

lemma exists_query_of_dacPlainCommand {command : DacCommand}
    (h : dacPlainCommand command = some p) : ∃ q, command = queryCommand q ∧ p = .dacQuery q := by
  cases command with
  | getDelay => exact ⟨.getDelay, rfl, (Option.some.inj h).symm⟩
  | getInput => exact ⟨.getInput, rfl, (Option.some.inj h).symm⟩
  | _ => simp [dacPlainCommand] at h

/-- The words that a request without a number begins with, by its group. -/
lemma resembles_of_plainParts {group : Group}
    (hgroup : lookup groupTable (ofBuffer request) = some group)
    (htail : (tokens (ofBuffer request)).tail = cmd :: args) (h : plainParts cmd group = some p) :
    Resembles nVata request (.plain p) := by
  have hword := (lookup_group group).mp hgroup
  cases group with
  | emit =>
      obtain ⟨c, hc, rfl⟩ := Option.map_eq_some_iff.mp h
      have hbegins := begins_pair.mpr ⟨hword, cmd, args, htail, (lookup_emit c).mp hc⟩
      exact ⟨hbegins, fun q hq => absurd hq (by simp)⟩
  | cal =>
      obtain ⟨command, hcommand, hp⟩ := Option.bind_eq_some_iff.mp h
      obtain ⟨hwords, hquery⟩ := words_of_calPlainCommand hp
      have hbegins := begins_pair.mpr ⟨hword, cmd, args, htail, (lookup_cal command).mp hcommand⟩
      rw [← hwords] at hbegins
      exact ⟨hbegins, fun q hq => absurd hq (hquery q)⟩
  | dac =>
      obtain ⟨command, hcommand, hp⟩ := Option.bind_eq_some_iff.mp h
      obtain ⟨q, rfl, rfl⟩ := exists_query_of_dacPlainCommand hp
      obtain rfl := (lookup_dac_get (by cases q <;> decide)).mp hcommand
      have hbegins := begins_pair.mpr ⟨hword, _, args, htail, List.prefix_rfl⟩
      refine ⟨hbegins, fun q' hq => ?_⟩
      obtain rfl := PlainCommand.dacQuery.inj hq
      rw [← List.getElem?_tail, htail, List.getElem?_cons_zero]
  | sync =>
      obtain ⟨command, hcommand, hp⟩ := Option.bind_eq_some_iff.mp h
      obtain ⟨hwords, hquery⟩ := words_of_syncPlainCommand hp
      have hbegins := begins_pair.mpr ⟨hword, cmd, args, htail, (lookup_sync command).mp hcommand⟩
      rw [← hwords] at hbegins
      exact ⟨hbegins, fun q hq => absurd hq (hquery q)⟩
  | vata => simp [plainParts] at h
  | getNVata => simp [plainParts] at h
  | halt => simp [plainParts] at h

/-- **One command without a number.**  A request resembles the form of the one that it comes to. -/
lemma plainRequest_iff :
    plainRequest request = some p ↔ Resembles nVata request (.plain p) := by
  constructor
  · intro h
    cases hgroup : lookup groupTable (ofBuffer request) with
    | none => simp [plainRequest, hgroup] at h
    | some group =>
        by_cases hhalt : group = .halt
        · subst hhalt
          obtain rfl := Option.some.inj ((plainRequest_of_halt hgroup).symm.trans h)
          have hword := (lookup_group .halt).mp hgroup
          exact ⟨begins_cons.mpr ⟨hword, by simp⟩, fun q hq => absurd hq (by simp)⟩
        · cases htail : (tokens (ofBuffer request)).tail with
          | nil => cases group <;> simp [plainRequest, hgroup, htail] at h hhalt
          | cons cmd args =>
              rw [plainRequest_of_parts hgroup htail hhalt] at h
              exact resembles_of_plainParts hgroup htail h
  · rintro ⟨hbegins, hquery⟩
    cases p with
    | emit c =>
        obtain ⟨hword, cmd, args, htail, hsub⟩ := begins_pair.mp hbegins
        rw [plainRequest_of_parts ((lookup_group .emit).mpr hword) htail (by decide), plainParts,
          (lookup_emit c).mpr hsub, Option.map_some]
    | dacQuery q =>
        obtain ⟨hword, cmd, args, htail, -⟩ := begins_pair.mp hbegins
        have hsub := hquery q rfl
        rw [← List.getElem?_tail, htail, List.getElem?_cons_zero] at hsub
        obtain rfl := Option.some.inj hsub
        have hlookup : lookup dacTable (queryCommand q).word = some (queryCommand q) :=
          (lookup_dac_get (by cases q <;> decide)).mpr rfl
        rw [plainRequest_of_parts ((lookup_group .dac).mpr hword) htail (by decide), plainParts,
          hlookup, Option.bind_some]
        cases q <;> rfl
    | halt => exact plainRequest_of_halt ((lookup_group .halt).mpr (begins_cons.mp hbegins).1)
    | startInf => exact plainRequest_of_cal hbegins
    | stopInf => exact plainRequest_of_cal hbegins
    | counterReset => exact plainRequest_of_sync hbegins
    | getCounter => exact plainRequest_of_sync hbegins
    | forceTrigger => exact plainRequest_of_sync hbegins
    | getGlobalHitEna => exact plainRequest_of_sync hbegins
    | globalHitEnable => exact plainRequest_of_sync hbegins
    | globalHitDisable => exact plainRequest_of_sync hbegins
    | getAsicHitDisableMask => exact plainRequest_of_sync hbegins

lemma numberRequest_of_parts {group : Group}
    (hgroup : lookup groupTable (ofBuffer request) = some group)
    (htail : (tokens (ofBuffer request)).tail = cmd :: args) :
    numberRequest request = numberParts cmd args group := by
  rw [numberRequest, hgroup, htail]

lemma words_of_calNumberCommand {command : CalCommand} (h : calNumberCommand command = some c) :
    c.words = [Group.cal.word, command.word] := by
  cases command <;> simp [calNumberCommand] at h <;> subst h <;> rfl

lemma words_of_syncNumberCommand {command : SyncCommand} (h : syncNumberCommand command = some c) :
    c.words = [Group.sync.word, command.word] := by
  cases command <;> simp [syncNumberCommand] at h <;> subst h <;> rfl

/-- The argument of a command with one word behind that of its group. -/
lemma head?_eq_getElem? (htail : (tokens (ofBuffer request)).tail = cmd :: args)
    (hwords : words.length = 2) : args.head? = (tokens (ofBuffer request))[words.length]? := by
  rw [hwords, List.head?_eq_getElem?]
  exact (getElem?_tokens htail 0).symm

lemma numberRequest_of_cal {command : CalCommand} (hc : calNumberCommand command = some c)
    (h : Begins c.words request) :
    numberRequest request = some ⟨some c, (tokens (ofBuffer request))[c.words.length]?⟩ := by
  have hwords := words_of_calNumberCommand hc
  rw [hwords] at h
  obtain ⟨hword, cmd, args, htail, hsub⟩ := begins_pair.mp h
  rw [numberRequest_of_parts ((lookup_group .cal).mpr hword) htail, numberParts,
    (lookup_cal command).mpr hsub, ← head?_eq_getElem? htail (by rw [hwords]; rfl)]
  simp [hc]

lemma numberRequest_of_sync {command : SyncCommand} (hc : syncNumberCommand command = some c)
    (h : Begins c.words request) :
    numberRequest request = some ⟨some c, (tokens (ofBuffer request))[c.words.length]?⟩ := by
  have hwords := words_of_syncNumberCommand hc
  rw [hwords] at h
  obtain ⟨hword, cmd, args, htail, hsub⟩ := begins_pair.mp h
  rw [numberRequest_of_parts ((lookup_group .sync).mpr hword) htail, numberParts,
    (lookup_sync command).mpr hsub, ← head?_eq_getElem? htail (by rw [hwords]; rfl)]
  simp [hc]

lemma countsCommand_iff : countsCommand args = some c ↔
    ∃ sideStr choiceStr ts side choice, args = sideStr :: choiceStr :: ts ∧
      side.word <+: sideStr ∧ choice.word <+: choiceStr ∧ c = .setCounts side choice := by
  constructor
  · intro h
    obtain ⟨sideStr, choiceStr, ts, side, choice, hargs, hside, hchoice, hc⟩ :=
      exists_of_countsCommand h
    exact ⟨_, _, _, _, _, hargs, (parseSilayerSide_iff side).mp hside,
      (parseDacChoice_iff choice).mp hchoice, hc⟩
  · rintro ⟨sideStr, choiceStr, ts, side, choice, rfl, hside, hchoice, rfl⟩
    rw [countsCommand, (parseSilayerSide_iff side).mpr hside,
      (parseDacChoice_iff choice).mpr hchoice]
    rfl

/-- The words of `dac set-counts`. -/
lemma begins_setCounts {side : SilayerSide} {choice : DacChoice} :
    Begins (NumberCommand.setCounts side choice).words request ↔
      Group.dac.word <+: ofBuffer request ∧ ∃ cmd sideStr choiceStr ts,
        (tokens (ofBuffer request)).tail = cmd :: sideStr :: choiceStr :: ts ∧
          DacCommand.setCounts.word <+: cmd ∧ side.word <+: sideStr ∧
          choice.word <+: choiceStr := by
  rw [NumberCommand.words, begins_cons]
  refine and_congr_right fun _ => ?_
  rcases (tokens (ofBuffer request)).tail with - | ⟨cmd, - | ⟨sideStr, - | ⟨choiceStr, ts⟩⟩⟩
  · simp
  · simp
  · simp
  · simp

/-- **One command with a number.**  It is the command whose words begin the request, and its
argument is the token behind them. -/
lemma numberRequest_iff : numberRequest request = some ⟨some c, arg⟩ ↔
    Begins c.words request ∧ arg = (tokens (ofBuffer request))[c.words.length]? := by
  constructor
  · intro h
    obtain ⟨group, cmd, args, hgroup, htail, hparts⟩ := exists_parts_of_numberRequest h
    have hword := (lookup_group group).mp hgroup
    cases group with
    | cal =>
        obtain ⟨command, hlookup, hparts⟩ := Option.bind_eq_some_iff.mp hparts
        obtain ⟨c', hc, hparts⟩ := Option.bind_eq_some_iff.mp hparts
        obtain ⟨rfl, rfl⟩ : c' = c ∧ args.head? = arg := by simpa using hparts
        have hwords := words_of_calNumberCommand hc
        refine ⟨?_, head?_eq_getElem? htail (by rw [hwords]; rfl)⟩
        rw [hwords]
        exact begins_pair.mpr ⟨hword, cmd, args, htail, (lookup_cal command).mp hlookup⟩
    | sync =>
        obtain ⟨command, hlookup, hparts⟩ := Option.bind_eq_some_iff.mp hparts
        obtain ⟨c', hc, hparts⟩ := Option.bind_eq_some_iff.mp hparts
        obtain ⟨rfl, rfl⟩ : c' = c ∧ args.head? = arg := by simpa using hparts
        have hwords := words_of_syncNumberCommand hc
        refine ⟨?_, head?_eq_getElem? htail (by rw [hwords]; rfl)⟩
        rw [hwords]
        exact begins_pair.mpr ⟨hword, cmd, args, htail, (lookup_sync command).mp hlookup⟩
    | dac =>
        obtain ⟨command, hlookup, hparts⟩ := Option.bind_eq_some_iff.mp hparts
        cases command with
        | setDelay =>
            obtain ⟨rfl, rfl⟩ : .setDelay = c ∧ args.head? = arg := by simpa using hparts
            have hsub := (lookup_dac (.inl rfl)).mp hlookup
            exact ⟨begins_pair.mpr ⟨hword, cmd, args, htail, hsub⟩, head?_eq_getElem? htail rfl⟩
        | setCounts =>
            obtain ⟨hcounts, rfl⟩ : countsCommand args = some c ∧ args[2]? = arg := by
              simpa using hparts
            obtain ⟨_, _, ts, side, choice, rfl, hside, hchoice, rfl⟩ :=
              countsCommand_iff.mp hcounts
            have hsub := (lookup_dac (.inr rfl)).mp hlookup
            exact ⟨begins_setCounts.mpr ⟨hword, _, _, _, _, htail, hsub, hside, hchoice⟩,
              (getElem?_tokens htail 2).symm⟩
        | getDelay => simp at hparts
        | getInput => simp at hparts
    | emit => simp [numberParts] at hparts
    | vata => simp [numberParts] at hparts
    | getNVata => simp [numberParts] at hparts
    | halt => simp [numberParts] at hparts
  · rintro ⟨hbegins, rfl⟩
    cases c with
    | flag f =>
        have hc : calNumberCommand f.command = some (.flag f) := by cases f <;> rfl
        exact numberRequest_of_cal hc hbegins
    | setting f =>
        have hc : calNumberCommand f.command = some (.setting f) := by cases f <;> rfl
        exact numberRequest_of_cal hc hbegins
    | nPulses =>
        have hc : calNumberCommand .nPulses = some .nPulses := rfl
        exact numberRequest_of_cal hc hbegins
    | asicHit ena =>
        cases ena with
        | false =>
            have hc : syncNumberCommand .asicHitDisable = some (.asicHit false) := rfl
            exact numberRequest_of_sync hc hbegins
        | true =>
            have hc : syncNumberCommand .asicHitEnable = some (.asicHit true) := rfl
            exact numberRequest_of_sync hc hbegins
    | setDelay =>
        obtain ⟨hword, cmd, args, htail, hsub⟩ := begins_pair.mp hbegins
        rw [numberRequest_of_parts ((lookup_group .dac).mpr hword) htail, numberParts,
          (lookup_dac (.inl rfl)).mpr hsub, ← head?_eq_getElem? htail rfl]
        rfl
    | setCounts side choice =>
        obtain ⟨hword, cmd, sideStr, choiceStr, ts, htail, hsub, hside, hchoice⟩ :=
          begins_setCounts.mp hbegins
        have hcounts : countsCommand (sideStr :: choiceStr :: ts) = _ :=
          countsCommand_iff.mpr ⟨_, _, _, _, _, rfl, hside, hchoice, rfl⟩
        have harg := getElem?_tokens htail 2
        rw [numberRequest_of_parts ((lookup_group .dac).mpr hword) htail, numberParts,
          (lookup_dac (.inr rfl)).mpr hsub]
        exact congrArg₂ (fun c arg => some (NumberRequest.mk c arg)) hcounts harg.symm

end Begins

/-! ## Forms and what resembles them -/

section Resembles

variable {nVata : ℕ} {request : List Byte} {s : List Byte} {c : NumberCommand} {n : ℤ} {a : Token}

lemma parsed_eq_iff_reads (ha : a ∈ tokens s) (hn : 0 ≤ n) :
    (parsed (some a)).1 = n ↔ ∃ m, number a = some m ∧ min m 2147483647 = n := by
  show positiveInt a = n ↔ _
  rw [positiveInt_eq ha]
  cases number a with
  | none =>
      have hneg : -1 ≠ n := by omega
      simp [hneg]
  | some m =>
      have hclamp : clampLong m = n ↔ min m 2147483647 = n := by
        rw [clampLong]
        omega
      simp [hclamp]

/-- The number of the code, among those that the command takes. -/
lemma value_eq_iff_reads (ha : a ∈ tokens s) (hrange : c.InRange nVata n) :
    c.value (some a) = n ↔ c.Reads a n := by
  cases c with
  | flag f => exact parsed_eq_iff_reads ha hrange.1
  | setting f => exact parsed_eq_iff_reads ha hrange.1
  | nPulses => exact parsed_eq_iff_reads ha (zero_le_one.trans hrange.1)
  | asicHit ena => exact parsed_eq_iff_reads ha hrange.1
  | setDelay =>
      have hint : 0 ≤ n ∧ n ≤ 65535 := hrange
      exact atoi_eq_iff (by omega)
  | setCounts side choice =>
      have hint : 0 ≤ n ∧ n ≤ 4095 := hrange
      exact atoi_eq_iff (by omega)

/-- A request resembles the form of its command with the number that the code makes of its
argument. -/
lemma resembles_number_iff : Resembles nVata request (.number c n) ↔
    ∃ a, numberRequest request = some ⟨some c, some a⟩ ∧ c.InRange nVata n ∧
      c.value (some a) = n := by
  constructor
  · rintro ⟨hbegins, hrange, a, harg, hreads⟩
    have ha := List.mem_of_getElem? harg
    exact ⟨a, numberRequest_iff.mpr ⟨hbegins, harg.symm⟩, hrange,
      (value_eq_iff_reads ha hrange).mpr hreads⟩
  · rintro ⟨a, hr, hrange, hvalue⟩
    obtain ⟨hbegins, harg⟩ := numberRequest_iff.mp hr
    have ha := List.mem_of_getElem? harg.symm
    exact ⟨hbegins, hrange, a, harg.symm, (value_eq_iff_reads ha hrange).mp hvalue⟩

/-- Tokens begin the request in their places, if no space begins it. -/
lemma begins_of_tokens {words ts : List Token} (hwords : words ≠ [])
    (htokens : tokens (ofBuffer request) = words ++ ts)
    (hspace : (ofBuffer request).head? ≠ some 32#8) : Begins words request := by
  obtain ⟨word, words, rfl⟩ := List.exists_cons_of_ne_nil hwords
  refine begins_cons.mpr ⟨prefix_of_tokens htokens hspace, ?_⟩
  rw [htokens, List.cons_append, List.tail_cons, List.take_left]
  exact List.forall₂_same.mpr fun _ _ => List.prefix_rfl

lemma PlainCommand.words_ne_nil (p : PlainCommand) : p.words ≠ [] := by
  cases p <;> simp [PlainCommand.words]

lemma NumberCommand.words_ne_nil (c : NumberCommand) : c.words ≠ [] := by
  cases c with
  | asicHit ena => cases ena <;> simp [NumberCommand.words]
  | _ => simp [NumberCommand.words]

/-- **Forms resemble themselves**, if no space begins the request and the code reads the number as
it is. -/
lemma resembles_of_spells {f : Form} (hf : Spells nVata (tokens (ofBuffer request)) f)
    (hspace : (ofBuffer request).head? ≠ some 32#8)
    (hreads : ∀ c n a, f = .number c n → tokens (ofBuffer request) = c.words ++ [a] →
      c.Denotes a n → c.Reads a n) : Resembles nVata request f := by
  cases f with
  | plain p =>
      have htokens : tokens (ofBuffer request) = p.words ++ [] := by rwa [List.append_nil]
      refine ⟨begins_of_tokens p.words_ne_nil htokens hspace, ?_⟩
      rintro q rfl
      rw [show tokens (ofBuffer request) = _ from hf]
      rfl
  | number c n =>
      obtain ⟨hrange, a, hdenotes, htokens⟩ := hf
      refine ⟨begins_of_tokens c.words_ne_nil htokens hspace, hrange, a, ?_,
        hreads c n a rfl htokens hdenotes⟩
      rw [htokens, List.getElem?_append_right le_rfl, Nat.sub_self, List.getElem?_cons_zero]

end Resembles

end LayerServer

end TrackerFpga.Server
