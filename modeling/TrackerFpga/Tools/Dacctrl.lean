import TrackerFpga.Tools.Lines

/-!
# `dacctrl`

The options of `dacctrl.cpp` are the commands of the server's `dac` group.
-/

namespace TrackerFpga.Tools.Dacctrl

open ByteCodec CommandLine CString Interaction Mapped Server

/-- `PARSE_ARGS_ERR`. -/
def parseArgsErr : ℤ := 1

/-- `DAC_VALUE_ERR`. -/
def dacValueErr : ℤ := 2

/-- `DAC_DELAY_ERR`. -/
def dacDelayErr : ℤ := 3

/-- The options. -/
inductive Opt
  | setDelay
  | getDelay
  | setCounts
  | getInput
  deriving DecidableEq

/-- The chain of `parse_args`, after `--help`. -/
def optionTable : List (String × Opt) :=
  [("--set-delay", .setDelay), ("--get-delay", .getDelay), ("--set-counts", .setCounts),
    ("--get-input", .getInput)]

/-- `parse_set_counts_args`. -/
def parseSetCountsArgs (side choice counts : Arg) :
    Option (SilayerSide × DacChoice × BitVec 32) :=
  match LayerServer.parseSilayerSide side, LayerServer.parseDacChoice choice with
  | some side, some choice => some (side, choice, BitVec.ofInt 32 (atoi counts))
  | _, _ => none

/-- What is said about a side and a DAC that cannot be parsed. -/
def couldNotParse (side choice : Arg) : List Byte :=
  bytes "ERROR: Could not parse " ++ side ++ bytes " as SilayerSide, " ++ choice ++
    bytes " as DacChoice."

/-- `parse_args`.  `out` is what was printed so far. -/
def parseArgs (out : List (List Byte)) : List Arg → Driver Ended
  | [] => pure ⟨out, [], 0⟩
  | arg :: rest =>
      if IsHelp arg then pure ⟨out, [], parseArgsErr⟩
      else
        match lookup optionTable arg with
        | some .setDelay =>
            match rest with
            | [] => pure ⟨out, [bytes "ERROR: No delay value specified."], parseArgsErr⟩
            | delay :: rest => do
                let ret ← Dac.DacCtrl.setDelay (BitVec.ofInt 32 (atoi delay))
                if ret = 1 then
                  pure ⟨out, [bytes "ERROR: Delay value too large."], dacDelayErr⟩
                else parseArgs out rest
        | some .getDelay => do
            let delay ← Dac.DacCtrl.getDelay
            parseArgs (out ++ [decimal delay.toNat]) rest
        | some .setCounts =>
            match rest with
            | side :: choice :: counts :: rest =>
                match parseSetCountsArgs side choice counts with
                | none => pure ⟨out, [couldNotParse side choice], parseArgsErr⟩
                | some (side, choice, counts) => do
                    let ret ← Dac.DacCtrl.setCounts side choice counts
                    if ret = 1 then
                      pure ⟨out, [bytes "ERROR: Input value too large."], dacValueErr⟩
                    else parseArgs out rest
            | _ =>
                pure ⟨out, [bytes "ERROR: Must pass <SIDE> <DAC> <VALUE> with --set_counts."],
                  parseArgsErr⟩
        | some .getInput => do
            let input ← Dac.DacCtrl.getInput
            parseArgs (out ++ [decimal input.toNat]) rest
        | none =>
            pure ⟨out, [bytes "ERROR: Unrecognized command line option: " ++ arg], parseArgsErr⟩

/-- `main`, for the words after the name of the program. -/
def main (args : List Arg) : Driver Ended :=
  if args = [] then pure ⟨[], [], parseArgsErr⟩ else parseArgs [] args

/-! ## The options as forms -/

/-- The word of an option. -/
def Opt.word : Opt → Arg
  | .setDelay => bytes "--set-delay"
  | .getDelay => bytes "--get-delay"
  | .setCounts => bytes "--set-counts"
  | .getInput => bytes "--get-input"

/-- How many words an option takes. -/
def Opt.arity : Opt → ℕ
  | .setDelay => 1
  | .setCounts => 3
  | _ => 0

lemma lookup_optionTable {arg : Arg} {o : Opt} : lookup optionTable arg = some o ↔ arg = o.word :=
  lookup_iff (by decide) fun o => by cases o <;> decide

lemma not_isHelp (o : Opt) : ¬ IsHelp o.word := by cases o <;> decide

/-- The options of `dacctrl`. -/
def options : Options Opt Arg where
  word := Opt.word
  arity := Opt.arity
  word_injective _ _ h :=
    Option.some.inj ((lookup_optionTable.mpr rfl).symm.trans (lookup_optionTable.mpr h))

/-- What a delay is refused with. -/
def badDelay : Refusal := ([bytes "ERROR: Delay value too large."], dacDelayErr)

/-- What counts are refused with. -/
def badCounts : Refusal := ([bytes "ERROR: Input value too large."], dacValueErr)

/-- What `--set-counts` means with these arguments. -/
def countsMeaning (nVata : ℕ) (side choice counts : Arg) : Except Refusal LayerServer.Form :=
  match LayerServer.parseSilayerSide side, LayerServer.parseDacChoice choice with
  | some side, some choice => ranged nVata (.setCounts side choice) (atoi counts) badCounts
  | _, _ => .error ([couldNotParse side choice], parseArgsErr)

lemma countsMeaning_ne_halt (nVata : ℕ) (side choice counts : Arg) :
    countsMeaning nVata side choice counts ≠ .ok (.plain .halt) := by
  rw [countsMeaning]
  split
  · exact ranged_ne_halt _ _ _ _
  · simp

/-- What an option means. -/
def meaning (nVata : ℕ) (item : options.Item) : Except Refusal LayerServer.Form :=
  match item.option with
  | .setDelay => ranged nVata .setDelay (atoi (item.arg 0)) badDelay
  | .getDelay => .ok (.plain (.dacQuery .getDelay))
  | .setCounts => countsMeaning nVata (item.arg 0) (item.arg 1) (item.arg 2)
  | .getInput => .ok (.plain (.dacQuery .getInput))

/-- What is said about words that cannot be read. -/
def unread : List Arg → List (List Byte)
  | [] => []
  | arg :: _ =>
      if IsHelp arg then []
      else
        match lookup optionTable arg with
        | some .setDelay => [bytes "ERROR: No delay value specified."]
        | some _ => [bytes "ERROR: Must pass <SIDE> <DAC> <VALUE> with --set_counts."]
        | none => [bytes "ERROR: Unrecognized command line option: " ++ arg]

/-- The options as forms. -/
def tool : FormTool options.Item where
  grammar := options.grammar
  meaning := meaning
  unread := unread
  goes_on nVata item := by
    rw [meaning]
    cases item.option
    case setDelay => exact ranged_ne_halt _ _ _ _
    case setCounts => exact countsMeaning_ne_halt _ _ _ _
    all_goals simp

/-! ## What the loop does at an option -/

/-- What `--set-counts` does with these arguments. -/
def countsProgram (side choice counts : Arg) : Driver (Except Refusal (List (List Byte))) :=
  match parseSetCountsArgs side choice counts with
  | none => pure (.error ([couldNotParse side choice], parseArgsErr))
  | some (side, choice, counts) =>
      checked (Dac.DacCtrl.setCounts side choice counts) (· = 1) badCounts

/-- What `parse_args` does at an option. -/
def program (item : options.Item) : Driver (Except Refusal (List (List Byte))) :=
  match item.option with
  | .setDelay =>
      checked (Dac.DacCtrl.setDelay (BitVec.ofInt 32 (atoi (item.arg 0)))) (· = 1) badDelay
  | .getDelay => do
      let delay ← Dac.DacCtrl.getDelay
      pure (.ok [decimal delay.toNat])
  | .setCounts => countsProgram (item.arg 0) (item.arg 1) (item.arg 2)
  | .getInput => do
      let input ← Dac.DacCtrl.getInput
      pure (.ok [decimal input.toNat])

section Loop

/-- The loop performs the option that begins the words. -/
lemma parseArgs_option (item : options.Item) (out : List (List Byte)) (ws : List Arg) :
    parseArgs out (options.grammar.words item ++ ws) =
      program item >>= goOn out fun out' => parseArgs out' ws := by
  obtain ⟨opt, args, hargs⟩ := item
  have hopt : lookup optionTable opt.word = some opt := lookup_optionTable.mpr rfl
  have hwords : options.grammar.words ⟨opt, args, hargs⟩ ++ ws = opt.word :: (args ++ ws) := rfl
  rw [hwords, parseArgs.eq_def]
  dsimp only
  rw [if_neg (not_isHelp opt), hopt]
  cases opt
  case setDelay =>
    obtain ⟨delay, rfl⟩ := List.length_eq_one_iff.mp hargs
    exact (checked_bind _ _ badDelay out fun out' => parseArgs out' ws).symm
  case setCounts =>
    obtain ⟨side, choice, counts, rfl⟩ := List.length_eq_three.mp hargs
    have hprogram : program ⟨.setCounts, [side, choice, counts], hargs⟩ =
        countsProgram side choice counts := rfl
    rw [hprogram, countsProgram]
    dsimp only [List.cons_append, List.nil_append]
    cases parseSetCountsArgs side choice counts with
    | none => rfl
    | some parsed => exact (checked_bind _ _ badCounts out fun out' => parseArgs out' ws).symm
  all_goals
    obtain rfl := List.length_eq_zero_iff.mp hargs
    simp only [program, goOn, Program.bind_assoc, Program.pure_eq, Program.done_bind,
      List.nil_append]

lemma parseArgs_unread {out : List (List Byte)} {arg : Arg} {rest : List Arg}
    (h : options.grammar.Stuck (arg :: rest)) :
    parseArgs out (arg :: rest) = pure ⟨out, unread (arg :: rest), 1⟩ := by
  rw [parseArgs.eq_def, unread]
  dsimp only
  by_cases hhelp : IsHelp arg
  · rw [if_pos hhelp, if_pos hhelp]
    rfl
  rw [if_neg hhelp, if_neg hhelp]
  cases hopt : lookup optionTable arg with
  | none => rfl
  | some opt =>
      have hlt : rest.length < opt.arity :=
        Options.stuck_cons_iff.mp h opt (lookup_optionTable.mp hopt).symm
      cases opt
      case setDelay =>
        obtain rfl := List.length_eq_zero_iff.mp (Nat.lt_one_iff.mp hlt)
        rfl
      case setCounts =>
        match rest with
        | [] | [_] | [_, _] => rfl
        | _ :: _ :: _ :: rest => exact absurd hlt (by simp [Opt.arity])
      all_goals exact absurd hlt (Nat.not_lt_zero _)

lemma loops : Loops tool program parseArgs where
  option := parseArgs_option
  ends _ := rfl
  unread _ _ _ h := parseArgs_unread h

end Loop

/-! ## What an option does to the registers -/

section Performs

variable {nVata : ℕ} {cal sync m m' : ℕ → BitVec 32} {srv : LayerServer} {i : Instrument} {n : ℤ}
  {a : DacAction} {command : LayerServer.NumberCommand} {refusal : Refusal}
  {r : Except Refusal (List (List Byte))}

/-- A number is refused out of the range. -/
lemma outcome_dac (hi : Shows i srv ⟨cal, m, sync⟩)
    (hcall : command.call srv.calctrl n = .dac a)
    (hret : (a.method.eval registers m).1 = if command.InRange nVata n then 0 else 1)
    (h : Exec (memory fun _ => True) (checked a.method (· = 1) refusal) m r m') :
    Outcome nVata (fun m => ⟨cal, m, sync⟩) srv i m r m' (ranged nVata command n refusal) := by
  refine outcome_checked (never_hidden_dacMethod a) (fun hin => ?_) (fun hout => ?_) h
  · rw [if_pos hin] at hret
    refine ⟨by rw [hret]; decide, shows_of_acts nVata (.dac a) ?_ rfl ?_ hi⟩
    · exact congrArg (fun call => [call]) hcall
    · rintro c k ⟨⟩
      exact hin
  · rw [if_neg hout] at hret
    exact ⟨hret, dacMethod_refused (by rw [hret]; decide)⟩

lemma setDelay_ret (delay : Arg) :
    ((Dac.DacCtrl.Call.setDelay (BitVec.ofInt 32 (atoi delay))).method.eval registers m).1 =
      if LayerServer.NumberCommand.setDelay.InRange nVata (atoi delay) then 0 else 1 := by
  have hrange : ¬ Dac.DacCtrl.maxDelay < BitVec.ofInt 32 (atoi delay) ↔
      LayerServer.NumberCommand.setDelay.InRange nVata (atoi delay) :=
    LayerServer.ofInt_le_iff (by decide) (LayerServer.atoi_bounds delay)
  rw [Dac.DacCtrl.Call.method, Dac.DacCtrl.setDelay]
  by_cases hin : LayerServer.NumberCommand.setDelay.InRange nVata (atoi delay)
  · rw [if_pos hin, if_neg (hrange.mpr hin)]
    rfl
  · rw [if_neg hin, if_pos (not_not.mp fun h => hin (hrange.mp h))]
    rfl

lemma setCounts_ret (side : SilayerSide) (choice : DacChoice) (counts : Arg) :
    ((Dac.DacCtrl.Call.setCounts side choice (BitVec.ofInt 32 (atoi counts))).method.eval
        registers m).1 =
      if (LayerServer.NumberCommand.setCounts side choice).InRange nVata (atoi counts) then 0
      else 1 := by
  have hrange : ¬ Dac.DacCtrl.maxInput < BitVec.ofInt 32 (atoi counts) ↔
      (LayerServer.NumberCommand.setCounts side choice).InRange nVata (atoi counts) :=
    LayerServer.ofInt_le_iff (by decide) (LayerServer.atoi_bounds counts)
  rw [Dac.DacCtrl.Call.method, Dac.DacCtrl.setCounts]
  by_cases hin : (LayerServer.NumberCommand.setCounts side choice).InRange nVata (atoi counts)
  · rw [if_pos hin, if_neg (hrange.mpr hin)]
    rfl
  · rw [if_neg hin, if_pos (not_not.mp fun h => hin (hrange.mp h))]
    rfl

/-- A side or a DAC that cannot be parsed is refused. -/
lemma outcome_counts {side choice counts : Arg} (hi : Shows i srv ⟨cal, m, sync⟩)
    (h : Exec (memory fun _ => True) (countsProgram side choice counts) m r m') :
    Outcome nVata (fun m => ⟨cal, m, sync⟩) srv i m r m'
      (countsMeaning nVata side choice counts) := by
  rw [countsProgram, parseSetCountsArgs] at h
  rw [countsMeaning]
  cases hside : LayerServer.parseSilayerSide side with
  | none =>
      rw [hside] at h
      exact exec_done.mp h
  | some s =>
      cases hchoice : LayerServer.parseDacChoice choice with
      | none =>
          rw [hside, hchoice] at h
          exact exec_done.mp h
      | some c =>
          rw [hside, hchoice] at h
          exact outcome_dac hi rfl (setCounts_ret s c counts) h

/-- **An option does what its form does.** -/
lemma performs (nVata : ℕ) (cal sync : ℕ → BitVec 32) (srv : LayerServer) :
    Performs tool nVata (fun _ => True) program (fun m => ⟨cal, m, sync⟩) srv := by
  rintro ⟨opt, args, hargs⟩ i m r m' hi h
  cases opt
  case setDelay => exact outcome_dac hi rfl (setDelay_ret _) h
  case setCounts => exact outcome_counts hi h
  case getDelay =>
    obtain ⟨rfl, rfl⟩ := exec_then (by simp [Dac.DacCtrl.getDelay]) h rfl
    exact ⟨⟨0#64, congrArg (fun n => Except.ok [decimal n]) hi.delay⟩, hi⟩
  case getInput =>
    obtain ⟨rfl, rfl⟩ := exec_then (by simp [Dac.DacCtrl.getInput]) h rfl
    exact ⟨⟨0#64, congrArg (fun n => Except.ok [decimal n]) hi.counts⟩, hi⟩

end Performs

end TrackerFpga.Tools.Dacctrl
