import TrackerFpga.Tools.Lines

/-!
# `syncctrl`

The options of `syncctrl.cpp` are the commands of the server's `sync` group.
-/

namespace TrackerFpga.Tools.Syncctrl

open ByteCodec CommandLine CString Interaction Mapped Server

/-- `SYNC_PARSE_ARGS_ERR`. -/
def syncParseArgsErr : ℤ := 1

/-- `SYNC_BAD_ASIC_NUM_ERR`. -/
def syncBadAsicNumErr : ℤ := 2

/-- The options. -/
inductive Opt
  | counterReset
  | getCounter
  | forceTrigger
  | getGlobalHitEnable
  | globalHitEnable
  | globalHitDisable
  | asicHitDisable
  | asicHitEnable
  | asicHitDisableMask
  deriving DecidableEq

/-- The chain of `parse_args`, after `--help`. -/
def optionTable : List (String × Opt) :=
  [("--counter-reset", .counterReset), ("--get-counter", .getCounter),
    ("--force-trigger", .forceTrigger), ("--get-global-hit-enable", .getGlobalHitEnable),
    ("--global-hit-enable", .globalHitEnable), ("--global-hit-disable", .globalHitDisable),
    ("--asic-hit-disable", .asicHitDisable), ("--asic-hit-enable", .asicHitEnable),
    ("--asic-hit-disable-mask", .asicHitDisableMask)]

/-- The line for the option `--asic-hit-disable-mask`. -/
def maskLine (nVata : ℕ) (mask : BitVec 32) : List Byte :=
  (List.range nVata).reverse.flatMap fun j => decimal ((mask &&& 1#32 <<< j) >>> j).toNat

/-- `parse_args`, with `N_VATA = nVata`.  `out` is what was printed so far. -/
def parseArgs (o : WordOrder) (nVata : ℕ) (out : List (List Byte)) : List Arg → Driver Ended
  | [] => pure ⟨out, [], 0⟩
  | arg :: rest =>
      if IsHelp arg then pure ⟨out, [], syncParseArgsErr⟩
      else
        match lookup optionTable arg with
        | some .counterReset => do
            Sync.SyncCtrl.counterReset
            parseArgs o nVata out rest
        | some .getCounter => do
            let counter ← Sync.SyncCtrl.getCounter o
            parseArgs o nVata (out ++ [decimal counter.toNat]) rest
        | some .forceTrigger => do
            Sync.SyncCtrl.forceTrigger
            parseArgs o nVata out rest
        | some .getGlobalHitEnable => do
            let enabled ← Sync.SyncCtrl.isGlobalHitEnabled
            parseArgs o nVata (out ++ [bytes (if enabled then "1" else "0")]) rest
        | some .globalHitEnable => do
            Sync.SyncCtrl.globalHitEnable
            parseArgs o nVata out rest
        | some .globalHitDisable => do
            Sync.SyncCtrl.globalHitDisable
            parseArgs o nVata out rest
        | some .asicHitDisable =>
            match rest with
            | [] => pure ⟨out, [bytes "ERROR: No asic number provided."], syncParseArgsErr⟩
            | asic :: rest => do
                let ret ← Sync.SyncCtrl.asicHitDisable nVata (atoi asic)
                if ret ≠ 0 then
                  pure ⟨out, [bytes "ERROR: Bad asic number provided."], syncBadAsicNumErr⟩
                else parseArgs o nVata out rest
        | some .asicHitEnable =>
            match rest with
            | [] => pure ⟨out, [bytes "ERROR: No asic number provided."], syncParseArgsErr⟩
            | asic :: rest => do
                let ret ← Sync.SyncCtrl.asicHitEnable nVata (atoi asic)
                if ret ≠ 0 then
                  pure ⟨out, [bytes "ERROR: Bad asic number provided."], syncBadAsicNumErr⟩
                else parseArgs o nVata out rest
        | some .asicHitDisableMask => do
            let mask ← Sync.SyncCtrl.getAsicHitDisableMask
            parseArgs o nVata (out ++ [maskLine nVata mask]) rest
        | none =>
            pure ⟨out, [bytes "ERROR: Unrecognized command line option: " ++ arg], syncParseArgsErr⟩

/-- `main`, for the words after the name of the program. -/
def main (o : WordOrder) (nVata : ℕ) (args : List Arg) : Driver Ended :=
  if args = [] then pure ⟨[], [], syncParseArgsErr⟩ else parseArgs o nVata [] args

/-! ## The options as forms -/

/-- The word of an option. -/
def Opt.word : Opt → Arg
  | .counterReset => bytes "--counter-reset"
  | .getCounter => bytes "--get-counter"
  | .forceTrigger => bytes "--force-trigger"
  | .getGlobalHitEnable => bytes "--get-global-hit-enable"
  | .globalHitEnable => bytes "--global-hit-enable"
  | .globalHitDisable => bytes "--global-hit-disable"
  | .asicHitDisable => bytes "--asic-hit-disable"
  | .asicHitEnable => bytes "--asic-hit-enable"
  | .asicHitDisableMask => bytes "--asic-hit-disable-mask"

/-- How many words an option takes. -/
def Opt.arity : Opt → ℕ
  | .asicHitDisable | .asicHitEnable => 1
  | _ => 0

lemma lookup_optionTable {arg : Arg} {o : Opt} : lookup optionTable arg = some o ↔ arg = o.word :=
  lookup_iff (by decide) fun o => by cases o <;> decide

lemma not_isHelp (o : Opt) : ¬ IsHelp o.word := by cases o <;> decide

/-- The options of `syncctrl`. -/
def options : Options Opt Arg where
  word := Opt.word
  arity := Opt.arity
  word_injective _ _ h :=
    Option.some.inj ((lookup_optionTable.mpr rfl).symm.trans (lookup_optionTable.mpr h))

/-- What a bad asic number is refused with. -/
def badAsicNum : Refusal := ([bytes "ERROR: Bad asic number provided."], syncBadAsicNumErr)

/-- What an option means. -/
def meaning (nVata : ℕ) (item : options.Item) : Except Refusal LayerServer.Form :=
  match item.option with
  | .counterReset => .ok (.plain .counterReset)
  | .getCounter => .ok (.plain .getCounter)
  | .forceTrigger => .ok (.plain .forceTrigger)
  | .getGlobalHitEnable => .ok (.plain .getGlobalHitEna)
  | .globalHitEnable => .ok (.plain .globalHitEnable)
  | .globalHitDisable => .ok (.plain .globalHitDisable)
  | .asicHitDisable => ranged nVata (.asicHit false) (atoi (item.arg 0)) badAsicNum
  | .asicHitEnable => ranged nVata (.asicHit true) (atoi (item.arg 0)) badAsicNum
  | .asicHitDisableMask => .ok (.plain .getAsicHitDisableMask)

/-- What is said about words that cannot be read. -/
def unread : List Arg → List (List Byte)
  | [] => []
  | arg :: _ =>
      if IsHelp arg then []
      else if (lookup optionTable arg).isSome then [bytes "ERROR: No asic number provided."]
      else [bytes "ERROR: Unrecognized command line option: " ++ arg]

/-- The options as forms. -/
def tool : FormTool options.Item where
  grammar := options.grammar
  meaning := meaning
  unread := unread
  goes_on nVata item := by
    rw [meaning]
    cases item.option
    case asicHitDisable | asicHitEnable => exact ranged_ne_halt _ _ _ _
    all_goals simp

/-! ## What the loop does at an option -/

/-- What `parse_args` does at an option. -/
def program (o : WordOrder) (nVata : ℕ) (item : options.Item) :
    Driver (Except Refusal (List (List Byte))) :=
  match item.option with
  | .counterReset => do
      Sync.SyncCtrl.counterReset
      pure (.ok [])
  | .getCounter => do
      let counter ← Sync.SyncCtrl.getCounter o
      pure (.ok [decimal counter.toNat])
  | .forceTrigger => do
      Sync.SyncCtrl.forceTrigger
      pure (.ok [])
  | .getGlobalHitEnable => do
      let enabled ← Sync.SyncCtrl.isGlobalHitEnabled
      pure (.ok [bytes (if enabled then "1" else "0")])
  | .globalHitEnable => do
      Sync.SyncCtrl.globalHitEnable
      pure (.ok [])
  | .globalHitDisable => do
      Sync.SyncCtrl.globalHitDisable
      pure (.ok [])
  | .asicHitDisable =>
      checked (Sync.SyncCtrl.asicHitDisable nVata (atoi (item.arg 0))) (· ≠ 0) badAsicNum
  | .asicHitEnable =>
      checked (Sync.SyncCtrl.asicHitEnable nVata (atoi (item.arg 0))) (· ≠ 0) badAsicNum
  | .asicHitDisableMask => do
      let mask ← Sync.SyncCtrl.getAsicHitDisableMask
      pure (.ok [maskLine nVata mask])

section Loop

variable {o : WordOrder} {nVata : ℕ}

/-- The loop performs the option that begins the words. -/
lemma parseArgs_option (item : options.Item) (out : List (List Byte)) (ws : List Arg) :
    parseArgs o nVata out (options.grammar.words item ++ ws) =
      program o nVata item >>= goOn out fun out' => parseArgs o nVata out' ws := by
  obtain ⟨opt, args, hargs⟩ := item
  have hopt : lookup optionTable opt.word = some opt := lookup_optionTable.mpr rfl
  have hwords : options.grammar.words ⟨opt, args, hargs⟩ ++ ws = opt.word :: (args ++ ws) := rfl
  rw [hwords, parseArgs.eq_def]
  dsimp only
  rw [if_neg (not_isHelp opt), hopt]
  cases opt
  case asicHitDisable =>
    obtain ⟨asic, rfl⟩ := List.length_eq_one_iff.mp hargs
    exact (checked_bind _ _ badAsicNum out fun out' => parseArgs o nVata out' ws).symm
  case asicHitEnable =>
    obtain ⟨asic, rfl⟩ := List.length_eq_one_iff.mp hargs
    exact (checked_bind _ _ badAsicNum out fun out' => parseArgs o nVata out' ws).symm
  all_goals
    obtain rfl := List.length_eq_zero_iff.mp hargs
    simp only [program, goOn, Program.bind_assoc, Program.pure_eq, Program.done_bind,
      List.append_nil, List.nil_append]

lemma parseArgs_unread {out : List (List Byte)} {arg : Arg} {rest : List Arg}
    (h : options.grammar.Stuck (arg :: rest)) :
    parseArgs o nVata out (arg :: rest) = pure ⟨out, unread (arg :: rest), 1⟩ := by
  rw [parseArgs.eq_def, unread]
  dsimp only
  by_cases hhelp : IsHelp arg
  · rw [if_pos hhelp, if_pos hhelp]
    rfl
  rw [if_neg hhelp, if_neg hhelp]
  cases hopt : lookup optionTable arg with
  | none => rfl
  | some opt =>
      have hlt : rest.length < opt.arity :=
        Options.stuck_cons_iff.mp h opt (lookup_optionTable.mp hopt).symm
      cases opt
      case asicHitDisable =>
        obtain rfl := List.length_eq_zero_iff.mp (Nat.lt_one_iff.mp hlt)
        rfl
      case asicHitEnable =>
        obtain rfl := List.length_eq_zero_iff.mp (Nat.lt_one_iff.mp hlt)
        rfl
      all_goals exact absurd hlt (Nat.not_lt_zero _)

lemma loops (o : WordOrder) (nVata : ℕ) : Loops tool (program o nVata) (parseArgs o nVata) where
  option := parseArgs_option
  ends _ := rfl
  unread _ _ _ h := parseArgs_unread h

end Loop

/-! ## What an option does to the registers -/

/-- The registers that show what was written to them: all but those of the counter. -/
abbrev Shown (k : ℕ) : Prop := k ≠ 1 ∧ k ≠ 2

lemma maskLine_eq (n : ℕ) (mask : BitVec 32) : maskLine n mask = bitsLine n mask := by
  have hbit : ∀ j, decimal ((mask &&& 1#32 <<< j) >>> j).toNat =
      [if mask.getLsbD j then 49#8 else 48#8] := by
    intro j
    have hword : (mask &&& 1#32 <<< j) >>> j = if mask.getLsbD j then 1#32 else 0#32 := by
      refine BitVec.eq_of_getLsbD_eq fun k hk => ?_
      cases hj : mask.getLsbD j
      · by_cases hk0 : k = 0
        · simp [hk0, hj]
        · simp [hk0]
      · have hlt := BitVec.lt_of_getLsbD hj
        by_cases hk0 : k = 0
        · simp [hk0, hj, hlt]
        · simp [hk0]
    rw [hword]
    cases mask.getLsbD j <;> decide
  rw [maskLine, bitsLine, List.map_eq_flatMap]
  exact congrArg (List.flatMap · _) (funext hbit)

section Performs

variable {o : WordOrder} {nVata : ℕ} {cal dac m m' m'' : ℕ → BitVec 32} {srv : LayerServer}
  {i : Instrument} {f : LayerServer.Form} {α : Type} {p : Driver α}
  {r : Except Refusal (List (List Byte))} {lines : List (List Byte)}

/-- The counter is only read. -/
lemma same_of_readU64 {i : ℕ} {v : BitVec 64}
    (h : Exec (memory Shown) (readU64 o i) m v m') : m' = m := by
  cases o with
  | lowFirst =>
      obtain ⟨low, m₁, hlow, hrest⟩ := exec_bind.mp h
      obtain ⟨high, m₂, hhigh, hdone⟩ := exec_bind.mp hrest
      rw [(exec_done.mp hdone).2, (exec_memory_read.mp hhigh).2, (exec_memory_read.mp hlow).2]
  | highFirst =>
      obtain ⟨high, m₁, hhigh, hrest⟩ := exec_bind.mp h
      obtain ⟨low, m₂, hlow, hdone⟩ := exec_bind.mp hrest
      rw [(exec_done.mp hdone).2, (exec_memory_read.mp hlow).2, (exec_memory_read.mp hhigh).2]

/-- An asic number is refused out of the range. -/
lemma outcome_asic (ena : Bool) {n : ℤ} (hi : Shows i srv ⟨cal, dac, m⟩)
    (h : Exec (memory Shown)
      (checked ((LayerServer.asicHitAction ena n).method nVata) (· ≠ 0) badAsicNum) m r m') :
    Outcome nVata (fun m => ⟨cal, dac, m⟩) srv i m r m'
      (ranged nVata (.asicHit ena) n badAsicNum) := by
  have heval : ((LayerServer.asicHitAction ena n).method nVata).eval registers m = _ :=
    LayerServer.asicHit_eval ena n m
  have hrange : (LayerServer.NumberCommand.asicHit ena).InRange nVata n ↔ 0 ≤ n ∧ n < nVata := by
    have hbounds : (LayerServer.NumberCommand.asicHit ena).InRange nVata n ↔
        0 ≤ n ∧ n ≤ nVata - 1 := Iff.rfl
    rw [hbounds]
    omega
  refine outcome_checked (never_hidden_syncMethod nVata _) (fun hin => ?_) (fun hout => ?_) h
  · refine ⟨?_, shows_of_acts nVata (.sync (LayerServer.asicHitAction ena n)) rfl rfl ?_ hi⟩
    · rw [heval, if_pos (hrange.mp hin)]
      exact not_not.mpr rfl
    · rintro c k ⟨⟩
      exact hin
  · rw [heval, if_neg fun hn => hout (hrange.mpr hn)]
    exact ⟨one_ne_zero, rfl⟩

/-- **An option does what its form does.** -/
lemma performs (o : WordOrder) (nVata : ℕ) (cal dac : ℕ → BitVec 32) (srv : LayerServer) :
    Performs tool nVata Shown (program o nVata) (fun m => ⟨cal, dac, m⟩) srv := by
  rintro ⟨opt, args, hargs⟩ i m r m' hi h
  have hnone : ∀ (p : LayerServer.PlainCommand) (c : LayerServer.NumberCommand) (n : ℤ),
      LayerServer.Form.plain p = .number c n → c.InRange nVata n := by rintro p c n ⟨⟩
  cases opt
  case asicHitDisable => exact outcome_asic false hi h
  case asicHitEnable => exact outcome_asic true hi h
  case counterReset =>
    obtain ⟨rfl, rfl⟩ := exec_then (by simp [Sync.SyncCtrl.counterReset]) h rfl
    exact ⟨⟨0#64, rfl⟩, shows_of_acts nVata (.sync .counterReset) rfl rfl (hnone _) hi⟩
  case forceTrigger =>
    obtain ⟨rfl, rfl⟩ := exec_then (by simp [Sync.SyncCtrl.forceTrigger]) h rfl
    exact ⟨⟨0#64, rfl⟩, shows_of_acts nVata (.sync .forceTrigger) rfl rfl (hnone _) hi⟩
  case globalHitEnable =>
    obtain ⟨rfl, rfl⟩ := exec_then (by simp [Sync.SyncCtrl.globalHitEnable]) h rfl
    exact ⟨⟨0#64, rfl⟩, shows_of_acts nVata (.sync .globalHitEnable) rfl rfl (hnone _) hi⟩
  case globalHitDisable =>
    obtain ⟨rfl, rfl⟩ := exec_then (by simp [Sync.SyncCtrl.globalHitDisable]) h rfl
    exact ⟨⟨0#64, rfl⟩, shows_of_acts nVata (.sync .globalHitDisable) rfl rfl (hnone _) hi⟩
  case getGlobalHitEnable =>
    obtain ⟨rfl, rfl⟩ := exec_then never_hidden_isGlobalHitEnabled h rfl
    exact ⟨⟨0#64, congrArg (fun enabled : Bool => Except.ok [bytes (if enabled then "1" else "0")])
      hi.isGlobalHitEnabled⟩, hi⟩
  case asicHitDisableMask =>
    obtain ⟨rfl, rfl⟩ := exec_then never_hidden_getAsicHitDisableMask h rfl
    have hline : maskLine nVata (m' 3) = bitsLine nVata (Instrument.mask i.disabled) :=
      (maskLine_eq nVata _).trans (congrArg (bitsLine nVata) hi.disabled)
    exact ⟨⟨0#64, congrArg (fun line => Except.ok [line]) hline⟩, hi⟩
  case getCounter =>
    obtain ⟨counter, m₁, hread, hdone⟩ := exec_bind.mp h
    obtain ⟨rfl, rfl⟩ := exec_done.mp hdone
    obtain rfl : m' = m := same_of_readU64 hread
    exact ⟨⟨counter, rfl⟩, hi⟩

end Performs

end TrackerFpga.Tools.Syncctrl
