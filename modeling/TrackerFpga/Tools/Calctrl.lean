import TrackerFpga.Tools.Lines

/-!
# `calctrl`

`calctrl.cpp` reads its whole command line before it does anything.  A line that cannot be read, or
that has two of the options `--start`, `--stop` and `--n-pulses`, does nothing (`scan_spelled`).
Any other line starts from the settings of the constructor, whatever the calibrator was given
before, and writes them if it sets one of them or starts pulses (`Line.apply`).
-/

namespace TrackerFpga.Tools.Calctrl

open ByteCodec CommandLine CString Interaction Mapped Server

/-- `CAL_PARSE_ARGS_ERR`. -/
def calParseArgsErr : ℤ := 1

/-- The options. -/
inductive Opt
  | calPulseDisable
  | vataTriggerEnable
  | fastOrDisable
  | pulseWidth
  | triggerDelay
  | repeatDelay
  | start
  | stop
  | nPulses
  deriving DecidableEq

/-- The chain of `parse_args`, after `--help`. -/
def optionTable : List (String × Opt) :=
  [("--cal-pulse-disable", .calPulseDisable), ("--vata-trigger-enable", .vataTriggerEnable),
    ("--fast-or-disable", .fastOrDisable), ("--pulse-width", .pulseWidth),
    ("--trigger-delay", .triggerDelay), ("--repeat-delay", .repeatDelay), ("--start", .start),
    ("--stop", .stop), ("--n-pulses", .nPulses)]

/-- The variables of `parse_args`. -/
structure Locals where
  writeSettings : Bool
  startInf : Bool
  stopInf : Bool
  fireCmdIssued : Bool
  nPulses : ℤ
  calctrl : Cal.CalCtrl

/-- What they are initialised to. -/
def Locals.init : Locals where
  writeSettings := false
  startInf := false
  stopInf := false
  fireCmdIssued := false
  nPulses := -1
  calctrl := .default

/-- What a second command that fires pulses is refused with. -/
def onlyOne : List (List Byte) :=
  [bytes "ERROR: Only one of '--start', '--stop', or '--n-pulses' can be issued."]

/-- The loop of `parse_args`: the variables after it, or what is written to `stderr`. -/
def scan (l : Locals) : List Arg → Except (List (List Byte)) Locals
  | [] => .ok l
  | arg :: rest =>
      if IsHelp arg then .error []
      else
        match lookup optionTable arg with
        | some .calPulseDisable =>
            scan { l with calctrl.calPulseEna := false, writeSettings := true } rest
        | some .vataTriggerEnable =>
            scan { l with calctrl.vataTriggerEna := true, writeSettings := true } rest
        | some .fastOrDisable =>
            scan { l with calctrl.vataFastOrDisable := true, writeSettings := true } rest
        | some .pulseWidth =>
            match rest with
            | [] => .error [bytes "ERROR: No pulse width specified."]
            | v :: rest =>
                scan { l with
                  calctrl.calPulseWidth := BitVec.ofInt 32 (atoi v), writeSettings := true } rest
        | some .triggerDelay =>
            match rest with
            | [] => .error [bytes "ERROR: No trigger delay specified."]
            | v :: rest =>
                scan { l with
                  calctrl.vataTriggerDelay := BitVec.ofInt 32 (atoi v), writeSettings := true } rest
        | some .repeatDelay =>
            match rest with
            | [] => .error [bytes "ERROR: No repetition delay specified."]
            | v :: rest =>
                scan { l with
                  calctrl.repetitionDelay := BitVec.ofInt 32 (atoi v), writeSettings := true } rest
        | some .start =>
            if l.fireCmdIssued then .error onlyOne
            else scan { l with startInf := true, fireCmdIssued := true } rest
        | some .stop =>
            if l.fireCmdIssued then .error onlyOne
            else scan { l with stopInf := true, fireCmdIssued := true } rest
        | some .nPulses =>
            if l.fireCmdIssued then .error onlyOne
            else
              match rest with
              | [] => .error [bytes "ERROR: Number of pulses not provided."]
              | n :: rest => scan { l with nPulses := atoi n, fireCmdIssued := true } rest
        | none => .error [bytes "ERROR: Unrecognized command line option: " ++ arg]

/-- The command that fires pulses, or none. -/
def fireCmd (l : Locals) : Driver ℤ :=
  if l.startInf then l.calctrl.startInfPulses
  else if l.stopInf then Cal.CalCtrl.stopInfPulses
  else if l.nPulses > 0 then l.calctrl.nPulses (BitVec.ofInt 32 l.nPulses)
  else pure 0

/-- What `parse_args` does after the loop. -/
def act (l : Locals) : Driver Ended :=
  if l.writeSettings then do
    l.calctrl.writeSettings
    let _ ← fireCmd l
    pure ⟨[], [], 0⟩
  else do
    let _ ← fireCmd l
    pure ⟨[], [], 0⟩

/-- `parse_args`. -/
def parseArgs (args : List Arg) : Driver Ended :=
  match scan .init args with
  | .error err => pure ⟨[], err, calParseArgsErr⟩
  | .ok l => act l

/-- `main`, for the words after the name of the program. -/
def main (args : List Arg) : Driver Ended :=
  if args = [] then pure ⟨[], [], calParseArgsErr⟩ else parseArgs args

/-! ## The options -/

/-- The word of an option. -/
def Opt.word : Opt → Arg
  | .calPulseDisable => bytes "--cal-pulse-disable"
  | .vataTriggerEnable => bytes "--vata-trigger-enable"
  | .fastOrDisable => bytes "--fast-or-disable"
  | .pulseWidth => bytes "--pulse-width"
  | .triggerDelay => bytes "--trigger-delay"
  | .repeatDelay => bytes "--repeat-delay"
  | .start => bytes "--start"
  | .stop => bytes "--stop"
  | .nPulses => bytes "--n-pulses"

/-- How many words an option takes. -/
def Opt.arity : Opt → ℕ
  | .pulseWidth | .triggerDelay | .repeatDelay | .nPulses => 1
  | _ => 0

lemma lookup_optionTable {arg : Arg} {o : Opt} : lookup optionTable arg = some o ↔ arg = o.word :=
  lookup_iff (by decide) fun o => by cases o <;> decide

lemma not_isHelp (o : Opt) : ¬ IsHelp o.word := by cases o <;> decide

/-- The options of `calctrl`. -/
def options : Options Opt Arg where
  word := Opt.word
  arity := Opt.arity
  word_injective _ _ h :=
    Option.some.inj ((lookup_optionTable.mpr rfl).symm.trans (lookup_optionTable.mpr h))

/-- A command that fires pulses or stops them. -/
inductive Fire
  | start
  | stop
  | nPulses (n : ℤ)
  deriving DecidableEq

/-- What an option sets. -/
def setting (item : options.Item) : Option (Cal.CalCtrl → Cal.CalCtrl) :=
  match item.option with
  | .calPulseDisable => some fun c => { c with calPulseEna := false }
  | .vataTriggerEnable => some fun c => { c with vataTriggerEna := true }
  | .fastOrDisable => some fun c => { c with vataFastOrDisable := true }
  | .pulseWidth => some fun c => { c with calPulseWidth := BitVec.ofInt 32 (atoi (item.arg 0)) }
  | .triggerDelay =>
      some fun c => { c with vataTriggerDelay := BitVec.ofInt 32 (atoi (item.arg 0)) }
  | .repeatDelay => some fun c => { c with repetitionDelay := BitVec.ofInt 32 (atoi (item.arg 0)) }
  | _ => none

/-- What an option fires. -/
def fire (item : options.Item) : Option Fire :=
  match item.option with
  | .start => some .start
  | .stop => some .stop
  | .nPulses => some (.nPulses (atoi (item.arg 0)))
  | _ => none

/-- What is said about words that cannot be read, after `issued` says whether a command that fires
was read. -/
def unread (issued : Bool) : List Arg → List (List Byte)
  | [] => []
  | arg :: _ =>
      if IsHelp arg then []
      else
        match lookup optionTable arg with
        | some .pulseWidth => [bytes "ERROR: No pulse width specified."]
        | some .triggerDelay => [bytes "ERROR: No trigger delay specified."]
        | some .repeatDelay => [bytes "ERROR: No repetition delay specified."]
        | some _ => if issued then onlyOne else [bytes "ERROR: Number of pulses not provided."]
        | none => [bytes "ERROR: Unrecognized command line option: " ++ arg]

/-- The variables after a command that fires. -/
def Locals.fires (l : Locals) : Fire → Locals
  | .start => { l with startInf := true, fireCmdIssued := true }
  | .stop => { l with stopInf := true, fireCmdIssued := true }
  | .nPulses n => { l with nPulses := n, fireCmdIssued := true }

/-- The variables after an option. -/
def Locals.set (l : Locals) (item : options.Item) : Locals :=
  match setting item, fire item with
  | some f, _ => { l with calctrl := f l.calctrl, writeSettings := true }
  | none, some f => l.fires f
  | none, none => l

section Scan

variable {l : Locals} {items : List options.Item} {rest : List Arg}

/-- An option is a setting or fires. -/
lemma setting_eq_none_iff (item : options.Item) : setting item = none ↔ (fire item).isSome := by
  obtain ⟨opt, args, hargs⟩ := item
  cases opt <;> simp [setting, fire]

/-- The loop takes an option, or refuses a second one that fires. -/
lemma scan_option (item : options.Item) (l : Locals) (ws : List Arg) :
    scan l (options.grammar.words item ++ ws) =
      if (fire item).isSome && l.fireCmdIssued then .error onlyOne else scan (l.set item) ws := by
  obtain ⟨opt, args, hargs⟩ := item
  have hopt : lookup optionTable opt.word = some opt := lookup_optionTable.mpr rfl
  have hwords : options.grammar.words ⟨opt, args, hargs⟩ ++ ws = opt.word :: (args ++ ws) := rfl
  rw [hwords, scan.eq_def]
  dsimp only
  rw [if_neg (not_isHelp opt), hopt]
  cases opt
  case calPulseDisable | vataTriggerEnable | fastOrDisable | start | stop =>
    obtain rfl := List.length_eq_zero_iff.mp hargs
    rfl
  all_goals
    obtain ⟨v, rfl⟩ := List.length_eq_one_iff.mp hargs
    rfl

/-- **Options are taken in any order**, with one that fires at most. -/
lemma scan_spelled (items : List options.Item) (l : Locals) (rest : List Arg) :
    scan l (options.grammar.spelled items ++ rest) =
      if (items.filterMap fire).length + l.fireCmdIssued.toNat ≤ 1 then
        scan (items.foldl Locals.set l) rest
      else .error onlyOne := by
  induction items generalizing l with
  | nil => simp [Bool.toNat_le]
  | cons item items ih =>
      rw [Grammar.spelled_cons, List.append_assoc, scan_option, ih]
      cases hfire : fire item with
      | none =>
          obtain ⟨f, hset⟩ : ∃ f, setting item = some f := by
            rw [← Option.ne_none_iff_exists', ne_eq, setting_eq_none_iff, hfire]
            simp
          simp [hfire, Locals.set, hset]
      | some f =>
          have hset : setting item = none := (setting_eq_none_iff item).mpr (by rw [hfire]; rfl)
          have hissued : (l.fires f).fireCmdIssued = true := by cases f <;> rfl
          cases l.fireCmdIssued <;>
            simp [hfire, Locals.set, hset, hissued]

/-- What is said where nothing can be read. -/
lemma scan_stuck {arg : Arg} (h : options.grammar.Stuck (arg :: rest)) :
    scan l (arg :: rest) = .error (unread l.fireCmdIssued (arg :: rest)) := by
  rw [scan.eq_def, unread]
  dsimp only
  by_cases hhelp : IsHelp arg
  · rw [if_pos hhelp, if_pos hhelp]
  rw [if_neg hhelp, if_neg hhelp]
  cases hopt : lookup optionTable arg with
  | none => rfl
  | some opt =>
      have hlt : rest.length < opt.arity :=
        Options.stuck_cons_iff.mp h opt (lookup_optionTable.mp hopt).symm
      cases opt
      case pulseWidth | triggerDelay | repeatDelay =>
        obtain rfl := List.length_eq_zero_iff.mp (Nat.lt_one_iff.mp hlt)
        rfl
      case nPulses =>
        obtain rfl := List.length_eq_zero_iff.mp (Nat.lt_one_iff.mp hlt)
        cases l.fireCmdIssued <;> rfl
      all_goals exact absurd hlt (Nat.not_lt_zero _)

end Scan

/-! ## What a line does -/

/-- What a line says: the settings, whether it gives any, and what it fires. -/
structure Line where
  settings : Cal.CalCtrl
  given : Bool
  fire : Option Fire

/-- The line of these options.  The settings are those of the constructor but for what is set. -/
def lineOf (items : List options.Item) : Line where
  settings := items.foldl (fun c item => (setting item).elim c fun f => f c) .default
  given := items.any fun item => (setting item).isSome
  fire := (items.filterMap fire).head?

/-- The pulser is given settings. -/
def load (s : Cal.CalCtrl) (i : Instrument) : Instrument := { i with loaded := some s }

/-- What a command that fires does, with the settings of its line. -/
def Fire.apply (s : Cal.CalCtrl) (i : Instrument) : Fire → Instrument
  | .start => { load s i with train := 0, pulsing := true }
  | .stop => { i with pulsing := false }
  | .nPulses n => if 0 < n then { load s i with train := n.toNat, pulsing := false } else i

/-- What a line does to the instrument. -/
def Line.apply (c : Line) (i : Instrument) : Instrument :=
  c.fire.elim (if c.given then load c.settings i else i)
    (Fire.apply c.settings (if c.given then load c.settings i else i))

section Locals

variable {l : Locals} {items : List options.Item}

lemma foldl_calctrl (items : List options.Item) (l : Locals) :
    (items.foldl Locals.set l).calctrl =
      items.foldl (fun c item => (setting item).elim c fun f => f c) l.calctrl := by
  induction items generalizing l with
  | nil => rfl
  | cons item items ih =>
      rw [List.foldl_cons, List.foldl_cons, ih]
      congr 1
      rw [Locals.set]
      cases setting item with
      | some f => rfl
      | none =>
          cases fire item with
          | none => rfl
          | some f => cases f <;> rfl

lemma foldl_writeSettings (items : List options.Item) (l : Locals) :
    (items.foldl Locals.set l).writeSettings =
      (l.writeSettings || items.any fun item => (setting item).isSome) := by
  induction items generalizing l with
  | nil => simp
  | cons item items ih =>
      rw [List.foldl_cons, ih, List.any_cons, ← Bool.or_assoc]
      congr 1
      rw [Locals.set]
      cases setting item with
      | some f => simp
      | none =>
          cases fire item with
          | none => simp
          | some f => cases f <;> simp [Locals.fires]

lemma foldl_fireCmdIssued (items : List options.Item) (l : Locals) :
    (items.foldl Locals.set l).fireCmdIssued =
      (l.fireCmdIssued || items.any fun item => (fire item).isSome) := by
  induction items generalizing l with
  | nil => simp
  | cons item items ih =>
      rw [List.foldl_cons, ih, List.any_cons, ← Bool.or_assoc]
      congr 1
      rw [Locals.set]
      cases hset : setting item with
      | some f =>
          have hfire : ¬ (fire item).isSome := fun h => by
            rw [(setting_eq_none_iff item).mpr h] at hset
            exact absurd hset (by simp)
          simp [hfire]
      | none =>
          cases fire item with
          | none => simp
          | some f => cases f <;> simp [Locals.fires]

/-- The variables say that this fires. -/
def Locals.Fires (l : Locals) : Option Fire → Prop
  | none => l.startInf = false ∧ l.stopInf = false ∧ l.nPulses = -1
  | some .start => l.startInf = true
  | some .stop => l.startInf = false ∧ l.stopInf = true
  | some (.nPulses n) => l.startInf = false ∧ l.stopInf = false ∧ l.nPulses = n

/-- If nothing fired before, the option that fires is the only one. -/
lemma foldl_fires {f : Option Fire} (items : List options.Item) (l : Locals) (hl : l.Fires f)
    (hone : (items.filterMap fire).length + f.isSome.toNat ≤ 1) :
    (items.foldl Locals.set l).Fires (f.or (items.filterMap fire).head?) := by
  induction items generalizing l f with
  | nil => simpa using hl
  | cons item items ih =>
      rw [List.foldl_cons]
      cases hfire : fire item with
      | none =>
          rw [List.filterMap_cons_none hfire] at hone ⊢
          refine ih (l.set item) ?_ hone
          cases hset : setting item with
          | some g =>
              simp only [Locals.set, hset]
              cases f with
              | none => exact hl
              | some f => cases f <;> exact hl
          | none =>
              rw [setting_eq_none_iff, hfire] at hset
              exact absurd hset (by simp)
      | some g =>
          have hset : setting item = none := (setting_eq_none_iff item).mpr (by rw [hfire]; rfl)
          rw [List.filterMap_cons_some hfire, List.length_cons] at hone
          cases f with
          | some f => simp at hone
          | none =>
              obtain ⟨hstart, hstop, -⟩ := hl
              have hnext : (l.set item).Fires (some g) := by
                rw [Locals.set, hset, hfire]
                cases g <;> simp [Locals.fires, Locals.Fires, hstart, hstop]
              rw [List.filterMap_cons_some hfire]
              exact ih (l.set item) hnext (by simpa using hone)

end Locals

section Act

variable {i : Instrument} {srv : LayerServer} {m dac sync : ℕ → BitVec 32} {l : Locals}
  {items : List options.Item} {f : Option Fire}

lemma shows_writeSettings (s : Cal.CalCtrl) (hi : Shows i srv ⟨m, dac, sync⟩) :
    Shows (load s i) srv ⟨(s.writeSettings.eval registers m).2, dac, sync⟩ :=
  { hi with
    loaded := by
      rintro _ ⟨⟩
      constructor <;> rfl
    train := hi.train
    pulsing := hi.pulsing }

lemma shows_startInfPulses (s : Cal.CalCtrl) (hi : Shows i srv ⟨m, dac, sync⟩) :
    Shows (Fire.start.apply s i) srv ⟨(s.startInfPulses.eval registers m).2, dac, sync⟩ :=
  { hi with
    loaded := by
      rintro _ ⟨⟩
      constructor <;> rfl
    train := rfl
    pulsing := rfl }

lemma shows_stopInfPulses (s : Cal.CalCtrl) (hi : Shows i srv ⟨m, dac, sync⟩) :
    Shows (Fire.stop.apply s i) srv
      ⟨(Cal.CalCtrl.stopInfPulses.eval registers m).2, dac, sync⟩ :=
  { hi with
    loaded := fun s hs => { (hi.loaded s hs) with }
    train := hi.train
    pulsing := rfl }

lemma shows_nPulses (s : Cal.CalCtrl) {n : ℤ} (hn : 0 < n ∧ n ≤ 2147483647)
    (hi : Shows i srv ⟨m, dac, sync⟩) :
    Shows ((Fire.nPulses n).apply s i) srv
      ⟨((s.nPulses (BitVec.ofInt 32 n)).eval registers m).2, dac, sync⟩ := by
  rw [Fire.apply, if_pos hn.1]
  exact { hi with
    loaded := by
      rintro _ ⟨⟩
      constructor <;> rfl
    train := by
      have hword := LayerServer.toNat_ofInt (n := n) (by omega)
      show (BitVec.ofInt 32 n).toNat = n.toNat
      omega
    pulsing := rfl }

lemma act_eval (l : Locals) (m : ℕ → BitVec 32) :
    (act l).eval registers m = (⟨[], [], 0⟩, ((fireCmd l).eval registers
      (if l.writeSettings then (l.calctrl.writeSettings.eval registers m).2 else m)).2) := by
  rw [act]
  cases l.writeSettings
  · exact eval_bind (fireCmd l) _
  · exact (eval_bind l.calctrl.writeSettings _).trans (eval_bind (fireCmd l) _)

/-- **A line that is read** does to the registers what it does to the instrument. -/
lemma shows_act (hi : Shows i srv ⟨m, dac, sync⟩) (hone : (items.filterMap fire).length ≤ 1) :
    Shows ((lineOf items).apply i) srv
      ⟨((act (items.foldl Locals.set .init)).eval registers m).2, dac, sync⟩ := by
  have hcalctrl := foldl_calctrl items .init
  have hwrite := foldl_writeSettings items .init
  have hinit : Locals.init.Fires none := ⟨rfl, rfl, rfl⟩
  have hfires := foldl_fires items .init hinit hone
  have hbound : ∀ n, (items.filterMap fire).head? = some (.nPulses n) → n ≤ 2147483647 := by
    intro n hn
    obtain ⟨⟨opt, args, hargs⟩, -, hitem⟩ := List.mem_filterMap.mp (List.mem_of_mem_head? hn)
    cases opt
    case nPulses =>
      obtain rfl := Fire.nPulses.inj (Option.some.inj hitem)
      exact (LayerServer.atoi_bounds _).2
    all_goals exact absurd hitem (by simp [fire])
  generalize items.foldl Locals.set .init = l at hcalctrl hwrite hfires ⊢
  rw [act_eval, hwrite, Line.apply, fireCmd]
  have hgiven : (Locals.init.writeSettings || items.any fun item => (setting item).isSome) =
      (lineOf items).given := rfl
  rw [hgiven]
  have hi₁ : Shows (if (lineOf items).given then load (lineOf items).settings i else i) srv
      ⟨if (lineOf items).given then (l.calctrl.writeSettings.eval registers m).2 else m,
        dac, sync⟩ := by
    rw [hcalctrl]
    cases (lineOf items).given with
    | false => exact hi
    | true => exact shows_writeSettings _ hi
  generalize (if (lineOf items).given then (l.calctrl.writeSettings.eval registers m).2 else m) =
    m₁ at hi₁ ⊢
  generalize (if (lineOf items).given then load (lineOf items).settings i else i) = i₁ at hi₁ ⊢
  have hfire : (lineOf items).fire = (items.filterMap fire).head? := rfl
  have hsettings : l.calctrl = (lineOf items).settings := hcalctrl
  rw [hfire, hsettings]
  cases hhead : (items.filterMap fire).head? with
  | none =>
      rw [hhead] at hfires
      obtain ⟨hstart, hstop, hn⟩ := hfires
      rw [hstart, hstop, hn]
      exact hi₁
  | some f =>
      rw [hhead] at hfires
      cases f with
      | start =>
          have hstart : l.startInf = true := hfires
          rw [hstart]
          exact shows_startInfPulses _ hi₁
      | stop =>
          obtain ⟨hstart, hstop⟩ := hfires
          rw [hstart, hstop]
          exact shows_stopInfPulses (lineOf items).settings hi₁
      | nPulses n =>
          obtain ⟨hstart, hstop, rfl⟩ := hfires
          rw [hstart, hstop]
          by_cases hpos : 0 < l.nPulses
          · have hafter := shows_nPulses (lineOf items).settings ⟨hpos, hbound _ hhead⟩ hi₁
            simpa [hpos] using hafter
          · simpa [hpos, Fire.apply] using hi₁

/-- What the instrument does with a line. -/
inductive Does (i : Instrument) (args : List Arg) : Ended → Instrument → Prop
  | performed {items : List options.Item} (hreads : options.grammar.Reads args items [])
      (hone : (items.filterMap fire).length ≤ 1) :
      Does i args ⟨[], [], 0⟩ ((lineOf items).apply i)
  | firesTwice {items : List options.Item} {rest : List Arg}
      (hreads : options.grammar.Reads args items rest)
      (htwo : 1 < (items.filterMap fire).length) : Does i args ⟨[], onlyOne, calParseArgsErr⟩ i
  | unread {items : List options.Item} {arg : Arg} {rest : List Arg}
      (hreads : options.grammar.Reads args items (arg :: rest))
      (hone : (items.filterMap fire).length ≤ 1) :
      Does i args ⟨[], unread (items.any fun item => (fire item).isSome) (arg :: rest),
        calParseArgsErr⟩ i

/-- **A line is performed as a whole or not at all.** -/
lemma does_of_exec {args : List Arg} {e : Ended} {m' : ℕ → BitVec 32}
    (hi : Shows i srv ⟨m, dac, sync⟩)
    (h : Exec (memory fun _ => True) (parseArgs args) m e m') :
    ∃ i', Does i args e i' ∧ Shows i' srv ⟨m', dac, sync⟩ := by
  obtain ⟨items, rest, hreads⟩ := Grammar.exists_reads options.grammar args
  rw [parseArgs, hreads.eq, scan_spelled] at h
  have hissued : Locals.init.fireCmdIssued = false := rfl
  rw [hissued, Bool.toNat_false, Nat.add_zero] at h
  by_cases hone : (items.filterMap fire).length ≤ 1
  · rw [if_pos hone] at h
    cases rest with
    | nil =>
        have heval : (act (items.foldl Locals.set .init)).eval registers m = (e, m') :=
          (exec_memory_iff (never_hidden_of_all _)).mp h
        have hi' := shows_act hi hone
        rw [heval] at hi'
        rw [act_eval] at heval
        obtain ⟨rfl, -⟩ := Prod.mk.inj heval
        exact ⟨_, .performed hreads hone, hi'⟩
    | cons arg rest =>
        rw [scan_stuck hreads.stuck, foldl_fireCmdIssued, hissued, Bool.false_or] at h
        obtain ⟨rfl, rfl⟩ := exec_done.mp h
        exact ⟨i, .unread hreads hone, hi⟩
  · rw [if_neg hone] at h
    obtain ⟨rfl, rfl⟩ := exec_done.mp h
    exact ⟨i, .firesTwice hreads (not_le.mp hone), hi⟩

end Act

end TrackerFpga.Tools.Calctrl
