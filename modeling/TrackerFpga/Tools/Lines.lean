import TrackerFpga.Lib.CommandLine
import TrackerFpga.Server.Session

/-!
# The command line tools

`syncctrl` and `dacctrl` perform the options of their command line one after the other, and stop at
one that they cannot read or that is refused.  Their options are forms of the server's grammar: what
a line does is what the forms do to the instrument (`Ran`), and the tools are further clients of the
instrument that the server shows.

A tool that knows what to do at an option (`Loops`), each doing what its form does (`Performs`),
does with a line what the instrument does (`ran_of_exec`).
-/

namespace TrackerFpga.Tools

open ByteCodec CommandLine CString Interaction Mapped Server

/-- A word of the command line. -/
abbrev Arg := List Byte

/-- What a tool has written to `stdout` and `stderr` when it returns, and what it returns.  The
usage, which `main` prints after the return code `1`, is left out. -/
structure Ended where
  out : List (List Byte)
  err : List (List Byte)
  code : ℤ
  deriving DecidableEq

/-- `std::cout << n`. -/
def decimal (n : ℕ) : List Byte := bytes (toString n)

/-! ## Chains of comparisons -/

section Lookup

variable {γ : Type} {table : List (String × γ)} {arg : Arg} {c : γ} {word : γ → Arg}

/-- The first line of an `else if` chain with `strcmp(text, arg) == 0`. -/
def lookup (table : List (String × γ)) (arg : Arg) : Option γ :=
  (table.find? fun line => bytes line.1 = arg).map Prod.snd

lemma lookup_iff (hline : ∀ line ∈ table, bytes line.1 = word line.2)
    (hall : ∀ c, lookup table (word c) = some c) : lookup table arg = some c ↔ arg = word c := by
  constructor
  · intro h
    obtain ⟨line, hfind, rfl⟩ := Option.map_eq_some_iff.mp h
    have htext := List.find?_some (p := fun l : String × γ => bytes l.1 = arg) hfind
    rw [← of_decide_eq_true htext]
    exact hline line (List.mem_of_find?_eq_some hfind)
  · rintro rfl
    exact hall c

end Lookup

/-- `--help` or `-h`. -/
def IsHelp (arg : Arg) : Prop := arg = bytes "--help" ∨ arg = bytes "-h"

instance : DecidablePred IsHelp := fun _ => inferInstanceAs (Decidable (_ ∨ _))

/-! ## What a line does -/

/-- What an option is refused with: the lines for `stderr`, and the return code. -/
abbrev Refusal := List (List Byte) × ℤ

/-- A tool whose options are forms: what is spelled how, what it means, and what is said about words
that cannot be read.  No option halts the server. -/
structure FormTool (Item : Type) where
  grammar : Grammar Item Arg
  meaning : ℕ → Item → Except Refusal LayerServer.Form
  unread : List Arg → List (List Byte)
  goes_on : ∀ nVata item, meaning nVata item ≠ .ok (.plain .halt)

/-- The bits `n - 1` to `0` of a mask. -/
def bitsLine (n : ℕ) (mask : BitVec 32) : List Byte :=
  (List.range n).reverse.map fun j => if mask.getLsbD j then 49#8 else 48#8

/-- What is printed about the instrument when the counter is `counter`. -/
def printed (nVata : ℕ) (counter : BitVec 64) (i : Instrument) : LayerServer.Form → List (List Byte)
  | .plain .getCounter => [decimal counter.toNat]
  | .plain .getGlobalHitEna => [bytes (if i.hits then "1" else "0")]
  | .plain .getAsicHitDisableMask => [bitsLine nVata (Instrument.mask i.disabled)]
  | .plain (.dacQuery .getDelay) => [decimal i.delay]
  | .plain (.dacQuery .getInput) => [decimal i.counts]
  | _ => []

/-- The instrument goes from one state to another along these options and words that cannot be
read. -/
inductive Ran {Item : Type} (tool : FormTool Item) (nVata : ℕ) :
    Instrument → List Item → List Arg → Ended → Instrument → Prop
  | ends (i : Instrument) : Ran tool nVata i [] [] ⟨[], [], 0⟩ i
  | unread (i : Instrument) (arg : Arg) (rest : List Arg) :
      Ran tool nVata i [] (arg :: rest) ⟨[], tool.unread (arg :: rest), 1⟩ i
  | refused {i : Instrument} {item : Item} {items : List Item} {rest : List Arg} {r : Refusal}
      (hitem : tool.meaning nVata item = .error r) :
      Ran tool nVata i (item :: items) rest ⟨[], r.1, r.2⟩ i
  | next {i i' : Instrument} {item : Item} {items : List Item} {rest : List Arg} {e : Ended}
      {f : LayerServer.Form} (counter : BitVec 64) (hitem : tool.meaning nVata item = .ok f)
      (hrest : Ran tool nVata (i.perform f) items rest e i') :
      Ran tool nVata i (item :: items) rest
        { e with out := printed nVata counter i f ++ e.out } i'

lemma Ran.halted {Item : Type} {tool : FormTool Item} {nVata : ℕ} {i i' : Instrument}
    {items : List Item} {rest : List Arg} {e : Ended} (h : Ran tool nVata i items rest e i') :
    i'.halted = i.halted := by
  induction h with
  | @next i i' item items rest e f counter hitem hrest ih =>
      have hf : f ≠ .plain .halt := fun h =>
        tool.goes_on nVata item (hitem.trans (congrArg Except.ok h))
      rw [ih, Instrument.perform_halted, decide_eq_false hf, Bool.or_false]
  | _ => rfl

/-- The instrument goes from one state to another along a line. -/
def FormTool.Does {Item : Type} (tool : FormTool Item) (nVata : ℕ) (i : Instrument)
    (args : List Arg) (e : Ended) (i' : Instrument) : Prop :=
  ∃ items rest, tool.grammar.Reads args items rest ∧ Ran tool nVata i items rest e i'

/-! ## Loops over the words -/

section Loop

variable {Item : Type} {tool : FormTool Item} {nVata : ℕ} {shown : ℕ → Prop}
  {program : Item → Driver (Except Refusal (List (List Byte)))}
  {parseArgs : List (List Byte) → List Arg → Driver Ended} {put : (ℕ → BitVec 32) → Cores}
  {srv : LayerServer} {i : Instrument} {m m' : ℕ → BitVec 32} {e : Ended}

/-- After an option was performed. -/
def goOn (out : List (List Byte)) (next : List (List Byte) → Driver Ended) :
    Except Refusal (List (List Byte)) → Driver Ended
  | .error r => pure ⟨out, r.1, r.2⟩
  | .ok lines => next (out ++ lines)

/-- The loop performs the option that begins the words, or stops.  `out` is what was printed so
far. -/
structure Loops (tool : FormTool Item)
    (program : Item → Driver (Except Refusal (List (List Byte))))
    (parseArgs : List (List Byte) → List Arg → Driver Ended) : Prop where
  option : ∀ item out ws, parseArgs out (tool.grammar.words item ++ ws) =
    program item >>= goOn out fun out' => parseArgs out' ws
  ends : ∀ out, parseArgs out [] = pure ⟨out, [], 0⟩
  unread : ∀ out arg rest, tool.grammar.Stuck (arg :: rest) →
    parseArgs out (arg :: rest) = pure ⟨out, tool.unread (arg :: rest), 1⟩

/-- What an option comes to that has this meaning: it is refused, or its form is performed. -/
def Outcome (nVata : ℕ) (put : (ℕ → BitVec 32) → Cores) (srv : LayerServer) (i : Instrument)
    (m : ℕ → BitVec 32) (r : Except Refusal (List (List Byte))) (m' : ℕ → BitVec 32) :
    Except Refusal LayerServer.Form → Prop
  | .error refusal => r = .error refusal ∧ m' = m
  | .ok f => (∃ counter, r = .ok (printed nVata counter i f)) ∧ Shows (i.perform f) srv (put m')

/-- An option does to the registers what its form does to the instrument. -/
def Performs (tool : FormTool Item) (nVata : ℕ) (shown : ℕ → Prop)
    (program : Item → Driver (Except Refusal (List (List Byte))))
    (put : (ℕ → BitVec 32) → Cores) (srv : LayerServer) : Prop :=
  ∀ item i m r m', Shows i srv (put m) → Exec (memory shown) (program item) m r m' →
    Outcome nVata put srv i m r m' (tool.meaning nVata item)

/-- What is done for the items of a line, and then for the words that cannot be read. -/
lemma ran_of_performAll (hloop : Loops tool program parseArgs)
    (hperforms : Performs tool nVata shown program put srv) {items : List Item} {rest : List Arg}
    (hstuck : tool.grammar.Stuck rest) {out : List (List Byte)} (hi : Shows i srv (put m))
    (h : Exec (memory shown) (performAll (fun item out next => program item >>= goOn out next)
      items out fun out' => parseArgs out' rest) m e m') :
    ∃ lines i', e.out = out ++ lines ∧ Ran tool nVata i items rest { e with out := lines } i' ∧
      Shows i' srv (put m') := by
  induction items generalizing i m out with
  | nil =>
      rw [performAll] at h
      cases rest with
      | nil =>
          rw [hloop.ends] at h
          obtain ⟨rfl, rfl⟩ := exec_done.mp h
          exact ⟨[], i, (List.append_nil out).symm, .ends i, hi⟩
      | cons arg rest =>
          rw [hloop.unread out arg rest hstuck] at h
          obtain ⟨rfl, rfl⟩ := exec_done.mp h
          exact ⟨[], i, (List.append_nil out).symm, .unread i arg rest, hi⟩
  | cons item items ih =>
      rw [performAll] at h
      obtain ⟨r, m₁, hitem, hnext⟩ := exec_bind.mp h
      have hdone := hperforms item i m r m₁ hi hitem
      cases hmeaning : tool.meaning nVata item with
      | error refusal =>
          rw [hmeaning, Outcome] at hdone
          obtain ⟨rfl, rfl⟩ := hdone
          obtain ⟨rfl, rfl⟩ := exec_done.mp hnext
          exact ⟨[], i, (List.append_nil out).symm, .refused hmeaning, hi⟩
      | ok f =>
          rw [hmeaning, Outcome] at hdone
          obtain ⟨⟨counter, rfl⟩, hi₁⟩ := hdone
          obtain ⟨lines, i', hout, hran, hi'⟩ := ih hi₁ hnext
          refine ⟨printed nVata counter i f ++ lines, i', ?_, .next counter hmeaning hran, hi'⟩
          rw [hout, List.append_assoc]

/-- **A line does what its forms do.** -/
lemma ran_of_exec (hloop : Loops tool program parseArgs)
    (hperforms : Performs tool nVata shown program put srv) (hi : Shows i srv (put m))
    {args : List Arg} (h : Exec (memory shown) (parseArgs [] args) m e m') :
    ∃ i', tool.Does nVata i args e i' ∧ Shows i' srv (put m') := by
  obtain ⟨items, rest, hreads⟩ := Grammar.exists_reads tool.grammar args
  have hline : parseArgs [] args = performAll (fun item out next => program item >>= goOn out next)
      items [] fun out' => parseArgs out' rest := by
    rw [hreads.eq]
    exact Grammar.loop_spelled hloop.option items [] rest
  rw [hline] at h
  obtain ⟨lines, i', hout, hran, hi'⟩ := ran_of_performAll hloop hperforms hreads.stuck hi h
  rw [List.nil_append] at hout
  subst hout
  exact ⟨i', ⟨items, rest, hreads, hran⟩, hi'⟩

end Loop

/-! ## Options with a number -/

/-- The form of a command with a number, if it is in the range. -/
def ranged (nVata : ℕ) (c : LayerServer.NumberCommand) (n : ℤ) (refusal : Refusal) :
    Except Refusal LayerServer.Form :=
  if c.InRange nVata n then .ok (.number c n) else .error refusal

lemma ranged_ne_halt (nVata : ℕ) (c : LayerServer.NumberCommand) (n : ℤ) (refusal : Refusal) :
    ranged nVata c n refusal ≠ .ok (.plain .halt) := by
  rw [ranged]
  split_ifs <;> simp

/-- A method whose return code is checked. -/
def checked (p : Driver ℤ) (refused : ℤ → Prop) [DecidablePred refused] (refusal : Refusal) :
    Driver (Except Refusal (List (List Byte))) := do
  let ret ← p
  pure (if refused ret then .error refusal else .ok [])

section Checked

variable {nVata : ℕ} {shown : ℕ → Prop} {put : (ℕ → BitVec 32) → Cores} {srv : LayerServer}
  {i : Instrument} {m m' m'' : ℕ → BitVec 32} {f : LayerServer.Form} {c : Cores}
  {r : Except Refusal (List (List Byte))} {α : Type} {p : Driver α}

lemma checked_bind (p : Driver ℤ) (refused : ℤ → Prop) [DecidablePred refused] (refusal : Refusal)
    (out : List (List Byte)) (next : List (List Byte) → Driver Ended) :
    checked p refused refusal >>= goOn out next = p >>= fun ret =>
      if refused ret then pure ⟨out, refusal.1, refusal.2⟩ else next out := by
  rw [checked, Program.bind_assoc]
  refine congrArg _ (funext fun ret => ?_)
  split_ifs with hret
  · rfl
  · exact congrArg next (List.append_nil out)

/-- A form that is one action of a driver. -/
lemma shows_of_acts (nVata : ℕ) (a : Call) (hacts : f.acts srv = [a]) (hsrv : srv.after a = srv)
    (hnumber : ∀ c n, f = .number c n → c.InRange nVata n) (hi : Shows i srv c) :
    Shows (i.perform f) srv (c.after nVata a) := by
  have hafter := hi.perform hnumber
  rw [hacts] at hafter
  have hsame : [a].foldl LayerServer.after srv = srv := hsrv
  rwa [hsame] at hafter

/-- A program that loads what is shown, and then only returns something. -/
lemma exec_then {ret : α} {g : α → Except Refusal (List (List Byte))}
    (hp : Never (Hidden shown) p) (h : Exec (memory shown) (p >>= fun a => pure (g a)) m r m')
    (heval : p.eval registers m = (ret, m'')) : r = g ret ∧ m' = m'' := by
  obtain ⟨a, m₁, hexec, hdone⟩ := exec_bind.mp h
  obtain ⟨rfl, rfl⟩ := exec_done.mp hdone
  obtain ⟨rfl, rfl⟩ := Prod.mk.inj (((exec_memory_iff hp).mp hexec).symm.trans heval)
  exact ⟨rfl, rfl⟩

/-- A method that is refused for the numbers out of the range, and leaves the registers then. -/
lemma outcome_checked {p : Driver ℤ} {refused : ℤ → Prop} [DecidablePred refused]
    {refusal : Refusal} {command : LayerServer.NumberCommand} {n : ℤ}
    (hp : Never (Hidden shown) p)
    (hok : command.InRange nVata n → ¬ refused (p.eval registers m).1 ∧
      Shows (i.perform (.number command n)) srv (put (p.eval registers m).2))
    (hbad : ¬ command.InRange nVata n → refused (p.eval registers m).1 ∧
      (p.eval registers m).2 = m)
    (h : Exec (memory shown) (checked p refused refusal) m r m') :
    Outcome nVata put srv i m r m' (ranged nVata command n refusal) := by
  obtain ⟨rfl, rfl⟩ := exec_then hp h rfl
  by_cases hrange : command.InRange nVata n
  · rw [ranged, if_pos hrange, if_neg (hok hrange).1]
    exact ⟨⟨0#64, rfl⟩, (hok hrange).2⟩
  · rw [ranged, if_neg hrange, if_pos (hbad hrange).1]
    exact ⟨rfl, (hbad hrange).2⟩

end Checked

end TrackerFpga.Tools
