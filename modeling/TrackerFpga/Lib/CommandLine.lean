import Mathlib.Data.List.Infix
import Mathlib.Tactic.Common

/-!
# Command lines

A tool reads the words of its command line from the left, item by item; an item is an option with
its arguments.  The spelling of an item is not empty and none begins another one (`Grammar`), so a
line is read in one way: as the items that can be read, and the words that no item begins
(`exists_reads`, `Reads.unique`).

A loop over the words that knows what to do at an item does this for the items of the line one after
the other, and then what it does where no item begins (`loop_spelled`).

`Options` are items of one word and a number of arguments that depends on it.
-/

namespace CommandLine

/-- The spellings of the items.  Two items that begin the same words are the same. -/
structure Grammar (I W : Type) where
  words : I → List W
  ne_nil : ∀ i, words i ≠ []
  eq_of_prefix : ∀ {i j ws}, words i <+: ws → words j <+: ws → i = j

/-- Do something for each item, one after the other. -/
def performAll {I σ ρ : Type} (perform : I → σ → (σ → ρ) → ρ) : List I → σ → (σ → ρ) → ρ
  | [], s, next => next s
  | i :: items, s, next => perform i s fun s' => performAll perform items s' next

namespace Grammar

variable {I W : Type} (g : Grammar I W)

/-- The words of the items. -/
def spelled (items : List I) : List W := items.flatMap g.words

/-- No item begins the words. -/
def Stuck (ws : List W) : Prop := ∀ i, ¬ g.words i <+: ws

/-- The words are those of the items and others that no item begins. -/
structure Reads (ws : List W) (items : List I) (rest : List W) : Prop where
  eq : ws = g.spelled items ++ rest
  stuck : g.Stuck rest

variable {g} {ws rest rest' : List W} {i : I} {items items' : List I}

@[simp] lemma spelled_nil : g.spelled [] = [] := rfl

@[simp] lemma spelled_cons : g.spelled (i :: items) = g.words i ++ g.spelled items := rfl

lemma Reads.cons (h : g.Reads ws items rest) : g.Reads (g.words i ++ ws) (i :: items) rest where
  eq := by rw [h.eq, spelled_cons, List.append_assoc]
  stuck := h.stuck

/-- Every line is read. -/
lemma exists_reads (g : Grammar I W) (ws : List W) : ∃ items rest, g.Reads ws items rest := by
  induction hlen : ws.length using Nat.strong_induction_on generalizing ws with
  | h n ih =>
      by_cases hstuck : g.Stuck ws
      · exact ⟨[], ws, rfl, hstuck⟩
      · obtain ⟨i, hi⟩ := not_forall_not.mp hstuck
        obtain ⟨ws', rfl⟩ := hi
        have hpos := List.length_pos_of_ne_nil (g.ne_nil i)
        rw [List.length_append] at hlen
        obtain ⟨items, rest, hreads⟩ := ih ws'.length (by omega) ws' rfl
        exact ⟨i :: items, rest, hreads.cons⟩

/-- It is read in one way. -/
lemma Reads.unique (h : g.Reads ws items rest) (h' : g.Reads ws items' rest') :
    items = items' ∧ rest = rest' := by
  induction items generalizing ws items' with
  | nil =>
      obtain rfl : ws = rest := h.eq
      cases items' with
      | nil => exact ⟨rfl, h'.eq⟩
      | cons j items' =>
          have hj : g.words j <+: ws := ⟨g.spelled items' ++ rest', by
            rw [h'.eq, spelled_cons, List.append_assoc]⟩
          exact absurd hj (h.stuck j)
  | cons i items ih =>
      have hi : g.words i <+: ws := ⟨g.spelled items ++ rest, by
        rw [h.eq, spelled_cons, List.append_assoc]⟩
      cases items' with
      | nil =>
          obtain rfl : ws = rest' := h'.eq
          exact absurd hi (h'.stuck i)
      | cons j items' =>
          have hj : g.words j <+: ws := ⟨g.spelled items' ++ rest', by
            rw [h'.eq, spelled_cons, List.append_assoc]⟩
          obtain rfl := g.eq_of_prefix hi hj
          have hsame := h.eq.symm.trans h'.eq
          simp only [spelled_cons, List.append_assoc, List.append_cancel_left_eq] at hsame
          obtain ⟨rfl, rfl⟩ := ih ⟨rfl, h.stuck⟩ ⟨hsame, h'.stuck⟩
          exact ⟨rfl, rfl⟩

/-- A loop that knows what to do at an item. -/
lemma loop_spelled {σ ρ : Type} {loop : σ → List W → ρ} {perform : I → σ → (σ → ρ) → ρ}
    (hloop : ∀ i s ws, loop s (g.words i ++ ws) = perform i s fun s' => loop s' ws)
    (items : List I) (s : σ) (rest : List W) :
    loop s (g.spelled items ++ rest) = performAll perform items s fun s' => loop s' rest := by
  induction items generalizing s with
  | nil => rfl
  | cons i items ih =>
      rw [spelled_cons, List.append_assoc, hloop, performAll]
      exact congrArg (perform i s) (funext ih)

end Grammar

/-! ## Options -/

/-- Options that are one word and take a number of words after it. -/
structure Options (O W : Type) where
  word : O → W
  arity : O → ℕ
  word_injective : Function.Injective word

namespace Options

variable {O W : Type}

/-- An option with its arguments. -/
@[ext] structure Item (opts : Options O W) where
  option : O
  args : List W
  length_args : args.length = opts.arity option

/-- An argument of an item, by its number. -/
def Item.arg [Inhabited W] {opts : Options O W} (i : opts.Item) (k : ℕ) : W := i.args.getD k default

/-- An item is spelled with the word of its option and its arguments. -/
def grammar (opts : Options O W) : Grammar opts.Item W where
  words i := opts.word i.option :: i.args
  ne_nil _ := List.cons_ne_nil _ _
  eq_of_prefix := by
    rintro ⟨o, args, hargs⟩ ⟨o', args', hargs'⟩ ws ⟨rest, rfl⟩ ⟨rest', h⟩
    obtain ⟨hword, htail⟩ := List.cons_eq_cons.mp h
    obtain rfl := opts.word_injective hword
    obtain ⟨rfl, -⟩ := List.append_inj htail (hargs'.trans hargs.symm)
    rfl

/-- Nothing can be read where an option lacks arguments, or where there is none. -/
lemma stuck_cons_iff {opts : Options O W} {w : W} {ws : List W} :
    opts.grammar.Stuck (w :: ws) ↔ ∀ o, opts.word o = w → ws.length < opts.arity o := by
  constructor
  · rintro h o rfl
    by_contra hlong
    have hargs := List.length_take_of_le (not_lt.mp hlong)
    refine h ⟨o, ws.take (opts.arity o), hargs⟩ ⟨ws.drop (opts.arity o), ?_⟩
    exact congrArg (opts.word o :: ·) (List.take_append_drop _ ws)
  · rintro h ⟨o, args, hargs⟩ ⟨rest, heq⟩
    obtain ⟨hword, rfl⟩ := List.cons_eq_cons.mp heq
    have hlt : (args ++ rest).length < opts.arity o := h o hword
    rw [List.length_append] at hlt
    omega

end Options

end CommandLine
