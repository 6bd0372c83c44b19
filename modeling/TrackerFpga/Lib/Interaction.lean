import Mathlib.Logic.Basic
import Mathlib.Tactic.Common

/-!
# Programs that call their environment

`Program Op Ans α` is a program that calls operations `o : Op`, gets an answer of type `Ans o`
from each, and returns a value of type `α`.  It says nothing about what an operation does: that is
an environment `Env Op Ans σ`, the relation between the states before and after a call and its
answer.  `Exec env p s a s'` says that the program can run from `s` to `s'` and return `a`.

A run is taken apart along the text of the program by `exec_done`, `exec_call` and `exec_bind`,
and put together from a list of calls by `exec_of_play`.
`MayCall env bad p s` says that some run of `p` from `s` comes to a call of a `bad` operation,
whether or not it returns, and `Passes env p s s'` that some run comes through the state `s'`.
`Tracks after good p s` says that every run ends well with a state that the calls change and the
program does not see.

Where every call has one outcome, a `Handler`, a program can be evaluated (`Program.eval`); an
environment that does what the handler does runs it to the same result (`Exec.eval_eq`).  Where
some calls have none, a `PartialHandler`, the evaluation may come to nothing
(`Program.evalPartial`); if it does not, it is a run (`exec_of_evalPartial`).
-/

namespace Interaction

/-- A program over the operations `Op` with answers `Ans`. -/
inductive Program (Op : Type) (Ans : Op → Type) (α : Type)
  | done (a : α)
  | call (o : Op) (next : Ans o → Program Op Ans α)

variable {Op : Type} {Ans : Op → Type} {α β γ σ : Type}

namespace Program

/-- Run one program, and with its value the next one. -/
def bind : Program Op Ans α → (α → Program Op Ans β) → Program Op Ans β
  | done a, f => f a
  | call o next, f => call o fun ans => (next ans).bind f

instance : Monad (Program Op Ans) where
  pure := done
  bind := bind

/-- Call one operation and return its answer. -/
def perform (o : Op) : Program Op Ans (Ans o) := call o done

@[simp] lemma pure_eq (a : α) : (pure a : Program Op Ans α) = done a := rfl

@[simp] lemma done_bind (a : α) (f : α → Program Op Ans β) : (done a >>= f) = f a := rfl

@[simp] lemma call_bind (o : Op) (next : Ans o → Program Op Ans α) (f : α → Program Op Ans β) :
    (call o next >>= f) = call o fun ans => next ans >>= f := rfl

@[simp] lemma perform_bind (o : Op) (f : Ans o → Program Op Ans β) :
    (perform o >>= f) = call o f := rfl

lemma bind_assoc (p : Program Op Ans α) (f : α → Program Op Ans β) (g : β → Program Op Ans γ) :
    (p >>= f >>= g) = p >>= fun a => f a >>= g := by
  induction p with
  | done a => rfl
  | call o next ih =>
      simp only [call_bind]
      congr 1
      funext ans
      exact ih ans

end Program

open Program

/-- What the operations do: `env o s ans s'` says that a call of `o` in the state `s` can be
answered by `ans` and leave the state `s'`. -/
abbrev Env (Op : Type) (Ans : Op → Type) (σ : Type) := (o : Op) → σ → Ans o → σ → Prop

/-- A run of a program from `s` to `s'` that returns `a`. -/
inductive Exec (env : Env Op Ans σ) : Program Op Ans α → σ → α → σ → Prop
  | done (a : α) (s : σ) : Exec env (.done a) s a s
  | call {o : Op} {next : Ans o → Program Op Ans α} {s s' s'' : σ} {ans : Ans o} {a : α} :
      env o s ans s' → Exec env (next ans) s' a s'' → Exec env (.call o next) s a s''

section Exec

variable {env : Env Op Ans σ} {s s' : σ}

@[simp] lemma exec_done {a b : α} : Exec env (.done a) s b s' ↔ b = a ∧ s' = s := by
  constructor
  · rintro ⟨⟩
    exact ⟨rfl, rfl⟩
  · rintro ⟨rfl, rfl⟩
    exact .done _ _

lemma exec_call {o : Op} {next : Ans o → Program Op Ans α} {a : α} :
    Exec env (.call o next) s a s' ↔
      ∃ ans t, env o s ans t ∧ Exec env (next ans) t a s' := by
  constructor
  · rintro ⟨⟩
    exact ⟨_, _, ‹_›, ‹_›⟩
  · rintro ⟨ans, t, hcall, hnext⟩
    exact .call hcall hnext

/-- A run of two programs is a run of the one and then of the other. -/
lemma exec_bind {p : Program Op Ans α} {f : α → Program Op Ans β} {b : β} :
    Exec env (p >>= f) s b s' ↔ ∃ a t, Exec env p s a t ∧ Exec env (f a) t b s' := by
  induction p generalizing s with
  | done a => simp
  | call o next ih =>
      simp only [call_bind, exec_call, ih]
      constructor
      · rintro ⟨ans, t, hcall, a, u, hnext, hf⟩
        exact ⟨a, u, ⟨ans, t, hcall, hnext⟩, hf⟩
      · rintro ⟨a, u, ⟨ans, t, hcall, hnext⟩, hf⟩
        exact ⟨ans, t, hcall, a, u, hnext, hf⟩

lemma exec_perform {o : Op} {ans : Ans o} :
    Exec env (perform o) s ans s' ↔ env o s ans s' := by
  rw [perform, exec_call]
  simp

end Exec

/-- A run in an environment that allows less. -/
lemma Exec.map {τ : Type} {env : Env Op Ans σ} {env' : Env Op Ans τ} (f : σ → τ)
    (hcall : ∀ o s ans s', env o s ans s' → env' o (f s) ans (f s')) {p : Program Op Ans α} {a : α}
    {s s' : σ} (h : Exec env p s a s') : Exec env' p (f s) a (f s') := by
  induction h with
  | done a s => exact .done a (f s)
  | call hstep _ ih => exact .call (hcall _ _ _ _ hstep) ih

/-! ## Runs along a list of calls -/

/-- The environment answers these calls one after the other. -/
inductive Path (env : Env Op Ans σ) : σ → List ((o : Op) × Ans o) → σ → Prop
  | nil (s : σ) : Path env s [] s
  | cons {o : Op} {ans : Ans o} {s t s' : σ} {calls : List ((o : Op) × Ans o)} :
      env o s ans t → Path env t calls s' → Path env s (⟨o, ans⟩ :: calls) s'

/-- The value of a program that makes exactly these calls. -/
def Program.play [DecidableEq Op] : Program Op Ans α → List ((o : Op) × Ans o) → Option α
  | .done a, [] => some a
  | .done _, _ :: _ => none
  | .call _ _, [] => none
  | .call o next, ⟨o', ans⟩ :: calls =>
      if h : o' = o then (next (h ▸ ans)).play calls else none

lemma exec_of_play [DecidableEq Op] {env : Env Op Ans σ} {p : Program Op Ans α} {s s' : σ}
    {calls : List ((o : Op) × Ans o)} {a : α} (hplay : p.play calls = some a)
    (hpath : Path env s calls s') : Exec env p s a s' := by
  induction p generalizing s calls with
  | done b =>
      cases hpath with
      | nil =>
          obtain rfl := Option.some.inj hplay
          exact .done _ _
      | cons _ _ => exact absurd hplay (by simp [Program.play])
  | call o next ih =>
      cases hpath with
      | nil => exact absurd hplay (by simp [Program.play])
      | @cons o' ans _ t _ _ hcall hrest =>
          rw [Program.play] at hplay
          split_ifs at hplay with ho
          subst ho
          exact .call hcall (ih ans hplay hrest)

/-! ## Calls that a program may come to -/

/-- Some run of the program comes to a call of a bad operation. -/
def MayCall (env : Env Op Ans σ) (bad : Op → Prop) : Program Op Ans α → σ → Prop
  | .done _, _ => False
  | .call o next, s => bad o ∨ ∃ ans s', env o s ans s' ∧ MayCall env bad (next ans) s'

section MayCall

variable {env : Env Op Ans σ} {bad : Op → Prop} {s : σ}

@[simp] lemma mayCall_done {a : α} : ¬ MayCall env bad (.done a : Program Op Ans α) s := id

lemma mayCall_call {o : Op} {next : Ans o → Program Op Ans α} :
    MayCall env bad (.call o next) s ↔
      bad o ∨ ∃ ans s', env o s ans s' ∧ MayCall env bad (next ans) s' := Iff.rfl

/-- A run of two programs comes to a bad call in the one or, after it, in the other. -/
lemma mayCall_bind {p : Program Op Ans α} {f : α → Program Op Ans β} :
    MayCall env bad (p >>= f) s ↔
      MayCall env bad p s ∨ ∃ a t, Exec env p s a t ∧ MayCall env bad (f a) t := by
  induction p generalizing s with
  | done a => simp
  | call o next ih =>
      simp only [call_bind, mayCall_call, exec_call, ih]
      constructor
      · rintro (hbad | ⟨ans, t, hcall, hnext | ⟨a, u, hexec, hf⟩⟩)
        · exact .inl (.inl hbad)
        · exact .inl (.inr ⟨ans, t, hcall, hnext⟩)
        · exact .inr ⟨a, u, ⟨ans, t, hcall, hexec⟩, hf⟩
      · rintro ((hbad | ⟨ans, t, hcall, hnext⟩) | ⟨a, u, ⟨ans, t, hcall, hexec⟩, hf⟩)
        · exact .inl hbad
        · exact .inr ⟨ans, t, hcall, .inl hnext⟩
        · exact .inr ⟨ans, t, hcall, .inr ⟨a, u, hexec, hf⟩⟩

/-- No call of the program is bad, whatever the answers. -/
def Never (bad : Op → Prop) : Program Op Ans α → Prop
  | .done _ => True
  | .call o next => ¬ bad o ∧ ∀ ans, Never bad (next ans)

@[simp] lemma never_done {a : α} : Never bad (.done a : Program Op Ans α) := trivial

@[simp] lemma never_call {o : Op} {next : Ans o → Program Op Ans α} :
    Never bad (.call o next) ↔ ¬ bad o ∧ ∀ ans, Never bad (next ans) := Iff.rfl

@[simp] lemma never_perform {o : Op} :
    Never bad (perform o : Program Op Ans (Ans o)) ↔ ¬ bad o := by
  rw [perform, never_call]
  simp

@[simp] lemma never_ite {c : Prop} [Decidable c] {p q : Program Op Ans α} :
    Never bad (if c then p else q) ↔ (c → Never bad p) ∧ (¬ c → Never bad q) := by
  split_ifs with hc <;> simp [hc]

lemma Never.bind {p : Program Op Ans α} {f : α → Program Op Ans β} (hp : Never bad p)
    (hf : ∀ a, Never bad (f a)) : Never bad (p >>= f) := by
  induction p with
  | done a => exact hf a
  | call o next ih => exact ⟨hp.1, fun ans => ih ans (hp.2 ans)⟩

lemma Never.mono {bad' : Op → Prop} {p : Program Op Ans α} (h : Never bad p)
    (hbad : ∀ o, bad' o → bad o) : Never bad' p := by
  induction p with
  | done a => exact never_done
  | call o next ih => exact ⟨fun ho => h.1 (hbad o ho), fun ans => ih ans (h.2 ans)⟩

lemma Never.not_mayCall {p : Program Op Ans α} (h : Never bad p) : ¬ MayCall env bad p s := by
  induction p generalizing s with
  | done a => exact mayCall_done
  | call o next ih =>
      rintro (hbad | ⟨ans, s', -, hnext⟩)
      · exact h.1 hbad
      · exact ih ans (h.2 ans) hnext

end MayCall

/-! ## States in the middle of a run -/

/-- Some run of the program from `s` comes through `s'`, whether or not it returns. -/
inductive Passes (env : Env Op Ans σ) : Program Op Ans α → σ → σ → Prop
  | here (p : Program Op Ans α) (s : σ) : Passes env p s s
  | call {o : Op} {next : Ans o → Program Op Ans α} {s t s' : σ} {ans : Ans o} :
      env o s ans t → Passes env (next ans) t s' → Passes env (.call o next) s s'

section Passes

variable {env : Env Op Ans σ} {p : Program Op Ans α} {I : σ → Prop} {s s' : σ}

/-- What every call keeps holds throughout a run. -/
lemma Passes.invariant (hcall : ∀ o s ans s', I s → env o s ans s' → I s')
    (h : Passes env p s s') (hs : I s) : I s' := by
  induction h with
  | here => exact hs
  | call hstep _ ih => exact ih (hcall _ _ _ _ hs hstep)

lemma Exec.passes {a : α} (h : Exec env p s a s') : Passes env p s s' := by
  induction h with
  | done a s => exact .here _ s
  | call hstep _ ih => exact .call hstep ih

/-- What every call but the bad ones keeps is kept by a program without them. -/
lemma Exec.keeps_of_never {bad : Op → Prop} {a : α} (h : Exec env p s a s')
    (hnever : Never bad p) (hcall : ∀ o s ans s', ¬ bad o → I s → env o s ans s' → I s')
    (hs : I s) : I s' := by
  induction h with
  | done => exact hs
  | call hstep _ ih => exact ih (hnever.2 _) (hcall _ _ _ _ hnever.1 hs hstep)

end Passes

/-! ## Operations with one outcome -/

/-- What each operation answers, and the state it leaves. -/
abbrev Handler (Op : Type) (Ans : Op → Type) (σ : Type) := (o : Op) → σ → Ans o × σ

/-- The value of a program, and the state it leaves. -/
def Program.eval (H : Handler Op Ans σ) : Program Op Ans α → σ → α × σ
  | .done a, s => (a, s)
  | .call o next, s => (next (H o s).1).eval H (H o s).2

section Eval

variable {H : Handler Op Ans σ} {s : σ}

@[simp] lemma eval_done (a : α) : (.done a : Program Op Ans α).eval H s = (a, s) := rfl

@[simp] lemma eval_call (o : Op) (next : Ans o → Program Op Ans α) :
    (.call o next : Program Op Ans α).eval H s = (next (H o s).1).eval H (H o s).2 := rfl

@[simp] lemma eval_perform (o : Op) :
    (perform o : Program Op Ans (Ans o)).eval H s = H o s := rfl

@[simp] lemma eval_bind (p : Program Op Ans α) (f : α → Program Op Ans β) :
    (p >>= f).eval H s = (f (p.eval H s).1).eval H (p.eval H s).2 := by
  induction p generalizing s with
  | done a => rfl
  | call o next ih => exact ih (H o s).1

/-- A run of a program whose calls do what the handler does. -/
lemma Exec.eval_eq {τ : Type} {env : Env Op Ans τ} {bad : Op → Prop} (f : τ → σ)
    (hcall : ∀ o t ans t', ¬ bad o → env o t ans t' → H o (f t) = (ans, f t'))
    {p : Program Op Ans α} {t t' : τ} {a : α} (h : Exec env p t a t') (hp : Never bad p) :
    p.eval H (f t) = (a, f t') := by
  induction h with
  | done => rfl
  | @call o next t t' t'' ans a hstep _ ih =>
      rw [eval_call, hcall o t ans t' hp.1 hstep]
      exact ih (hp.2 ans)

end Eval

/-! ## Ghost states -/

/-- However its calls are answered, the program ends well, with a state that it does not see and
that its calls change by `after`. -/
def Tracks (after : (o : Op) → Ans o → σ → σ) (good : α → σ → Prop) :
    Program Op Ans α → σ → Prop
  | .done a, s => good a s
  | .call o next, s => ∀ ans, Tracks after good (next ans) (after o ans s)

section Tracks

variable {after : (o : Op) → Ans o → σ → σ} {good good' : α → σ → Prop}
  {p : Program Op Ans α} {s : σ}

@[simp] lemma tracks_done {a : α} :
    Tracks after good (.done a : Program Op Ans α) s ↔ good a s := Iff.rfl

@[simp] lemma tracks_call {o : Op} {next : Ans o → Program Op Ans α} :
    Tracks after good (.call o next) s ↔ ∀ ans, Tracks after good (next ans) (after o ans s) :=
  Iff.rfl

@[simp] lemma tracks_ite {c : Prop} [Decidable c] {q : Program Op Ans α} :
    Tracks after good (if c then p else q) s ↔
      (c → Tracks after good p s) ∧ (¬ c → Tracks after good q s) := by
  split_ifs with hc <;> simp [hc]

lemma Tracks.bind {f : α → Program Op Ans β} {good : β → σ → Prop}
    (hp : Tracks after (fun a s => Tracks after good (f a) s) p s) :
    Tracks after good (p >>= f) s := by
  induction p generalizing s with
  | done a => exact hp
  | call o next ih => exact fun ans => ih ans (hp ans)

lemma Tracks.mono (h : Tracks after good p s) (hgood : ∀ a s, good a s → good' a s) :
    Tracks after good' p s := by
  induction p generalizing s with
  | done a => exact hgood a s h
  | call o next ih => exact fun ans => ih ans (h ans)

/-- What comes after a program ends well from every state. -/
lemma tracks_bind_of_forall {f : α → Program Op Ans β} {good : β → σ → Prop}
    (hf : ∀ a s, Tracks after good (f a) s) : Tracks after good (p >>= f) s := by
  refine Tracks.bind ?_
  induction p generalizing s with
  | done a => exact hf a s
  | call o next ih => exact fun ans => ih ans

/-- A program without the calls that change the state leaves it. -/
lemma Never.tracks {bad : Op → Prop} (h : Never bad p)
    (hsame : ∀ o, ¬ bad o → ∀ ans s, after o ans s = s) :
    Tracks after (fun _ s' => s' = s) p s := by
  induction p with
  | done a => exact rfl
  | call o next ih =>
      intro ans
      rw [hsame o h.1]
      exact ih ans (h.2 ans)

end Tracks

/-! ## Operations with at most one outcome -/

/-- What each operation answers and the state it leaves, if it is answered. -/
abbrev PartialHandler (Op : Type) (Ans : Op → Type) (σ : Type) :=
  (o : Op) → σ → Option (Ans o × σ)

/-- The value of a program and the state it leaves, if all its calls are answered. -/
def Program.evalPartial (H : PartialHandler Op Ans σ) : Program Op Ans α → σ → Option (α × σ)
  | .done a, s => some (a, s)
  | .call o next, s => (H o s).bind fun r => (next r.1).evalPartial H r.2

section EvalPartial

variable {H : PartialHandler Op Ans σ} {s s' : σ}

@[simp] lemma evalPartial_done (a : α) :
    (.done a : Program Op Ans α).evalPartial H s = some (a, s) := rfl

@[simp] lemma evalPartial_call (o : Op) (next : Ans o → Program Op Ans α) :
    (.call o next : Program Op Ans α).evalPartial H s =
      (H o s).bind fun r => (next r.1).evalPartial H r.2 := rfl

@[simp] lemma evalPartial_perform (o : Op) :
    (perform o : Program Op Ans (Ans o)).evalPartial H s = H o s := by
  rw [perform, evalPartial_call]
  exact Option.bind_fun_some (H o s)

@[simp] lemma evalPartial_bind (p : Program Op Ans α) (f : α → Program Op Ans β) :
    (p >>= f).evalPartial H s =
      (p.evalPartial H s).bind fun r => (f r.1).evalPartial H r.2 := by
  induction p generalizing s with
  | done a => rfl
  | call o next ih =>
      rw [call_bind, evalPartial_call, evalPartial_call, Option.bind_assoc]
      exact congrArg _ (funext fun r => ih r.1)

/-- An evaluated program ends well, whatever the ghost state. -/
lemma Tracks.of_evalPartial {τ : Type} {after : (o : Op) → Ans o → τ → τ} {good : α → τ → Prop}
    {p : Program Op Ans α} {u : τ} {a : α} (h : Tracks after good p u)
    (heval : p.evalPartial H s = some (a, s')) : ∃ u', good a u' := by
  induction p generalizing s u with
  | done b =>
      obtain ⟨rfl, -⟩ := Prod.mk.inj (Option.some.inj heval)
      exact ⟨u, h⟩
  | call o next ih =>
      obtain ⟨r, -, hrest⟩ := Option.bind_eq_some_iff.mp heval
      exact ih r.1 (h r.1) hrest

/-- What is evaluated is a run, in every environment that allows what the handler does. -/
lemma exec_of_evalPartial {τ : Type} {env : Env Op Ans τ} (f : σ → τ)
    (hcall : ∀ o s ans s', H o s = some (ans, s') → env o (f s) ans (f s'))
    {p : Program Op Ans α} {a : α} (h : p.evalPartial H s = some (a, s')) :
    Exec env p (f s) a (f s') := by
  induction p generalizing s with
  | done b =>
      obtain ⟨rfl, rfl⟩ := Prod.mk.inj (Option.some.inj h)
      exact .done _ _
  | call o next ih =>
      obtain ⟨⟨ans, t⟩, hstep, hrest⟩ := Option.bind_eq_some_iff.mp h
      exact .call (hcall o s ans t hstep) (ih ans hrest)

end EvalPartial

end Interaction
