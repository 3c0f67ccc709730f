import Mathlib.Tactic.Common

/-!
# Shell — scripts under `set -e`

A command takes a state to an exit status and a state.  A script is made of statements, and under
`set -e` the first statement that fails ends the shell.  Three places are exempt: the test of an `if`,
what stands behind `!`, and everything in front of the last `||`.

* `Code` — a script as what is left to do: a tree with a command at each node and a branch for each
  exit status,
* `Code.eval` — where a script ends that runs alone.

`Cmd.Spec` and `Code.Spec` are the triples for the two levels, each with a second postcondition for
the way out through failure; there is one rule for each construct.
-/

namespace Shell

variable {σ β : Type*}

/-- A command: its exit status, and the state it leaves. -/
abbrev Cmd (σ : Type*) : Type _ :=
  σ → Nat × σ

namespace Cmd

/-- `! c`. -/
def not (c : Cmd σ) : Cmd σ :=
  fun s => (if (c s).1 = 0 then 1 else 0, (c s).2)

/-- `producer | filter`: the status is that of the last command. -/
def pipe (producer : σ → β × σ) (filter : β → Nat) : Cmd σ :=
  fun s => (filter (producer s).1, (producer s).2)

end Cmd

/-- What a shell has left to do. -/
inductive Code (σ : Type*) where
  | done
  | exited (status : Nat)
  | call (c : Cmd σ) (next : Nat → Code σ)

namespace Code

/-- A command as a statement. -/
def run (c : Cmd σ) : Code σ :=
  .call c fun status => if status = 0 then .done else .exited status

/-- `c || d` as a statement. -/
def orElse (c d : Cmd σ) : Code σ :=
  .call c fun status => if status = 0 then .done else run d

/-- `if test; then thn; else els; fi`. -/
def cond (test : Cmd σ) (thn els : Code σ) : Code σ :=
  .call test fun status => if status = 0 then thn else els

/-- One after the other, unless the shell has exited. -/
def seq : Code σ → Code σ → Code σ
  | .done, rest => rest
  | .exited status, _ => .exited status
  | .call c next, rest => .call c fun status => (next status).seq rest

/-- Statements one after the other. -/
def block : List (Code σ) → Code σ
  | [] => .done
  | c :: rest => c.seq (block rest)

theorem seq_assoc (c d e : Code σ) : (c.seq d).seq e = c.seq (d.seq e) := by
  induction c with
  | done => rfl
  | exited status => rfl
  | call c next ih => exact congrArg (Code.call c) (funext ih)

@[simp] theorem seq_done (c : Code σ) : c.seq .done = c := by
  induction c with
  | done => rfl
  | exited status => rfl
  | call c next ih =>
      rw [seq]
      exact congrArg (Code.call c) (funext ih)

theorem block_nil_seq (rest : Code σ) : (block []).seq rest = rest :=
  rfl

theorem block_cons_seq (c : Code σ) (cs : List (Code σ)) (rest : Code σ) :
    (block (c :: cs)).seq rest = c.seq ((block cs).seq rest) :=
  seq_assoc c (block cs) rest

end Code

/-! ## Scripts that run alone -/

/-- A script ends behind its last statement, or the shell exits. -/
inductive Outcome (σ : Type*) where
  | finished (s : σ)
  | exited (status : Nat) (s : σ)

def Outcome.state : Outcome σ → σ
  | .finished s => s
  | .exited _ s => s

abbrev Script (σ : Type*) : Type _ :=
  σ → Outcome σ

/-- Go on with `next`, unless the shell has exited. -/
def Outcome.andThen : Outcome σ → Script σ → Outcome σ
  | .finished s, next => next s
  | .exited status s, _ => .exited status s

/-- What the shell does if nobody else runs. -/
def Code.eval : Code σ → Script σ
  | .done => fun s => .finished s
  | .exited status => fun s => .exited status s
  | .call c next => fun s => (next (c s).1).eval (c s).2

theorem Code.eval_seq (c d : Code σ) (s : σ) : (c.seq d).eval s = (c.eval s).andThen d.eval := by
  induction c generalizing s with
  | done => rfl
  | exited status => rfl
  | call c next ih => exact ih (c s).1 (c s).2

/-! ## Triples -/

variable {P P' Q Q' F F' X X' : σ → Prop}

/-- From `P` the command succeeds in `Q` or fails in `F`. -/
def Cmd.Spec (P : σ → Prop) (c : Cmd σ) (Q F : σ → Prop) : Prop :=
  ∀ s, P s → ((c s).1 = 0 → Q (c s).2) ∧ ((c s).1 ≠ 0 → F (c s).2)

/-- The outcome is in `Q` behind the last statement, and in `X` if the shell exited. -/
def Outcome.In (Q X : σ → Prop) : Outcome σ → Prop
  | .finished s => Q s
  | .exited _ s => X s

@[simp] theorem Outcome.in_finished {s : σ} : (Outcome.finished s).In Q X ↔ Q s :=
  Iff.rfl

@[simp] theorem Outcome.in_exited {status : Nat} {s : σ} : (Outcome.exited status s).In Q X ↔ X s :=
  Iff.rfl

/-- From `P` the script finishes in `Q` or exits in `X`. -/
def Code.Spec (P : σ → Prop) (c : Code σ) (Q X : σ → Prop) : Prop :=
  ∀ s, P s → (c.eval s).In Q X

theorem Outcome.In.mono {o : Outcome σ} (h : o.In Q X) (hQ : ∀ s, Q s → Q' s)
    (hX : ∀ s, X s → X' s) : o.In Q' X' := by
  cases o with
  | finished s => exact hQ s h
  | exited status s => exact hX s h

namespace Cmd.Spec

variable {c : Cmd σ}

theorem mono (h : Spec P c Q F) (hP : ∀ s, P' s → P s) (hQ : ∀ s, Q s → Q' s)
    (hF : ∀ s, F s → F' s) : Spec P' c Q' F' := by
  intro s hs
  rcases h s (hP s hs) with ⟨hok, hfail⟩
  exact ⟨fun hzero => hQ _ (hok hzero), fun hne => hF _ (hfail hne)⟩

theorem not (h : Spec P c Q F) : Spec P c.not F Q := by
  intro s hs
  rcases h s hs with ⟨hok, hfail⟩
  by_cases hzero : (c s).1 = 0
  · simpa [Cmd.not, hzero] using hok hzero
  · simpa [Cmd.not, hzero] using hfail hzero

end Cmd.Spec

namespace Code.Spec

variable {R : σ → Prop} {code : Code σ} {codes : List (Code σ)} {c d : Cmd σ}

theorem mono (h : Spec P code Q X) (hP : ∀ s, P' s → P s) (hQ : ∀ s, Q s → Q' s)
    (hX : ∀ s, X s → X' s) : Spec P' code Q' X' := by
  intro s hs
  exact (h s (hP s hs)).mono hQ hX

/-- A fact that does not depend on the state may be used outside of the triple. -/
theorem of_pure {φ : Prop} (h : φ → Spec P code Q X) : Spec (fun s => φ ∧ P s) code Q X := by
  intro s hs
  exact h hs.1 s hs.2

/-- A statement that fails is where the shell exits. -/
theorem run (h : c.Spec P Q X) : Spec P (run c) Q X := by
  intro s hs
  rcases h s hs with ⟨hok, hfail⟩
  by_cases hzero : (c s).1 = 0
  · simpa [Code.run, eval, hzero] using hok hzero
  · simpa [Code.run, eval, hzero] using hfail hzero

/-- The right command runs where the left one failed. -/
theorem orElse (hc : c.Spec P Q F) (hd : d.Spec F Q X) : Spec P (orElse c d) Q X := by
  intro s hs
  rcases hc s hs with ⟨hok, hfail⟩
  by_cases hzero : (c s).1 = 0
  · simpa [Code.orElse, eval, hzero] using hok hzero
  · simpa [Code.orElse, eval, hzero] using run hd _ (hfail hzero)

theorem exited (status : Nat) : Spec P (.exited status) Q P := by
  intro s hs
  exact hs

theorem cond {test : Cmd σ} {thn els : Code σ} {T E : σ → Prop} (htest : test.Spec P T E)
    (hthn : Spec T thn Q X) (hels : Spec E els Q X) : Spec P (cond test thn els) Q X := by
  intro s hs
  rcases htest s hs with ⟨hok, hfail⟩
  by_cases hzero : (test s).1 = 0
  · simpa [Code.cond, eval, hzero] using hthn _ (hok hzero)
  · simpa [Code.cond, eval, hzero] using hels _ (hfail hzero)

theorem nil : Spec P (block []) P X := by
  intro s hs
  exact hs

/-- What comes next starts where its precondition holds. -/
theorem cons (hc : Spec P code R X) (hcodes : Spec R (block codes) Q X) :
    Spec P (block (code :: codes)) Q X := by
  intro s hs
  have hcode := hc s hs
  rw [block, eval_seq]
  cases hout : code.eval s with
  | finished s' =>
      rw [hout] at hcode
      exact hcodes s' hcode
  | exited status s' =>
      -- `andThen` skips the rest, so `Q` is not owed.
      rw [hout] at hcode
      exact hcode

end Code.Spec

end Shell
