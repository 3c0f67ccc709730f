import HelloEbpf.Shell

/-!
# Code — a script between two of its commands

`Code.eval` says where a script ends that runs alone.  Where several shells run at a time, each of them
is between two of its commands while another one runs; a shell that is left alone ends where its script
does (`Code.eval_of_step`).

`Code.endedBy` is the command that ends it there.
-/

namespace Shell
namespace Code

variable {σ : Type*}

/-! ## Steps -/

/-- The next command, if there is one. -/
def step : Code σ → σ → Option (Code σ × σ)
  | .done, _ => none
  | .exited _, _ => none
  | .call c next, s => some (next (c s).1, (c s).2)

theorem eval_of_step {c c' : Code σ} {s s' : σ} (h : c.step s = some (c', s')) :
    c'.eval s' = c.eval s := by
  cases c with
  | done => cases h
  | exited status => cases h
  | call c next =>
      cases h
      rfl

/-- What is left after the next `n` commands, and the state there. -/
def after : Nat → Code σ → σ → Code σ × σ
  | 0, c, s => (c, s)
  | _ + 1, .done, s => (.done, s)
  | _ + 1, .exited status, s => (.exited status, s)
  | n + 1, .call c next, s => after n (next (c s).1) (c s).2

/-! ## What ends the shell -/

/-- The last command before the shell exits, and the state it is run in, if nobody else runs. -/
def endedBy : Code σ → σ → Option (Cmd σ × σ)
  | .done, _ => none
  | .exited _, _ => none
  | .call c next, s =>
      match next (c s).1 with
      | .exited _ => some (c, s)
      | _ => (next (c s).1).endedBy (c s).2

theorem eval_of_endedBy {c : Code σ} {d : Cmd σ} {s s' : σ} (h : c.endedBy s = some (d, s')) :
    ∃ status, c.eval s = .exited status (d s').2 := by
  induction c generalizing s with
  | done => cases h
  | exited status => cases h
  | call c next ih =>
      rw [endedBy] at h
      split at h
      · -- The command itself is answered by an exit; otherwise a later one is.
        rename_i status hexited
        cases h
        refine ⟨status, ?_⟩
        show (next (d s').1).eval (d s').2 = _
        rw [hexited]
        rfl
      · exact ih _ h

/-- There is a command left, or nothing. -/
def Goes (c : Code σ) : Prop :=
  ∀ status, c ≠ .exited status

theorem goes_done : (done : Code σ).Goes := by
  intro status h
  cases h

theorem goes_call (c : Cmd σ) (next : Nat → Code σ) : (call c next).Goes := by
  intro status h
  cases h

theorem endedBy_block_of_zero {c : Cmd σ} {codes : List (Code σ)} {s : σ} (hzero : (c s).1 = 0)
    (hgoes : (block codes).Goes) :
    (block (run c :: codes)).endedBy s = (block codes).endedBy (c s).2 := by
  rw [block]
  cases hrest : block codes with
  | done => simp [run, endedBy, hzero]
  | exited status => exact absurd hrest (hgoes status)
  | call d next => simp [run, seq, endedBy, hzero]

theorem endedBy_block_of_ne {c : Cmd σ} {codes : List (Code σ)} {s : σ} (hne : (c s).1 ≠ 0) :
    (block (run c :: codes)).endedBy s = some (c, s) := by
  simp [block, run, seq, endedBy, hne]

theorem goes_run_seq (c : Cmd σ) (rest : Code σ) : ((run c).seq rest).Goes :=
  goes_call _ _

theorem goes_block (c : Cmd σ) (codes : List (Code σ)) : (block (run c :: codes)).Goes :=
  goes_run_seq c (block codes)

end Code
end Shell
