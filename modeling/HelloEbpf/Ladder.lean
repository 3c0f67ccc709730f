import Mathlib.Tactic.Common

/-!
# Ladder — steps that are done for good

Some work is a row of steps, and each step finds out by itself whether it has been done already.  If a
later step never undoes an earlier one, the states the work goes through are the rungs of a ladder.
Anyone who starts at the bottom and goes up step by step stays on the rungs, also while others do the
same, and whoever has made `k` steps finds the state at rung `k` or higher.
-/

/-- Steps in a row, with the fact that says of each one that it has been done. -/
structure Ladder (α : Type*) where
  step : Nat → α → α
  Done : Nat → α → Prop
  done_step : ∀ k a, Done k (step k a)
  done_keep : ∀ k m a, k < m → Done k a → Done k (step m a)
  step_of_done : ∀ k a, Done k a → step k a = a

namespace Ladder

variable {α : Type*} (w : Ladder α) (a : α)

/-- The state after the first `k` steps. -/
def rung : Nat → α
  | 0 => a
  | k + 1 => w.step k (rung k)

variable {w a}

theorem done_rung {k j : Nat} (h : k < j) : w.Done k (w.rung a j) := by
  induction j with
  | zero => exact absurd h (Nat.not_lt_zero k)
  | succ j ih =>
      rcases Nat.lt_succ_iff_lt_or_eq.1 h with hlt | rfl
      · exact w.done_keep k j _ hlt (ih hlt)
      · exact w.done_step k _

/-- A step that has been made changes nothing further up. -/
theorem step_rung {k j : Nat} (h : k < j) : w.step k (w.rung a j) = w.rung a j :=
  w.step_of_done k _ (done_rung h)

/-- Doing the work again from above changes nothing. -/
theorem rung_rung {k j : Nat} (h : k ≤ j) : w.rung (w.rung a j) k = w.rung a j := by
  induction k with
  | zero => rfl
  | succ k ih =>
      rw [rung, ih (Nat.le_of_succ_le h)]
      exact step_rung h

/-- Two rungs that are equal have nothing else between them. -/
theorem rung_eq_of_le {i k j : Nat} (heq : w.rung a i = w.rung a j) (hik : i ≤ k) (hkj : k ≤ j) :
    w.rung a k = w.rung a j := by
  induction hik with
  | refl => exact heq
  | step _ ih =>
      rw [rung, ih (Nat.le_of_succ_le hkj)]
      exact step_rung hkj

/-! ## Somewhere from a rung upwards -/

/-- The state is a rung, the `k`-th or a higher one. -/
def From (w : Ladder α) (a : α) (k : Nat) (b : α) : Prop :=
  ∃ j, k ≤ j ∧ b = w.rung a j

variable {b : α} {k : Nat}

theorem from_zero : w.From a 0 a :=
  ⟨0, Nat.le_refl 0, rfl⟩

theorem From.mono {k' : Nat} (h : w.From a k b) (hle : k' ≤ k) : w.From a k' b := by
  rcases h with ⟨j, hj, hb⟩
  exact ⟨j, Nat.le_trans hle hj, hb⟩

/-- Whoever has got to rung `k` gets to the next one with the next step. -/
theorem From.step (h : w.From a k b) : w.From a (k + 1) (w.step k b) := by
  rcases h with ⟨j, hj, rfl⟩
  -- Above rung `k` others have made the step; at rung `k` it is made now.
  rcases Nat.lt_or_eq_of_le hj with hlt | rfl
  · exact ⟨j, hlt, step_rung hlt⟩
  · exact ⟨k + 1, Nat.le_refl _, rfl⟩

/-- A step that turns out to be done need not be made. -/
theorem From.of_done (h : w.From a k b) (hdone : w.Done k b) : w.From a (k + 1) b := by
  have hstep := h.step
  rwa [w.step_of_done k b hdone] at hstep

/-- Where the step is still to be made the state is its rung, and no higher one. -/
theorem From.eq_rung (h : w.From a k b) (hnew : ¬ w.Done k b) : b = w.rung a k := by
  rcases h with ⟨j, hj, rfl⟩
  rcases Nat.lt_or_eq_of_le hj with hlt | rfl
  · exact absurd (done_rung hlt) hnew
  · rfl

/-- Nobody is thrown back by the step of another. -/
theorem From.keep {k' : Nat} (h : w.From a k b) (hother : w.From a k' b) :
    w.From a k' (w.step k b) := by
  rcases hother with ⟨j, hj, hb⟩
  by_cases hlt : k < j
  · refine ⟨j, hj, ?_⟩
    rw [hb]
    exact step_rung hlt
  · -- The other one is not above rung `k`, and the state moves to rung `k + 1` or stays higher.
    exact h.step.mono (by omega)

/-! ## Steps that had to be made -/

/-- The `k`-th step had not been done on the way to rung `k`, and somebody has made it. -/
def Made (w : Ladder α) (a : α) (k : Nat) (b : α) : Prop :=
  ¬ w.Done k (w.rung a k) ∧ w.From a (k + 1) b

/-- At the start nothing has been made. -/
theorem not_made_start : ¬ w.Made a k a := by
  rintro ⟨hnew, j, hj, ha⟩
  have hstart : w.rung a 0 = w.rung a j := ha
  have hrung : w.rung a k = w.rung a j := rung_eq_of_le hstart (Nat.zero_le k) (by omega)
  rw [hrung] at hnew
  exact hnew (done_rung hj)

/-- A step makes nothing but itself. -/
theorem Made.of_step {i : Nat} (hb : w.From a k b) (h : w.Made a i (w.step k b)) (hne : i ≠ k) :
    w.Made a i b := by
  rcases hb with ⟨j, hj, rfl⟩
  rcases Nat.lt_or_eq_of_le hj with hlt | rfl
  · rwa [step_rung hlt] at h
  rcases h with ⟨hnew, l, hl, hstep⟩
  have hrung : w.rung a (k + 1) = w.rung a l := hstep
  refine ⟨hnew, ?_⟩
  by_cases hik : i < k
  · exact ⟨k, hik, rfl⟩
  · -- Rung `i` lies between two equal ones, where the step has been done.
    have heq : w.rung a i = w.rung a l := rung_eq_of_le hrung (by omega) (by omega)
    rw [heq] at hnew
    exact absurd (done_rung hl) hnew

end Ladder
