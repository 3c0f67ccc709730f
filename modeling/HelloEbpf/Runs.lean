import Mathlib.Tactic.Common

/-!
# Runs — a fallible step folded over the inputs it is promised

A loop that consumes one input per iteration is `inputs.foldlM step state`.  What its environment
promises about the next input may depend on the state the loop is in at that moment, as the size of
a requested read does; `Guarded` follows the run and collects these promises.

`Guarded.invariant` is the induction over a run, once and for all: an invariant that also speaks of
the inputs consumed so far holds at the end, and the run gets there.
-/

namespace Runs

variable {σ α ε : Type*} {step : σ → α → Except ε σ} {guard : σ → α → Prop}
variable {s s' : σ} {l l₁ l₂ : List α}

/-- Every input meets `guard` in the state in which the run receives it. -/
def Guarded (step : σ → α → Except ε σ) (guard : σ → α → Prop) : σ → List α → Prop
  | _, [] => True
  | s, a :: l => guard s a ∧ ∀ s', step s a = .ok s' → Guarded step guard s' l

theorem foldlM_cons_of_ok {a : α} (h : step s a = .ok s') :
    (a :: l).foldlM step s = l.foldlM step s' := by
  rw [List.foldlM_cons, h]
  rfl

theorem foldlM_cons_of_error {a : α} {e : ε} (h : step s a = .error e) :
    (a :: l).foldlM step s = .error e := by
  rw [List.foldlM_cons, h]
  rfl

theorem Guarded.left (h : Guarded step guard s (l₁ ++ l₂)) : Guarded step guard s l₁ := by
  induction l₁ generalizing s with
  | nil => trivial
  | cons a l₁ ih =>
      rcases h with ⟨hguard, hrest⟩
      refine ⟨hguard, ?_⟩
      intro s' hstep
      exact ih (hrest s' hstep)

theorem Guarded.right (h : Guarded step guard s (l₁ ++ l₂)) (hrun : l₁.foldlM step s = .ok s') :
    Guarded step guard s' l₂ := by
  induction l₁ generalizing s with
  | nil =>
      have hs : s = s' := by simpa [pure, Except.pure] using hrun
      subst hs
      simpa using h
  | cons a l₁ ih =>
      rcases h with ⟨_, hrest⟩
      cases hstep : step s a with
      | error e =>
          -- Then the run over the first inputs would not have ended well.
          rw [foldlM_cons_of_error hstep] at hrun
          cases hrun
      | ok s₁ =>
          rw [foldlM_cons_of_ok hstep] at hrun
          exact ih (hrest s₁ hstep) hrun

section Invariant

variable (Inv : List α → σ → Prop)

/-- An invariant of the consumed inputs and the state, kept by every promised step. -/
theorem Guarded.invariant (hstep : ∀ pre s a, Inv pre s → guard s a →
      ∃ s', step s a = .ok s' ∧ Inv (pre ++ [a]) s')
    (pre : List α) (hinv : Inv pre s) (h : Guarded step guard s l) :
    ∃ s', l.foldlM step s = .ok s' ∧ Inv (pre ++ l) s' := by
  -- Each step moves one input from `l` to the end of `pre`.
  induction l generalizing s pre with
  | nil => exact ⟨s, rfl, by simpa using hinv⟩
  | cons a l ih =>
      rcases h with ⟨hguard, hrest⟩
      rcases hstep pre s a hinv hguard with ⟨s₁, hs₁, hinv₁⟩
      rcases ih (pre ++ [a]) hinv₁ (hrest s₁ hs₁) with ⟨s', hrun, hinv'⟩
      refine ⟨s', ?_, by simpa using hinv'⟩
      rw [foldlM_cons_of_ok hs₁, hrun]

/-- Inputs that meet the guard wherever the invariant holds are promised to the whole run. -/
theorem guarded_of_invariant (hstep : ∀ pre s a s', Inv pre s → guard s a → step s a = .ok s' →
      Inv (pre ++ [a]) s')
    (pre : List α) (hinv : Inv pre s)
    (hguard : ∀ pre s a, Inv pre s → a ∈ l → guard s a) : Guarded step guard s l := by
  induction l generalizing s pre with
  | nil => trivial
  | cons a l ih =>
      have hfirst : guard s a := hguard pre s a hinv (by simp)
      refine ⟨hfirst, ?_⟩
      intro s' hs'
      refine ih (pre ++ [a]) (hstep pre s a s' hinv hfirst hs') ?_
      intro pre' s'' b hinv' hb
      exact hguard pre' s'' b hinv' (by simp [hb])

/-- A second step function that agrees on the promised inputs runs the same way. -/
theorem Guarded.foldlM_congr {step' : σ → α → Except ε σ}
    (hstep : ∀ pre s a s', Inv pre s → guard s a → step s a = .ok s' → Inv (pre ++ [a]) s')
    (hagree : ∀ pre s a, Inv pre s → guard s a → step' s a = step s a)
    (pre : List α) (hinv : Inv pre s) (h : Guarded step guard s l) :
    l.foldlM step' s = l.foldlM step s := by
  induction l generalizing s pre with
  | nil => rfl
  | cons a l ih =>
      rcases h with ⟨hguard, hrest⟩
      have hsame : step' s a = step s a := hagree pre s a hinv hguard
      -- Both runs stop here with the same error, or go on from the same state.
      cases hs : step s a with
      | error e =>
          rw [foldlM_cons_of_error hs, foldlM_cons_of_error (hsame.trans hs)]
      | ok s' =>
          rw [foldlM_cons_of_ok hs, foldlM_cons_of_ok (hsame.trans hs)]
          exact ih (pre ++ [a]) (hstep pre s a s' hinv hguard hs) (hrest s' hs)

end Invariant

/-- Two runs on the same inputs, from states that a promised step keeps related. -/
theorem Guarded.related (R : σ → σ → Prop)
    (hstep : ∀ s t a, R s t → guard s a →
      ∃ s' t', step s a = .ok s' ∧ step t a = .ok t' ∧ R s' t')
    {t : σ} (hR : R s t) (h : Guarded step guard s l) :
    ∃ s' t', l.foldlM step s = .ok s' ∧ l.foldlM step t = .ok t' ∧ R s' t' := by
  induction l generalizing s t with
  | nil => exact ⟨s, t, rfl, rfl, hR⟩
  | cons a l ih =>
      rcases h with ⟨hguard, hrest⟩
      rcases hstep s t a hR hguard with ⟨s₁, t₁, hs₁, ht₁, hR₁⟩
      rcases ih hR₁ (hrest s₁ hs₁) with ⟨s', t', hrun, hrun', hR'⟩
      refine ⟨s', t', ?_, ?_, hR'⟩
      · rw [foldlM_cons_of_ok hs₁, hrun]
      · rw [foldlM_cons_of_ok ht₁, hrun']

end Runs
