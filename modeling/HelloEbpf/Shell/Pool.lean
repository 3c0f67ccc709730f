import HelloEbpf.Shell.Code
import Mathlib.Data.DFinsupp.WellFounded
import Mathlib.Logic.Equiv.Defs
import Mathlib.Logic.Relation

/-!
# Pool — several shells at a time

A command works on a state of which all shells share one part, while the other part is the shell's own.
In a `Pool` any of the shells may run its next command at any time.

What is known of one shell has to hold whatever the others do meanwhile.  `Sharing.rely` bounds what
that may be, and a `Contract` says what a shell promises: an invariant on what it has left to do and
its state, and what each of its commands may do.  `Code.Meets` is that the shell keeps its promise from
here on if the others stay within `rely`; in a pool where all of them do, all promises are kept
(`Pool.StepBy.keeps`).
-/

namespace Shell

variable {ι σ S L : Type*}

/-! ## Pools -/

/-- The shared part of the state, and for each shell its code and its own part. -/
structure Pool (ι σ S L : Type*) where
  shared : S
  jobs : ι → Code σ × L

namespace Pool

variable (split : σ ≃ S × L)

/-- The state as the `i`-th shell has it. -/
def state (p : Pool ι σ S L) (i : ι) : σ :=
  split.symm (p.shared, (p.jobs i).2)

theorem split_state (p : Pool ι σ S L) (i : ι) :
    split (p.state split i) = (p.shared, (p.jobs i).2) :=
  split.apply_symm_apply _

/-- No shell has a command left. -/
def Ended (p : Pool ι σ S L) : Prop :=
  ∀ i, (p.jobs i).1 = .done ∨ ∃ status, (p.jobs i).1 = .exited status

variable [DecidableEq ι]

/-- The `i`-th shell has come to the code `c` in the state `s`. -/
def put (p : Pool ι σ S L) (i : ι) (c : Code σ) (s : σ) : Pool ι σ S L :=
  { shared := (split s).1
    jobs := Function.update p.jobs i (c, (split s).2) }

/-- The `i`-th shell runs its next command. -/
def StepBy (i : ι) (p p' : Pool ι σ S L) : Prop :=
  ∃ c s, (p.jobs i).1.step (p.state split i) = some (c, s) ∧ p' = p.put split i c s

def Step (p p' : Pool ι σ S L) : Prop :=
  ∃ i, StepBy split i p p'

def Reachable (p p' : Pool ι σ S L) : Prop :=
  Relation.ReflTransGen (Step split) p p'

variable {split} {p p' : Pool ι σ S L} {i j : ι}

theorem state_put (p : Pool ι σ S L) (i : ι) (c : Code σ) (s : σ) :
    (p.put split i c s).state split i = s := by
  simp only [state, put, Function.update_self]
  exact split.symm_apply_apply s

theorem jobs_put (p : Pool ι σ S L) (i : ι) (c : Code σ) (s : σ) :
    ((p.put split i c s).jobs i).1 = c := by
  simp [put]

theorem StepBy.own (h : StepBy split i p p') :
    (p.jobs i).1.step (p.state split i) = some ((p'.jobs i).1, p'.state split i) := by
  rcases h with ⟨c, s, hstep, rfl⟩
  rw [hstep, state_put]
  simp [put]

theorem StepBy.other (h : StepBy split i p p') (hne : j ≠ i) : p'.jobs j = p.jobs j := by
  rcases h with ⟨c, s, _, rfl⟩
  simp [put, hne]

variable (split) in
/-- The `i`-th shell has run its next `n` commands, and the others none. -/
def advance (p : Pool ι σ S L) (i : ι) (n : Nat) : Pool ι σ S L :=
  p.put split i (Code.after n (p.jobs i).1 (p.state split i)).1
    (Code.after n (p.jobs i).1 (p.state split i)).2

theorem put_put (p : Pool ι σ S L) (i : ι) (c c' : Code σ) (s s' : σ) :
    (p.put split i c s).put split i c' s' = p.put split i c' s' := by
  simp [put]

theorem put_self (p : Pool ι σ S L) (i : ι) :
    p.put split i (p.jobs i).1 (p.state split i) = p := by
  simp [put, split_state]

variable (split) in
theorem reachable_advance (p : Pool ι σ S L) (i : ι) (n : Nat) :
    Reachable split p (p.advance split i n) := by
  induction n generalizing p with
  | zero =>
      rw [advance, Code.after, put_self]
      exact .refl
  | succ n ih =>
      rw [advance]
      cases hcode : (p.jobs i).1 with
      | done =>
          rw [Code.after, ← hcode, put_self]
          exact .refl
      | exited status =>
          rw [Code.after, ← hcode, put_self]
          exact .refl
      | call c next =>
          -- One command, and then what is left of them.
          have hstep : StepBy split i p
              (p.put split i (next (c (p.state split i)).1) (c (p.state split i)).2) :=
            ⟨_, _, by rw [hcode]; rfl, rfl⟩
          refine .head ⟨i, hstep⟩ ?_
          have hrest := ih (p.put split i (next (c (p.state split i)).1) (c (p.state split i)).2)
          rw [advance, put_put, state_put, jobs_put] at hrest
          exact hrest

/-- A shell that is alone gets on towards where its script ends. -/
theorem eval_of_reachable [Subsingleton ι] (h : Reachable split p p') (i : ι) :
    (p'.jobs i).1.eval (p'.state split i) = (p.jobs i).1.eval (p.state split i) := by
  induction h with
  | refl => rfl
  | tail _ hstep ih =>
      rcases hstep with ⟨j, hj⟩
      -- There is no other shell that could have made the step.
      cases Subsingleton.elim j i
      exact (Code.eval_of_step hj.own).trans ih

end Pool

/-! ## Every run ends -/

/-- `c'` is left to do behind the next command of `c`. -/
def Code.Follows (c' c : Code σ) : Prop :=
  ∃ s s', c.step s = some (c', s')

theorem Code.wellFounded_follows : WellFounded (Code.Follows (σ := σ)) := by
  refine ⟨fun c => ?_⟩
  induction c with
  | done => exact ⟨_, fun _ ⟨_, _, h⟩ => nomatch h⟩
  | exited status => exact ⟨_, fun _ ⟨_, _, h⟩ => nomatch h⟩
  | call c next ih =>
      refine ⟨_, ?_⟩
      rintro c' ⟨s, s', h⟩
      cases h
      exact ih _

namespace Pool

variable [DecidableEq ι] (split : σ ≃ S × L)

/-- Finitely many shells cannot go on for ever. -/
theorem wellFounded_step [Finite ι] :
    WellFounded fun p' p : Pool ι σ S L => Step split p p' := by
  -- A step takes one shell to what is left of its code; the others keep theirs.
  have hcodes : WellFounded (Pi.Lex WellOrderingRel fun {_ : ι} => Code.Follows (σ := σ)) :=
    Pi.Lex.wellFounded WellOrderingRel fun _ => Code.wellFounded_follows
  refine Subrelation.wf ?_ (InvImage.wf (fun (p : Pool ι σ S L) i => (p.jobs i).1) hcodes)
  rintro p' p ⟨i, hi⟩
  refine ⟨i, ?_, ⟨_, _, hi.own⟩⟩
  intro j hj
  have hne : j ≠ i := ne_of_irrefl hj
  exact congrArg Prod.fst (hi.other hne)

/-- Any run can be brought to its end. -/
theorem exists_ended [Finite ι] (p : Pool ι σ S L) : ∃ p', Reachable split p p' ∧ p'.Ended := by
  induction p using (wellFounded_step (ι := ι) split).induction with
  | _ p ih =>
      by_cases hended : p.Ended
      · exact ⟨p, .refl, hended⟩
      · -- Some shell has a command left, which can be the next one.
        rw [Ended] at hended
        push Not at hended
        rcases hended with ⟨i, hdone, hexited⟩
        have hstep : ∃ p', StepBy split i p p' := by
          cases hcode : (p.jobs i).1 with
          | done => exact absurd hcode hdone
          | exited status => exact absurd hcode (hexited status)
          | call c next => exact ⟨_, _, _, by rw [hcode]; rfl, rfl⟩
        rcases hstep with ⟨p', hp'⟩
        rcases ih p' ⟨i, hp'⟩ with ⟨p'', hreach, hended'⟩
        exact ⟨p'', .head ⟨i, hp'⟩ hreach, hended'⟩

end Pool

/-! ## Contracts -/

/-- Which part of the state is shared, and what may become of it while a shell waits. -/
structure Sharing (σ S L : Type*) where
  split : σ ≃ S × L
  rely : S → S → Prop
  rely_refl : ∀ s, rely s s
  rely_trans : ∀ s s' s'', rely s s' → rely s' s'' → rely s s''

/-- What a shell promises: `inv` holds of its code and its state at any time, and `guar` of the code
it gets to and the states before and behind each of its commands. -/
structure Contract (σ : Type*) where
  inv : Code σ → σ → Prop
  guar : Code σ → σ → σ → Prop

/-- Others have run. -/
def Sharing.Others (sh : Sharing σ S L) (s s' : σ) : Prop :=
  sh.rely (sh.split s).1 (sh.split s').1 ∧ (sh.split s').2 = (sh.split s).2

/-- An assertion others leave alone. -/
def Sharing.Stable (sh : Sharing σ S L) (P : σ → Prop) : Prop :=
  ∀ s s', P s → sh.Others s s' → P s'

/-- From here on the shell keeps the contract, and what it does is within `rely`. -/
def Code.Meets (sh : Sharing σ S L) (K : Contract σ) : Code σ → σ → Prop
  | .done, s => ∀ s', sh.Others s s' → K.inv .done s'
  | .exited status, s => ∀ s', sh.Others s s' → K.inv (.exited status) s'
  | .call c next, s => ∀ s', sh.Others s s' →
      K.inv (.call c next) s' ∧
      sh.rely (sh.split s').1 (sh.split (c s').2).1 ∧
      K.guar (next (c s').1) s' (c s').2 ∧
      (next (c s').1).Meets sh K (c s').2

section Meets

variable {sh : Sharing σ S L} {K K' : Contract σ} {P : σ → Prop} {s s' : σ}

theorem Sharing.Others.refl (sh : Sharing σ S L) (s : σ) : sh.Others s s :=
  ⟨sh.rely_refl _, rfl⟩

theorem Sharing.Others.trans {s'' : σ} (h : sh.Others s s') (h' : sh.Others s' s'') :
    sh.Others s s'' :=
  ⟨sh.rely_trans _ _ _ h.1 h'.1, h'.2.trans h.2⟩

namespace Code.Meets

variable {c c' : Code σ}

/-- While the shell waits it still meets its contract. -/
theorem others (h : c.Meets sh K s) (hothers : sh.Others s s') : c.Meets sh K s' := by
  cases c with
  | done =>
      intro s'' h'
      exact h s'' (hothers.trans h')
  | exited status =>
      intro s'' h'
      exact h s'' (hothers.trans h')
  | call c next =>
      intro s'' h'
      exact h s'' (hothers.trans h')

theorem inv (h : c.Meets sh K s) : K.inv c s := by
  cases c with
  | done => exact h s (.refl sh s)
  | exited status => exact h s (.refl sh s)
  | call c next => exact (h s (.refl sh s)).1

theorem step (h : c.Meets sh K s) (hstep : c.step s = some (c', s')) :
    sh.rely (sh.split s).1 (sh.split s').1 ∧ K.guar c' s s' ∧ c'.Meets sh K s' := by
  cases c with
  | done => cases hstep
  | exited status => cases hstep
  | call c next =>
      cases hstep
      exact (h s (.refl sh s)).2

end Code.Meets

/-! ### Rules -/

/-- What has to be shown of one command: it is made in any state in which `P` holds. -/
theorem Code.meets_call {c : Cmd σ} {next : Nat → Code σ} (hP : sh.Stable P)
    (h : ∀ s, P s → K.inv (.call c next) s ∧
      sh.rely (sh.split s).1 (sh.split (c s).2).1 ∧
      K.guar (next (c s).1) s (c s).2 ∧ (next (c s).1).Meets sh K (c s).2) (hs : P s) :
    (Code.call c next).Meets sh K s := by
  intro s' hothers
  exact h s' (hP s s' hs hothers)

theorem Code.meets_done (hP : sh.Stable P) (h : ∀ s, P s → K.inv .done s) (hs : P s) :
    Code.done.Meets sh K s := by
  intro s' hothers
  exact h s' (hP s s' hs hothers)

theorem Code.meets_exited {status : Nat} (hP : sh.Stable P) (h : ∀ s, P s → K.inv (.exited status) s)
    (hs : P s) : (Code.exited status).Meets sh K s := by
  intro s' hothers
  exact h s' (hP s s' hs hothers)

end Meets

/-! ## Promises in a pool -/

section Keeps

variable [DecidableEq ι] {sh : Sharing σ S L} {K : Contract σ} {p p' : Pool ι σ S L} {i j : ι}

/-- The `i`-th shell keeps the contract from here on. -/
def Pool.Keeps (sh : Sharing σ S L) (K : Contract σ) (p : Pool ι σ S L) (i : ι) : Prop :=
  (p.jobs i).1.Meets sh K (p.state sh.split i)

theorem Pool.StepBy.keeps_own (h : Pool.StepBy sh.split i p p') (hK : p.Keeps sh K i) :
    sh.rely p.shared p'.shared ∧
      K.guar (p'.jobs i).1 (p.state sh.split i) (p'.state sh.split i) ∧ p'.Keeps sh K i := by
  rcases Code.Meets.step hK h.own with ⟨hrely, hguar, hmeets⟩
  rw [Pool.split_state, Pool.split_state] at hrely
  exact ⟨hrely, hguar, hmeets⟩

theorem Pool.StepBy.keeps_other (h : Pool.StepBy sh.split i p p')
    (hrely : sh.rely p.shared p'.shared) (hne : j ≠ i) (hK : p.Keeps sh K j) : p'.Keeps sh K j := by
  -- To the `j`-th shell the step is what others do: its own part stays.
  have hothers : sh.Others (p.state sh.split j) (p'.state sh.split j) := by
    rw [Sharing.Others, Pool.split_state, Pool.split_state, h.other hne]
    exact ⟨hrely, rfl⟩
  rw [Pool.Keeps, h.other hne]
  exact Code.Meets.others hK hothers

/-- A step that keeps the rely keeps every promise. -/
theorem Pool.StepBy.keeps {K' : Contract σ} (h : Pool.StepBy sh.split i p p')
    (hi : p.Keeps sh K i) (hj : p.Keeps sh K' j) : p'.Keeps sh K' j := by
  by_cases hne : j = i
  · subst hne
    exact (h.keeps_own hj).2.2
  · exact h.keeps_other (h.keeps_own hi).1 hne hj

end Keeps

end Shell
