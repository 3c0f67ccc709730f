import HelloEbpf.Spdk.Promise
import HelloEbpf.Spdk.Ready

/-!
# Concurrent — the start script, run several times at once

Any number of runs against one target, in any order of their commands, stays on the rungs of
`View.ladder`: a run that says `readyLine` has left the configuration a single run leaves
(`ready_of_reachable`).  Under `set -e` a creation that comes too late ends the run, and nothing else
does (`exits_at_creation`); but the runs cannot all come too late: of those that the host lets pass one
gets to its end (`exists_ready`).
-/

namespace HelloEbpf
namespace Spdk

open Shell Code View

section Parts

variable {σ : Type*} {srv : Server σ} {hsrv : srv.Documented} {host : Host σ} {v b : View} {k : Nat}
  {T : Terms σ} {rest : Code (Machine σ)} {m : Machine σ}

/-! ## Looking and creating -/

/-- `if test; then echo …; create; else echo …; fi`, where the test succeeds if step `k` is still to
be made. -/
theorem meets_ensure {test : Cmd (Machine σ)} {call : Rpc} {text text' : String}
    (htest : ∀ m b, m.target.map hsrv.view = some b →
      ((test m).1 = 0 ↔ ¬ StageDone k b) ∧
        (test m).2.target.map hsrv.view = some b ∧ (test m).2.said = m.said)
    (htext : text ≠ readyLine) (htext' : text' ≠ readyLine) (hown : call.Own)
    (haccepts : ∀ b, ¬ StageDone k (ladder.rung v k) →
      ladder.From v k b → b.config.Accepts call → b.attempt call = stage k b)
    (hrejects : ∀ b, ladder.From v k b → ¬ b.config.Accepts call → StageDone k b)
    (hexit : ∀ target, MadeStep hsrv v k target → T.exit target)
    (hlast : ∀ m, MadeStep hsrv v k m.target → T.last (rpc srv call) m)
    (hheir : k < 2 → ∀ m, Underway hsrv v (k + 1) m → T.heir k rest m) (hgoes : rest.Goes)
    (hrest : ∀ m, Underway hsrv v (k + 1) m →
      rest.Meets (sharing hsrv v) (promise hsrv v T) m)
    (hm : Underway hsrv v k m) :
    ((cond test (block [run (echo text), run (rpc srv call)]) (run (echo text'))).seq rest).Meets
      (sharing hsrv v) (promise hsrv v T) m := by
  refine meets_call underway_stable ?_ hm
  intro m hm
  rcases hm.reached with ⟨b, hb, hfrom⟩
  rcases htest m b hb with ⟨hstatus, hb', hsaid⟩
  rcases guar_of_same (hb'.trans hb.symm) with ⟨hrely, hguar⟩
  refine ⟨inv_of_quiet hm.quiet ?_, hrely, hguar, ?_⟩
  · -- Either way there is a message to say.
    rintro ⟨status, hexited⟩
    by_cases hzero : (test m).1 = 0 <;> simp only [hzero, ↓reduceIte] at hexited <;> cases hexited
  have hquiet : readyLine ∉ (test m).2.said := by
    rw [hsaid]
    exact hm.quiet
  by_cases hdone : StageDone k b
  · -- What is there already need not be created.
    have hne : (test m).1 ≠ 0 := fun hzero => hstatus.1 hzero hdone
    simp only [if_neg hne]
    exact meets_echo htext' hgoes hrest ⟨⟨b, hb', hfrom.of_done hdone⟩, hquiet⟩
  · -- The target was at rung `k` just now; it need not be when the call is made.
    have hnew : ¬ StageDone k (ladder.rung v k) := by
      have hrung := hfrom.eq_rung hdone
      rwa [hrung] at hdone
    simp only [hstatus.2 hdone, ↓reduceIte, block_cons_seq, block_nil_seq]
    refine meets_echo htext (goes_run_seq _ _) ?_ ⟨⟨b, hb', hfrom⟩, hquiet⟩
    intro m hm
    exact meets_create hown hnew (fun b => haccepts b hnew) hrejects hexit hlast hheir hgoes hrest hm

theorem meets_createBdev (hexit : ∀ target, MadeStep hsrv v 0 target → T.exit target)
    (hlast : ∀ m, MadeStep hsrv v 0 m.target → T.last (rpc srv malloc0) m)
    (hheir : ∀ m, Underway hsrv v 1 m → T.heir 0 rest m) (hgoes : rest.Goes)
    (hrest : ∀ m, Underway hsrv v 1 m → rest.Meets (sharing hsrv v) (promise hsrv v T) m)
    (hm : Underway hsrv v 0 m) :
    ((createBdev srv).seq rest).Meets (sharing hsrv v) (promise hsrv v T) m := by
  have hown : malloc0.Own := Rpc.own_of_subsystems fun _ => rfl
  refine meets_ensure ?_ (by decide) (by decide) hown ?_ ?_ hexit hlast (fun _ => hheir) hgoes hrest
    hm
  · intro m b hb
    rcases getBdevs_view hb with ⟨hstatus, hb', hsaid⟩
    refine ⟨?_, hb', hsaid⟩
    have hdone : (rpc srv (.bdevGetBdevs "Malloc0") m).1 = 0 ↔ StageDone 0 b := hstatus
    rw [← hdone]
    by_cases hzero : (rpc srv (.bdevGetBdevs "Malloc0") m).1 = 0 <;> simp [Cmd.not, hzero]
  · intro b _ _ _
    rfl
  · intro b _ hrejects
    exact not_not.1 hrejects

theorem meets_createSubsystem (hexit : ∀ target, MadeStep hsrv v 1 target → T.exit target)
    (hlast : ∀ m, MadeStep hsrv v 1 m.target → T.last (rpc srv cnode1) m)
    (hheir : ∀ m, Underway hsrv v 2 m → T.heir 1 rest m) (hgoes : rest.Goes)
    (hrest : ∀ m, Underway hsrv v 2 m → rest.Meets (sharing hsrv v) (promise hsrv v T) m)
    (hm : Underway hsrv v 1 m) :
    ((createSubsystem srv).seq rest).Meets (sharing hsrv v) (promise hsrv v T) m := by
  refine meets_ensure ?_ creating_ne_readyLine (by decide) own_cnode1 ?_ ?_ hexit hlast
    (fun _ => hheir) hgoes hrest hm
  · intro m b hb
    rcases getSubsystems_view hb with ⟨hgrep, hb', hsaid⟩
    refine ⟨?_, hb', hsaid⟩
    have hdone : Bre.grepQ subsysPattern (getSubsystems srv m).1 = 0 ↔ StageDone 1 b := hgrep
    rw [← hdone]
    by_cases hzero : Bre.grepQ subsysPattern (getSubsystems srv m).1 = 0 <;>
      simp [Cmd.not, Cmd.pipe, hzero]
  · -- Where the name is free, nobody has created the subsystem since `grep` did not find it.
    rintro b hnew ⟨j, hj, rfl⟩ haccepts
    have hone : j = 1 := by
      by_contra hne
      exact haccepts (mem_subsystems_rung (by omega) hnew)
    subst hone
    exact (ensureSubsystem_of_not_found (Bool.eq_false_iff.2 hnew)).symm
  · intro b _ hrejects
    exact b.shown (not_not.1 hrejects)

/-! ## The whole script -/

/-- From the namespace on nothing can end the run. -/
theorem meets_final (hm : Underway hsrv v 2 m) :
    (block [addNamespace srv, addListener srv, printSummary]).Meets (sharing hsrv v)
      (promise hsrv v T) m := by
  have hsummary : ∀ m, Underway hsrv v 5 m →
      (block [printSummary]).Meets (sharing hsrv v) (promise hsrv v T) m := by
    intro m hm
    simp only [printSummary, block, seq_done, seq_assoc]
    refine meets_echo (by decide) (goes_run_seq _ _) ?_ hm
    intro m hm
    refine meets_ready (goes_run_seq _ _) ?_ hm
    intro m hm
    refine meets_over_echo (goes_run_seq _ _) ?_ hm
    intro m hm
    refine meets_over_echo (goes_call _ _) ?_ hm
    intro m hm
    rw [← seq_done (run _)]
    exact meets_over_echo goes_done (fun _ => meets_over_done) hm
  have hlistener : ∀ m, Underway hsrv v 3 m →
      (block [addListener srv, printSummary]).Meets (sharing hsrv v) (promise hsrv v T) m := by
    intro m hm
    rw [block, addListener]
    simp only [block_cons_seq, block_nil_seq]
    refine meets_echo (by decide) (goes_call _ _) ?_ hm
    intro m hm
    have hown : tcpTransport.Own := Rpc.own_of_subsystems fun _ => rfl
    refine meets_masked (by decide) hown (fun _ => rfl) (by decide) (goes_call _ _) ?_ hm
    intro m hm
    exact meets_masked (by decide) own_listener1 (fun _ => rfl) (by decide) (goes_call _ _) hsummary hm
  rw [block, addNamespace]
  simp only [block_cons_seq, block_nil_seq]
  refine meets_echo (by decide) (goes_call _ _) ?_ hm
  intro m hm
  exact meets_masked (by decide) own_namespace1 (fun _ => rfl) (by decide) (goes_call _ _) hlistener hm

/-- Up to the first call only the host can end the run. -/
theorem meets_beginning (hfails : ¬ host.Passes → ∀ target, T.exit target)
    (hlast : ¬ host.Passes → ∀ c m, T.last c m) (hgoes : rest.Goes)
    (hrest : ∀ m, Underway hsrv v 0 m → rest.Meets (sharing hsrv v) (promise hsrv v T) m)
    (hm : Underway hsrv v 0 m) :
    ((checkRpcPy host).seq ((run (echo ("Using SPDK at: " ++ host.spdkDir))).seq
      ((setupHugepages host).seq ((startTarget host).seq rest)))).Meets (sharing hsrv v)
        (promise hsrv v T) m := by
  have hexit : ∀ status m, ¬ host.Passes → Underway hsrv v 0 m →
      (Code.exited status).Meets (sharing hsrv v) (promise hsrv v T) m := by
    intro status m hfail hm
    refine meets_exit underway_stable ?_ hm
    intro m hm
    exact ⟨hm.quiet, hfails hfail _⟩
  have hstart : ∀ m, Underway hsrv v 0 m →
      ((startTarget host).seq rest).Meets (sharing hsrv v) (promise hsrv v T) m := by
    intro m hm
    refine meets_idle (fun _ => rfl) ?_ ?_ hm
    · rintro m ⟨status, hexited⟩
      by_cases hzero : (pgrep m).1 = 0 <;> simp only [hzero, ↓reduceIte] at hexited <;> cases hexited
    intro m hm
    -- The target is running, so `pgrep` finds it.
    rcases hm.reached with ⟨b, hb, _⟩
    have hrunning : m.target.isSome = true := by
      rcases Option.map_eq_some_iff.1 hb with ⟨s, hs, _⟩
      rw [hs]
      rfl
    simp only [pgrep, hrunning, ↓reduceIte]
    exact meets_echo (by decide) hgoes hrest hm
  have hsetup : ∀ m, Underway hsrv v 0 m →
      ((setupHugepages host).seq ((startTarget host).seq rest)).Meets (sharing hsrv v)
        (promise hsrv v T) m := by
    intro m hm
    rw [setupHugepages]
    simp only [block_cons_seq, block_nil_seq]
    refine meets_echo (by decide) (goes_call _ _) ?_ hm
    intro m hm
    refine meets_idle (fun _ => rfl) ?_ ?_ hm
    · rintro m ⟨status, hexited⟩
      refine hlast (fun hpasses => ?_) _ _
      simp only [setup, hpasses.2, ↓reduceIte] at hexited
      cases hexited
    intro m hm
    by_cases hzero : host.setupStatus = 0
    · simp only [setup, hzero, ↓reduceIte]
      exact hstart m hm
    · simp only [setup, hzero, ↓reduceIte]
      exact hexit _ m (fun hpasses => hzero hpasses.2) hm
  refine meets_idle (fun _ => rfl) ?_ ?_ hm
  · rintro m ⟨status, hexited⟩
    by_cases hzero : ((rpcPyIsFile host).not m).1 = 0 <;>
      simp only [hzero, ↓reduceIte] at hexited <;> cases hexited
  intro m hm
  by_cases hfile : host.rpcPyExists = true
  · simp only [rpcPyIsFile, Cmd.not, hfile, ↓reduceIte, one_ne_zero]
    exact meets_echo (using_ne_readyLine host) (goes_call _ _) hsetup hm
  · have hfail : ¬ host.Passes := fun hpasses => hfile hpasses.1
    simp only [rpcPyIsFile, Cmd.not, hfile, Bool.false_eq_true, ↓reduceIte, one_ne_zero,
      block_cons_seq]
    exact meets_error (missing_ne_readyLine host) (fun m => hlast hfail _ m) (fun m => hexit 1 m hfail)
      hm

/-! ## Heirs -/

/-- The calls that end a run if they come too late. -/
def creation : Nat → Rpc
  | 0 => malloc0
  | _ => cnode1

/-- A run that has made sure of the subsystem: nothing ends it. -/
def sure : Terms σ where
  exit _ := False
  last _ _ := False
  heir _ _ _ := True

/-- A run that has made sure of the block device: only a subsystem that another run has created ends
it. -/
def pastBdev (hsrv : srv.Documented) (v : View) : Terms σ where
  exit := MadeStep hsrv v 1
  last c m := c = rpc srv (creation 1) ∧ MadeStep hsrv v 1 m.target
  heir _ _ _ := True

/-- What a run that has made step `k` promises from there on. -/
def heirTo (hsrv : srv.Documented) (v : View) : Nat → Contract (Machine σ)
  | 0 => promise hsrv v (pastBdev hsrv v)
  | _ => promise hsrv v sure

/-- The promise of a whole run. -/
def fromStart (hsrv : srv.Documented) (v : View) (host : Host σ) : Terms σ where
  exit target := ¬ host.Passes ∨ ∃ k < 2, MadeStep hsrv v k target
  last c m := ¬ host.Passes ∨ ∃ k < 2, c = rpc srv (creation k) ∧ MadeStep hsrv v k m.target
  heir k code m := code.Meets (sharing hsrv v) (heirTo hsrv v k) m

theorem meets_fromSubsystem (hexit : ∀ target, MadeStep hsrv v 1 target → T.exit target)
    (hlast : ∀ m, MadeStep hsrv v 1 m.target → T.last (rpc srv cnode1) m)
    (hheir : ∀ code m, code.Meets (sharing hsrv v) (promise hsrv v sure) m → T.heir 1 code m)
    (hm : Underway hsrv v 1 m) :
    (block [createSubsystem srv, addNamespace srv, addListener srv, printSummary]).Meets
      (sharing hsrv v) (promise hsrv v T) m := by
  refine meets_createSubsystem hexit hlast ?_ (goes_call _ _) (fun _ => meets_final) hm
  intro m hm
  exact hheir _ m (meets_final hm)

theorem meets_fromStart (hm : Underway hsrv v 0 m) :
    (startSpdkTgtCode srv host).Meets (sharing hsrv v) (promise hsrv v (fromStart hsrv v host)) m := by
  have hexit : ∀ k < 2, ∀ target, MadeStep hsrv v k target → (fromStart hsrv v host).exit target :=
    fun k hk target hmade => Or.inr ⟨k, hk, hmade⟩
  have hlast : ∀ k < 2, ∀ m : Machine σ, MadeStep hsrv v k m.target →
      (fromStart hsrv v host).last (rpc srv (creation k)) m :=
    fun k hk m hmade => Or.inr ⟨k, hk, rfl, hmade⟩
  refine meets_beginning (fun hfails _ => Or.inl hfails) (fun hfails _ _ => Or.inl hfails)
    (goes_call _ _) ?_ hm
  intro m hm
  refine meets_createBdev (hexit 0 (by decide)) (hlast 0 (by decide)) ?_ (goes_call _ _) ?_ hm
  · intro m hm
    exact meets_fromSubsystem (fun _ hmade => hmade) (fun _ hmade => ⟨rfl, hmade⟩)
      (fun _ _ _ => trivial) hm
  · intro m hm
    exact meets_fromSubsystem (hexit 1 (by decide)) (hlast 1 (by decide)) (fun _ _ hmeets => hmeets) hm

/-- A creation whose step has been made would fail. -/
theorem MadeStep.rejects {target : Option σ} (hk : k < 2) (h : MadeStep hsrv v k target) :
    ∃ s, target = some s ∧ ¬ (srv.config s).Accepts (creation k) := by
  rcases h with ⟨hnew, b, hb, j, hj, rfl⟩
  rcases Option.map_eq_some_iff.1 hb with ⟨s, hs, hview⟩
  refine ⟨s, hs, ?_⟩
  have hconfig : srv.config s = (ladder.rung v j).config := congrArg View.config hview
  rw [hconfig]
  match k, hk with
  | 0, _ =>
      have hdone : StageDone 0 (ladder.rung v j) := Ladder.done_rung (w := ladder) hj
      exact fun haccepts => haccepts hdone
  | 1, _ => exact fun haccepts => haccepts (mem_subsystems_rung hj hnew)

/-- Until then it would succeed. -/
theorem accepts_of_not_madeStep {target : Option σ} (hk : k < 2)
    (hreached : Reached hsrv v 0 target) (hnew : ¬ StageDone k (ladder.rung v k))
    (h : ¬ MadeStep hsrv v k target) :
    ∃ s, target = some s ∧ (srv.config s).Accepts (creation k) := by
  rcases hreached with ⟨b, hb, j, _, rfl⟩
  rcases Option.map_eq_some_iff.1 hb with ⟨s, hs, hview⟩
  refine ⟨s, hs, ?_⟩
  have hconfig : srv.config s = (ladder.rung v j).config := congrArg View.config hview
  have hle : j ≤ k := by
    by_contra hlt
    exact h ⟨hnew, _, hb, j, by omega, rfl⟩
  rw [hconfig]
  match k, hk, j, hle with
  | 0, _, 0, _ => exact hnew
  | 1, _, 0, _ =>
      -- What `grep` would find here it would find on the next rung.
      have hnotFound : v.found = false := Bool.eq_false_iff.2 fun hfound => hnew (found_attempt hfound)
      exact accepts_cnode1 hnotFound
  | 1, _, 1, _ => exact accepts_cnode1 (Bool.eq_false_iff.2 hnew)

end Parts

/-! ## Any number of runs -/

section Starts

variable {ι σ : Type*}

/-- Runs that are about to start, each on its own terms, while a target is running. -/
def starts (srv : Server σ) (hosts : ι → Host σ) (s : σ) :
    Pool ι (Machine σ) (Option σ) (List String) where
  shared := some s
  jobs i := (startSpdkTgtCode srv (hosts i), [])

variable {srv : Server σ} {hsrv : srv.Documented} {hosts : ι → Host σ} {s : σ} {v : View}
  {p₀ p p' : Pool ι (Machine σ) (Option σ) (List String)} {i : ι} {k : Nat} {call : Rpc}

/-- A run that is alone is the run of the script. -/
theorem eval_of_alone [DecidableEq ι] [Subsingleton ι]
    (hreach : Pool.Reachable Machine.split (starts srv hosts s) p) (i : ι) :
    (p.jobs i).1.eval (p.state Machine.split i) =
      startSpdkTgt srv (hosts i) { target := some s, said := [] } :=
  Pool.eval_of_reachable hreach i

/-- On the way from `p₀` to `p` it was the `i`-th run whose command made what the call makes. -/
def CreatedBy [DecidableEq ι] (srv : Server σ) (p₀ p : Pool ι (Machine σ) (Option σ) (List String))
    (i : ι) (call : Rpc) : Prop :=
  ∃ p₁ p₂, Pool.Reachable Machine.split p₀ p₁ ∧ Pool.StepBy Machine.split i p₁ p₂ ∧
    Pool.Reachable Machine.split p₂ p ∧
    (∃ s₁, p₁.shared = some s₁ ∧ (srv.config s₁).Accepts call) ∧
    ∃ s₂, p₂.shared = some s₂ ∧ ¬ (srv.config s₂).Accepts call

/-- The target is on the ladder, all runs keep their promises, and a step that had to be made has been
made by a run that is an heir to it. -/
structure Inherited [DecidableEq ι] (hsrv : srv.Documented) (v : View) (hosts : ι → Host σ)
    (p₀ p : Pool ι (Machine σ) (Option σ) (List String)) : Prop where
  reach : Pool.Reachable Machine.split p₀ p
  reached : Reached hsrv v 0 p.shared
  each : ∀ i, p.Keeps (sharing hsrv v) (promise hsrv v (fromStart hsrv v (hosts i))) i
  made : ∀ k < 2, MadeStep hsrv v k p.shared →
    ∃ i, CreatedBy srv p₀ p i (creation k) ∧ p.Keeps (sharing hsrv v) (heirTo hsrv v k) i

variable [DecidableEq ι]

theorem inherited_starts (hsrv : srv.Documented) (hosts : ι → Host σ) (s : σ) :
    Inherited hsrv (hsrv.view s) hosts (starts srv hosts s) (starts srv hosts s) := by
  have hstart : Reached hsrv (hsrv.view s) 0 (some s) := ⟨_, rfl, Ladder.from_zero⟩
  refine ⟨.refl, hstart, ?_, ?_⟩
  · intro i
    exact meets_fromStart ⟨hstart, List.not_mem_nil⟩
  · intro k _ hmade
    exact absurd ((madeStep_iff rfl).1 hmade) Ladder.not_made_start

namespace Inherited

/-- Nothing a run does takes the target down the ladder. -/
theorem rely (h : Inherited hsrv v hosts p₀ p) (hstep : Pool.StepBy (sharing hsrv v).split i p p') :
    (sharing hsrv v).rely p.shared p'.shared :=
  (hstep.keeps_own (h.each i)).1

theorem step (h : Inherited hsrv v hosts p₀ p) (hstep : Pool.StepBy (sharing hsrv v).split i p p') :
    Inherited hsrv v hosts p₀ p' := by
  rcases hstep.keeps_own (h.each i) with ⟨hrely, hguar, _⟩
  refine ⟨h.reach.tail ⟨i, hstep⟩, hrely 0 h.reached, fun j => hstep.keeps (h.each i) (h.each j), ?_⟩
  intro k hk hmade
  by_cases hold : MadeStep hsrv v k p.shared
  · rcases h.made k hk hold with ⟨j, ⟨p₁, p₂, hp₁, hj, hp₂, haccepts, hrejects⟩, hkeeps⟩
    exact ⟨j, ⟨p₁, p₂, hp₁, hj, hp₂.tail ⟨i, hstep⟩, haccepts, hrejects⟩,
      hstep.keeps (h.each i) hkeeps⟩
  · -- It is this command that makes the step.
    have hheir := (hguar k hk hmade).resolve_left hold
    have haccepts := accepts_of_not_madeStep hk h.reached hmade.1 hold
    exact ⟨i, ⟨p, p', h.reach, hstep, .refl, haccepts, hmade.rejects hk⟩, hheir⟩

/-- From there on, in any order of the commands. -/
theorem reachable (h : Inherited hsrv v hosts p₀ p) (hreach : Pool.Reachable Machine.split p p') :
    Inherited hsrv v hosts p₀ p' ∧ (sharing hsrv v).rely p.shared p'.shared := by
  induction hreach with
  | refl => exact ⟨h, (sharing hsrv v).rely_refl _⟩
  | tail _ hstep ih =>
      rcases hstep with ⟨i, hi⟩
      rcases ih with ⟨hp, hrely⟩
      exact ⟨hp.step hi, (sharing hsrv v).rely_trans _ _ _ hrely (hp.rely hi)⟩

theorem configured (h : Inherited hsrv v hosts p₀ p) (hsaid : readyLine ∈ (p.jobs i).2) :
    p.shared.map srv.config = some v.configured.config :=
  config_of_view ((Code.Meets.inv (h.each i)).1 hsaid).configured

/-- Where the subsystem had to be created, the run that has created it does not end early. -/
theorem creator (h : Inherited hsrv v hosts p₀ p) (hmade : MadeStep hsrv v 1 p.shared) :
    ∃ i, CreatedBy srv p₀ p i cnode1 ∧ p.Keeps (sharing hsrv v) (promise hsrv v sure) i :=
  h.made 1 (by decide) hmade

/-- Where the block device had to be created, the run that has created it ends early only where the
subsystem had to be created too. -/
theorem creator_bdev (h : Inherited hsrv v hosts p₀ p) (hmade : MadeStep hsrv v 0 p.shared) :
    ∃ i, CreatedBy srv p₀ p i malloc0 ∧
      p.Keeps (sharing hsrv v) (promise hsrv v (pastBdev hsrv v)) i :=
  h.made 0 (by decide) hmade

/-- A run that the host lets pass exits where another one has created what it wanted to create. -/
theorem created_of_exited (h : Inherited hsrv v hosts p₀ p) (hpasses : (hosts i).Passes)
    {status : Nat} (hexited : (p.jobs i).1 = .exited status) :
    ∃ call, (call = malloc0 ∨ call = cnode1) ∧ ∃ j, j ≠ i ∧ CreatedBy srv p₀ p j call := by
  have hcnode1 : MadeStep hsrv v 1 p.shared → ∃ j, j ≠ i ∧ CreatedBy srv p₀ p j cnode1 := by
    intro hmade
    rcases h.creator hmade with ⟨j, hcreated, hkeeps⟩
    refine ⟨j, ?_, hcreated⟩
    rintro rfl
    exact (Code.Meets.inv hkeeps).2.2.1 status hexited
  have hmalloc0 : MadeStep hsrv v 0 p.shared →
      ∃ call, (call = malloc0 ∨ call = cnode1) ∧ ∃ j, j ≠ i ∧ CreatedBy srv p₀ p j call := by
    intro hmade
    rcases h.creator_bdev hmade with ⟨j, hcreated, hkeeps⟩
    by_cases hne : j = i
    · -- Having created the block device itself, the run was too late for the subsystem.
      subst hne
      exact ⟨cnode1, Or.inr rfl, hcnode1 ((Code.Meets.inv hkeeps).2.2.1 status hexited)⟩
    · exact ⟨malloc0, Or.inl rfl, j, hne, hcreated⟩
  rcases (Code.Meets.inv (h.each i)).2.2.1 status hexited with hfails | ⟨k, hk, hmade⟩
  · exact absurd hpasses hfails
  match k, hk with
  | 0, _ => exact hmalloc0 hmade
  | 1, _ => exact ⟨cnode1, Or.inr rfl, hcnode1 hmade⟩

/-- The run that has got to its end, once nobody has a command left. -/
theorem exists_done (h : Inherited hsrv v hosts p₀ p) (hended : p.Ended) (i₀ : ι)
    (hpasses : (hosts i₀).Passes) :
    ∃ i, (p.jobs i).1 = .done ∧ readyLine ∈ (p.jobs i).2 := by
  have hsure : MadeStep hsrv v 1 p.shared →
      ∃ i, (p.jobs i).1 = .done ∧ readyLine ∈ (p.jobs i).2 := by
    intro hmade
    rcases h.creator hmade with ⟨i, _, hi⟩
    rcases Code.Meets.inv hi with ⟨_, hsaid, hnever, _⟩
    rcases hended i with hdone | ⟨status, hexited⟩
    · exact ⟨i, hdone, hsaid hdone⟩
    · exact (hnever status hexited).elim
  have hbdev : MadeStep hsrv v 0 p.shared →
      ∃ i, (p.jobs i).1 = .done ∧ readyLine ∈ (p.jobs i).2 := by
    intro hmade
    rcases h.creator_bdev hmade with ⟨i, _, hi⟩
    rcases Code.Meets.inv hi with ⟨_, hsaid, hlate, _⟩
    rcases hended i with hdone | ⟨status, hexited⟩
    · exact ⟨i, hdone, hsaid hdone⟩
    · exact hsure (hlate status hexited)
  rcases Code.Meets.inv (h.each i₀) with ⟨_, hsaid, hlate, _⟩
  rcases hended i₀ with hdone | ⟨status, hexited⟩
  · exact ⟨i₀, hdone, hsaid hdone⟩
  rcases hlate status hexited with hfails | ⟨k, hk, hmade⟩
  · exact absurd hpasses hfails
  match k, hk with
  | 0, _ => exact hbdev hmade
  | 1, _ => exact hsure hmade

end Inherited

theorem inherited_of_reachable (hsrv : srv.Documented)
    (hreach : Pool.Reachable Machine.split (starts srv hosts s) p) :
    Inherited hsrv (hsrv.view s) hosts (starts srv hosts s) p :=
  ((inherited_starts hsrv hosts s).reachable hreach).1

/-- The command that ends a run which the host lets pass: a creation that another run was quicker
with. -/
theorem Inherited.last (h : Inherited hsrv v hosts p₀ p) (hpasses : (hosts i).Passes)
    {c : Cmd (Machine σ)} {next : Nat → Code (Machine σ)} (hcode : (p.jobs i).1 = .call c next)
    (hends : Ends c next (p.state Machine.split i)) :
    ∃ k < 2, c = rpc srv (creation k) ∧ MadeStep hsrv v k p.shared ∧
      ∃ j, j ≠ i ∧ CreatedBy srv p₀ p j (creation k) := by
  have hone : c = rpc srv (creation 1) → MadeStep hsrv v 1 p.shared →
      ∃ k < 2, c = rpc srv (creation k) ∧ MadeStep hsrv v k p.shared ∧
        ∃ j, j ≠ i ∧ CreatedBy srv p₀ p j (creation k) := by
    intro hc hmade
    rcases h.creator hmade with ⟨j, hcreated, hkeeps⟩
    refine ⟨1, by decide, hc, hmade, j, ?_, hcreated⟩
    rintro rfl
    exact (Code.Meets.inv hkeeps).2.2.2 c next hcode hends
  rcases (Code.Meets.inv (h.each i)).2.2.2 c next hcode hends with hfails | ⟨k, hk, hc, hmade⟩
  · exact absurd hpasses hfails
  match k, hk with
  | 0, _ =>
      rcases h.creator_bdev hmade with ⟨j, hcreated, hkeeps⟩
      by_cases hne : j = i
      · subst hne
        rcases (Code.Meets.inv hkeeps).2.2.2 c next hcode hends with ⟨hc', hmade'⟩
        exact hone hc' hmade'
      · exact ⟨0, by decide, hc, hmade, j, hne, hcreated⟩
  | 1, _ => exact hone hc hmade

end Starts

/-- Runs that meet have an end, and one of them is ready there. -/
theorem exists_two_starts (t : Target) :
    ∃ p : Pool (Fin 2) (Machine Target) (Option Target) (List String),
      Pool.Reachable Machine.split (starts plainServer (fun _ => readyHost) t) p ∧ p.Ended ∧
        ∃ i, readyLine ∈ (p.jobs i).2 := by
  rcases Pool.exists_ended Machine.split
    (starts plainServer (fun _ : Fin 2 => readyHost) t) with ⟨p, hreach, hended⟩
  rcases (inherited_of_reachable plainServer_documented hreach).exists_done hended 0
    readyHost_passes with ⟨i, _, hsaid⟩
  exact ⟨p, hreach, hended, i, hsaid⟩

/-! ## What the runs lead to -/

section Results

variable {ι σ : Type*} [DecidableEq ι]

/-- Whatever the order of the commands, the target goes up the rungs a single run takes it up, and
never down. -/
theorem rungs_of_reachable (srv : Server σ) (hsrv : srv.Documented) (hosts : ι → Host σ) (s : σ)
    (p p' : Pool ι (Machine σ) (Option σ) (List String))
    (hp : Pool.Reachable Machine.split (starts srv hosts s) p)
    (hp' : Pool.Reachable Machine.split p p') :
    ∃ j j', j ≤ j' ∧ j' ≤ 5 ∧
      p.shared.map hsrv.view = some (ladder.rung (hsrv.view s) j) ∧
      p'.shared.map hsrv.view = some (ladder.rung (hsrv.view s) j') := by
  have h := inherited_of_reachable hsrv hp
  rcases h.reached with ⟨b, hb, j, _, rfl⟩
  rcases (h.reachable hp').2 j ⟨_, hb, j, Nat.le_refl j, rfl⟩ with ⟨b', hb', j', hj', rfl⟩
  have htop : ∀ i, ladder.rung (hsrv.view s) i = ladder.rung (hsrv.view s) (min i 5) := by
    intro i
    rcases Nat.le_total i 5 with hle | hge
    · rw [Nat.min_eq_left hle]
    · rcases Nat.exists_eq_add_of_le' hge with ⟨n, rfl⟩
      rw [Nat.min_eq_right hge, rung_add_five]
      rfl
  refine ⟨min j 5, min j' 5, by omega, by omega, ?_, ?_⟩
  · rw [hb, htop j]
  · rw [hb', htop j']

theorem rungs_of_reachable_two :
    ∃ (p : Pool (Fin 2) (Machine Target) (Option Target) (List String)) (j : Nat),
      Pool.Reachable Machine.split (starts plainServer (fun _ => readyHost) (oneSubsystem "a")) p ∧
      p.Ended ∧ j ≤ 5 ∧ p.shared.map plainServer_documented.view =
        some (ladder.rung (plainServer_documented.view (oneSubsystem "a")) j) := by
  rcases exists_two_starts (oneSubsystem "a") with ⟨p, hreach, hended, _⟩
  rcases rungs_of_reachable plainServer plainServer_documented _ _ _ p .refl hreach with
    ⟨_, j, _, hfive, _, hp⟩
  exact ⟨p, j, hreach, hended, hfive, hp⟩

/-- A run that has said that it is ready finds the configuration of a single run, and finds it there
from then on.  So the ready line is as true as it is for a single run. -/
theorem ready_of_reachable (srv : Server σ) (hsrv : srv.Documented) (hosts : ι → Host σ) (s : σ)
    (p : Pool ι (Machine σ) (Option σ) (List String))
    (hp : Pool.Reachable Machine.split (starts srv hosts s) p) (i : ι)
    (hsaid : readyLine ∈ (p.jobs i).2) :
    ∃ s', p.shared = some s' ∧ srv.config s' = (hsrv.view s).configured.config ∧
      ((srv.config s').Serves ↔ srv.Usable s) := by
  have hconfig := (inherited_of_reachable hsrv hp).configured hsaid
  rcases Option.map_eq_some_iff.1 hconfig with ⟨s', hs', hconfigured⟩
  refine ⟨s', hs', hconfigured, ?_⟩
  rw [hconfigured, serves_configured_iff, usable_view]

theorem ready_of_reachable_two :
    ∃ (p : Pool (Fin 2) (Machine Target) (Option Target) (List String)) (i : Fin 2) (t : Target),
      Pool.Reachable Machine.split (starts plainServer (fun _ => readyHost) (oneSubsystem "a")) p ∧
      readyLine ∈ (p.jobs i).2 ∧ p.shared = some t ∧
      t = (plainServer_documented.view (oneSubsystem "a")).configured.config := by
  rcases exists_two_starts (oneSubsystem "a") with ⟨p, hreach, _, i, hsaid⟩
  rcases ready_of_reachable plainServer plainServer_documented _ _ p hreach i hsaid with
    ⟨t, ht, hconfig, _⟩
  exact ⟨p, i, t, hreach, hsaid, ht, hconfig⟩

/-- Once no run has a command left, one of those that the host lets pass has got to its end; and where
another one of them has not, some other run has created what it wanted to create. -/
theorem exists_ready (srv : Server σ) (hsrv : srv.Documented) (hosts : ι → Host σ) (s : σ)
    (p : Pool ι (Machine σ) (Option σ) (List String))
    (hp : Pool.Reachable Machine.split (starts srv hosts s) p) (hended : p.Ended) (i₀ : ι)
    (hpasses : (hosts i₀).Passes) :
    (∃ i, (p.jobs i).1 = .done ∧ readyLine ∈ (p.jobs i).2) ∧
      p.shared.map srv.config = some (hsrv.view s).configured.config ∧
      ∀ i status, (hosts i).Passes → (p.jobs i).1 = .exited status →
        ∃ call, (call = malloc0 ∨ call = cnode1) ∧
          ∃ j, j ≠ i ∧ CreatedBy srv (starts srv hosts s) p j call := by
  have h := inherited_of_reachable hsrv hp
  rcases h.exists_done hended i₀ hpasses with ⟨i, hdone, hsaid⟩
  exact ⟨⟨i, hdone, hsaid⟩, h.configured hsaid, fun i status hi hexited =>
    h.created_of_exited hi hexited⟩

theorem exists_ready_two :
    ∃ (p : Pool (Fin 2) (Machine Target) (Option Target) (List String)) (i : Fin 2),
      Pool.Reachable Machine.split (starts plainServer (fun _ => readyHost) (oneSubsystem "a")) p ∧
      p.Ended ∧ (p.jobs i).1 = .done ∧ readyLine ∈ (p.jobs i).2 := by
  rcases exists_two_starts (oneSubsystem "a") with ⟨p, hreach, hended, _⟩
  rcases exists_ready plainServer plainServer_documented _ _ p hreach hended 0
    readyHost_passes with ⟨⟨i, hdone, hsaid⟩, _⟩
  exact ⟨p, i, hreach, hended, hdone, hsaid⟩

/-- The command that ends a run which the host lets pass is one of the two creations, and it fails
because another run has made it since the start. -/
theorem exits_at_creation (srv : Server σ) (hsrv : srv.Documented) (hosts : ι → Host σ) (s : σ)
    (p p' : Pool ι (Machine σ) (Option σ) (List String))
    (hp : Pool.Reachable Machine.split (starts srv hosts s) p) (i : ι)
    (hstep : Pool.StepBy Machine.split i p p') (hpasses : (hosts i).Passes) (status : Nat)
    (hexited : (p'.jobs i).1 = .exited status) :
    ∃ call, (call = malloc0 ∨ call = cnode1) ∧
      (∃ next, (p.jobs i).1 = .call (rpc srv call) next) ∧
      (∃ s', p.shared = some s' ∧ ¬ (srv.config s').Accepts call) ∧
      ∃ j, j ≠ i ∧ CreatedBy srv (starts srv hosts s) p j call := by
  have h := inherited_of_reachable hsrv hp
  have hown := hstep.own
  cases hcode : (p.jobs i).1 with
  | done =>
      rw [hcode] at hown
      cases hown
  | exited status' =>
      rw [hcode] at hown
      cases hown
  | call c next =>
      rw [hcode, hexited] at hown
      have hends : Ends c next (p.state Machine.split i) :=
        ⟨status, congrArg Prod.fst (Option.some.inj hown)⟩
      rcases h.last hpasses hcode hends with ⟨k, hk, rfl, hmade, hcreated⟩
      refine ⟨creation k, ?_, ⟨next, rfl⟩, hmade.rejects hk, hcreated⟩
      match k, hk with
      | 0, _ => exact Or.inl rfl
      | 1, _ => exact Or.inr rfl

/-- The second of two runs creates the block device just before the first one wants to. -/
theorem exits_at_creation_two :
    ∃ p p' : Pool (Fin 2) (Machine Target) (Option Target) (List String),
      Pool.Reachable Machine.split (starts plainServer (fun _ => readyHost) emptyTarget) p ∧
      Pool.StepBy Machine.split 0 p p' ∧ (p'.jobs 0).1 = .exited 1 ∧
      ∃ call next, (p.jobs 0).1 = .call (rpc plainServer call) next ∧
        CreatedBy plainServer (starts plainServer (fun _ => readyHost) emptyTarget) p 1 call := by
  let start := starts (ι := Fin 2) plainServer (fun _ => readyHost) emptyTarget
  -- The first run has eight commands up to the creation, the second one executes it, the ninth.
  let p₁ := start.advance Machine.split 0 8
  let p₂ := p₁.advance Machine.split 1 9
  have hreach : Pool.Reachable Machine.split start p₂ :=
    (Pool.reachable_advance Machine.split start 0 8).trans (Pool.reachable_advance Machine.split p₁ 1 9)
  have hstep : Pool.StepBy Machine.split 0 p₂ (p₂.advance Machine.split 0 1) := ⟨_, _, rfl, rfl⟩
  rcases exits_at_creation plainServer plainServer_documented _ emptyTarget p₂ _ hreach 0 hstep
    readyHost_passes 1 rfl with ⟨call, _, ⟨next, hcode⟩, _, j, hne, hcreated⟩
  have hone : j = 1 := by omega
  subst hone
  exact ⟨p₂, _, hreach, hstep, rfl, call, next, hcode, hcreated⟩

/-- Where the block device is there and `grep` finds the subsystem, no run that the host lets pass is
ended early; so once no run has a command left, all of these have got to their ends. -/
theorem rerun_never_exits (srv : Server σ) (hsrv : srv.Documented) (hosts : ι → Host σ) (s : σ)
    (hbdev : "Malloc0" ∈ (srv.config s).bdevs) (hfound : srv.Found s)
    (p : Pool ι (Machine σ) (Option σ) (List String))
    (hp : Pool.Reachable Machine.split (starts srv hosts s) p) (i : ι)
    (hpasses : (hosts i).Passes) :
    (∀ status, (p.jobs i).1 ≠ .exited status) ∧
      (p.Ended → (p.jobs i).1 = .done ∧ readyLine ∈ (p.jobs i).2) := by
  rcases Code.Meets.inv ((inherited_of_reachable hsrv hp).each i) with ⟨_, hsaid, hlate, _⟩
  have hnever : ∀ status, (p.jobs i).1 ≠ .exited status := by
    intro status hexited
    rcases hlate status hexited with hfails | ⟨k, hk, hnew, _⟩
    · exact hfails hpasses
    match k, hk with
    | 0, _ => exact hnew hbdev
    | 1, _ => exact hnew (found_attempt ((found_view hsrv).2 hfound))
  refine ⟨hnever, fun hended => ?_⟩
  rcases hended i with hdone | ⟨status, hexited⟩
  · exact ⟨hdone, hsaid hdone⟩
  · exact absurd hexited (hnever status)

theorem rerun_never_exits_two :
    ∃ p : Pool (Fin 2) (Machine Target) (Option Target) (List String),
      Pool.Reachable Machine.split (starts plainServer (fun _ => readyHost)
        (plainServer_documented.view (oneSubsystem "a")).configured.config) p ∧
      p.Ended ∧ ∀ i, (p.jobs i).1 = .done := by
  rcases exists_two_starts (plainServer_documented.view (oneSubsystem "a")).configured.config with
    ⟨p, hreach, hended, _⟩
  have hbdev := Ladder.done_rung (w := ladder)
    (a := plainServer_documented.view (oneSubsystem "a")) (show 0 < 5 by decide)
  -- The first run has created the subsystem, of which `grep` found nothing.
  have hnew : ¬ plainServer.Found (oneSubsystem "a") := by
    rw [found_oneSubsystem_iff]
    decide
  have hmem : subsysNqn ∈
      (plainServer_documented.view (oneSubsystem "a")).configured.config.subsystems := by
    refine mem_subsystems_rung (show 2 ≤ 5 by decide) fun hfound => hnew ?_
    have hbefore := (found_attempt_congr Target.subsystems_attempt_mallocCreate).symm.trans hfound
    exact (found_view plainServer_documented).1 hbefore
  refine ⟨p, hreach, hended, fun i => ?_⟩
  exact ((rerun_never_exits plainServer plainServer_documented _ _ hbdev
    (plainServer_documented.found_of_mem hmem) p hreach i readyHost_passes).2 hended).1

end Results

end Spdk
end HelloEbpf
