import HelloEbpf.Spdk.Outcome

/-!
# Launch — a script that starts the target itself

Where no target is running the script starts one and waits three seconds; whether it has come up by
then is not asked.  If it has not, the first creation fails, and `set -e` ends the script before it
says anything about being ready (`finishes_iff`).  Run again, as often as one likes, it gets to its end
and finds the configuration as it left it the first time (`restarts_keep_config`).
-/

namespace HelloEbpf
namespace Spdk

open Shell Code

variable {σ : Type*} {srv : Server σ} {host : Host σ} {X : Machine σ → Prop}

/-! ## Without a target -/

/-- There is no target to talk to. -/
structure Absent (m : Machine σ) : Prop where
  target : m.target = none
  quiet : readyLine ∉ m.said

/-- The script has not said that it is ready. -/
def Quiet (m : Machine σ) : Prop :=
  readyLine ∉ m.said

theorem say_absent_spec {text : String} (h : text ≠ readyLine) :
    Code.Spec Absent (run (echo (σ := σ) text)) Absent X :=
  .run (echo_spec fun _ hm => ⟨hm.target, quiet_say hm.quiet h⟩)

/-- Without a target no call succeeds. -/
theorem rpc_absent_spec (call : Rpc) :
    Cmd.Spec Absent (rpc srv call) (fun _ => False) Absent := by
  intro m hm
  simp [rpc, hm.target, hm]

theorem checkRpcPy_absent_spec : Code.Spec Absent (checkRpcPy host) Absent Quiet := by
  have htest : Cmd.Spec Absent (rpcPyIsFile host) Absent Absent := fun _ hm =>
    ⟨fun _ => hm, fun _ => hm⟩
  have hexit : Code.Spec Absent (.exited 1) Absent (Quiet (σ := σ)) :=
    (Code.Spec.exited 1).mono (fun _ hm => hm) (fun _ hm => hm) (fun _ hm => hm.quiet)
  exact .cond htest.not (.cons (say_absent_spec (missing_ne_readyLine host)) (.cons hexit .nil)) .nil

theorem setupHugepages_absent_spec : Code.Spec Absent (setupHugepages host) Absent Quiet := by
  have hsetup : Cmd.Spec Absent (setup host) Absent Quiet := fun _ hm =>
    ⟨fun _ => hm, fun _ => hm.quiet⟩
  exact .cons (say_absent_spec (by decide)) (.cons (.run hsetup) .nil)

/-- A target that does not come up is not noticed here. -/
theorem startTarget_absent_spec (hboot : host.boot = none) :
    Code.Spec Absent (startTarget host) Absent Quiet := by
  have htest : Cmd.Spec Absent pgrep (fun _ : Machine σ => False) Absent := by
    intro m hm
    simp [pgrep, hm.target, hm]
  have hlaunch : Cmd.Spec Absent (launch host) Absent Quiet := fun _ hm =>
    ⟨fun _ => ⟨hboot, hm.quiet⟩, fun hne => absurd rfl hne⟩
  refine .cond htest (fun _ hfalse => hfalse.elim) ?_
  exact .cons (say_absent_spec (by decide))
    (.cons (.run hlaunch) (.cons (say_absent_spec (started_ne_readyLine host)) .nil))

theorem createBdev_absent_spec :
    Code.Spec Absent (createBdev srv) (fun _ => False) Quiet := by
  have hcreate : Code.Spec Absent (run (rpc srv malloc0)) (fun _ => False) Quiet :=
    .run ((rpc_absent_spec malloc0).mono (fun _ hm => hm) (fun _ hm => hm) (fun _ hm => hm.quiet))
  refine .cond (rpc_absent_spec (.bdevGetBdevs "Malloc0")).not ?_ (fun _ hfalse => hfalse.elim)
  exact .cons (say_absent_spec (by decide)) (.cons hcreate .nil)

theorem startSpdkTgt_absent_spec (hboot : host.boot = none) :
    Code.Spec Absent (startSpdkTgtCode srv host) (fun _ => False) Quiet := by
  refine .cons checkRpcPy_absent_spec (.cons (say_absent_spec (using_ne_readyLine host))
    (.cons setupHugepages_absent_spec (.cons (startTarget_absent_spec hboot)
      (.cons createBdev_absent_spec ?_))))
  intro m hfalse
  exact hfalse.elim

/-! ## With and without -/

/-- The two ways the script can go. -/
theorem startSpdkTgt_cases (hsrv : srv.Documented) (host : Host σ) (target : Option σ) :
    (∃ m s, startSpdkTgt srv host { target := target, said := [] } = .finished m ∧ host.Passes ∧
        target.or host.boot = some s ∧
        m.target.map hsrv.view = some (hsrv.view s).configured ∧ readyLine ∈ m.said) ∨
      ∃ status m, startSpdkTgt srv host { target := target, said := [] } = .exited status m ∧
        ¬ (host.Passes ∧ (target.or host.boot).isSome) ∧ readyLine ∉ m.said := by
  cases hcomes : target.or host.boot with
  | none =>
      -- No target, neither now nor after three seconds: the first creation fails.
      rcases Option.or_eq_none_iff.1 hcomes with ⟨rfl, hboot⟩
      have hspec : (startSpdkTgt srv host { target := none, said := [] }).In (fun _ => False) Quiet :=
        startSpdkTgt_absent_spec hboot _ ⟨rfl, List.not_mem_nil⟩
      cases hout : startSpdkTgt srv host { target := none, said := [] } with
      | finished m =>
          rw [hout] at hspec
          exact hspec.elim
      | exited status m =>
          rw [hout] at hspec
          exact .inr ⟨status, m, rfl, fun h => by simp at h, hspec⟩
  | some s =>
      have hbefore : Before hsrv host (hsrv.view s) { target := target, said := [] } :=
        ⟨congrArg (Option.map hsrv.view) hcomes, List.not_mem_nil⟩
      have hspec : (startSpdkTgt srv host { target := target, said := [] }).In
          (fun m => host.Passes ∧ Announced hsrv (hsrv.view s).configured m) (GaveUp host) :=
        startSpdkTgt_spec _ hbefore
      cases hout : startSpdkTgt srv host { target := target, said := [] } with
      | finished m =>
          rw [hout] at hspec
          rcases hspec with ⟨hpasses, hview, hsaid⟩
          exact .inl ⟨m, s, rfl, hpasses, rfl, hview, hsaid⟩
      | exited status m =>
          rw [hout] at hspec
          rcases hspec with ⟨hfails, hquiet⟩
          exact .inr ⟨status, m, rfl, fun hall => hfails hall.1, hquiet⟩

/-- The script gets to its end, and says that it is ready, exactly when the host passes and there is a
target, running already or started and come up. -/
theorem finishes_iff (srv : Server σ) (hsrv : srv.Documented) (host : Host σ) (target : Option σ) :
    ((∃ m, startSpdkTgt srv host { target := target, said := [] } = .finished m) ↔
        host.Passes ∧ (target.or host.boot).isSome) ∧
      (readyLine ∈ (startSpdkTgt srv host { target := target, said := [] }).state.said ↔
        host.Passes ∧ (target.or host.boot).isSome) := by
  rcases startSpdkTgt_cases hsrv host target with ⟨m, s, hout, hpasses, hcomes, _, hsaid⟩ |
    ⟨status, m, hout, hfails, hquiet⟩
  · simp [hout, Outcome.state, hpasses, hcomes, hsaid]
  · rw [hout]
    exact ⟨iff_of_false (fun ⟨_, h⟩ => nomatch h) hfails, iff_of_false hquiet hfails⟩

/-- A host on which everything is in place. -/
def readyHost : Host Target :=
  { spdkDirVar := ""
    rpcPyExists := true
    setupStatus := 0
    targetPid := 0
    boot := none }

theorem readyHost_passes : readyHost.Passes :=
  ⟨rfl, rfl⟩

/-- What a target has that is started with an empty configuration. -/
def emptyTarget : Target :=
  { bdevs := ∅, subsystems := ∅, transports := ∅ }

/-- A host on which that target comes up. -/
def bootingHost : Host Target :=
  { readyHost with boot := some emptyTarget }

theorem finishes_iff_booting :
    ∃ m, startSpdkTgt plainServer bootingHost { target := none, said := [] } = .finished m :=
  (finishes_iff plainServer plainServer_documented bootingHost none).1.2 ⟨⟨rfl, rfl⟩, rfl⟩

/-! ## Running it again -/

/-- The target after one more run of the script. -/
def restart (srv : Server σ) (host : Host σ) (target : Option σ) : Option σ :=
  (startSpdkTgt srv host { target := target, said := [] }).state.target

theorem restart_spec (hsrv : srv.Documented) (hpasses : host.Passes) {target : Option σ} {s : σ}
    (hs : target.or host.boot = some s) :
    (∃ m, startSpdkTgt srv host { target := target, said := [] } = .finished m) ∧
      ∃ s', restart srv host target = some s' ∧ hsrv.view s' = (hsrv.view s).configured := by
  rcases startSpdkTgt_cases hsrv host target with ⟨m, s₁, hout, _, hs₁, hview, _⟩ |
    ⟨status, m, _, hfails, _⟩
  · cases hs.symm.trans hs₁
    rcases Option.map_eq_some_iff.1 hview with ⟨s', hs', hs'view⟩
    refine ⟨⟨m, hout⟩, s', ?_, hs'view⟩
    rw [restart, hout]
    exact hs'
  · exact absurd ⟨hpasses, by rw [hs]; rfl⟩ hfails

/-- Each run after the first gets to its end and leaves the configuration that the first one left. -/
theorem restarts_keep_config (hsrv : srv.Documented) (hpasses : host.Passes) (target : Option σ) (s : σ)
    (hs : target.or host.boot = some s) (n : Nat) :
    (∃ m, startSpdkTgt srv host { target := (restart srv host)^[n] target, said := [] } =
        .finished m) ∧
      ((restart srv host)^[n + 1] target).map srv.config =
        some (hsrv.view s).configured.config := by
  induction n generalizing target s with
  | zero =>
      rcases restart_spec hsrv hpasses hs with ⟨hfinished, s', hs', hview⟩
      refine ⟨hfinished, ?_⟩
      rw [zero_add, Function.iterate_one, hs', ← hview]
      rfl
  | succ n ih =>
      -- The first run finds `s`, and the others find what it has left.
      rcases restart_spec hsrv hpasses hs with ⟨_, s', hs', hview⟩
      have hnext : (restart srv host target).or host.boot = some s' := by rw [hs']; rfl
      have hrest := ih (restart srv host target) s' hnext
      rwa [hview, View.configured_configured] at hrest

theorem restarts_keep_config_booting :
    ((restart plainServer bootingHost)^[3] none).map plainServer.config =
      some (plainServer_documented.view emptyTarget).configured.config :=
  (restarts_keep_config plainServer_documented ⟨rfl, rfl⟩ none emptyTarget rfl 2).2

end Spdk
end HelloEbpf
