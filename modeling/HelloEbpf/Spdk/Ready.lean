import HelloEbpf.Spdk.Launch

/-!
# Ready — what is configured when the script says so

The summary at the end of the script names a subsystem, a namespace and a listener.  They are there
for a target that is `Server.Usable` to begin with, and for no other: `grep` takes more than one NQN
for the script's own, and the block device may belong to another subsystem (`ready_iff`).
-/

namespace HelloEbpf
namespace Spdk

open Shell

/-- If the script has said that the target is ready, the target serves what the summary announces. -/
def Truthful {σ : Type*} (srv : Server σ) (m : Machine σ) : Prop :=
  readyLine ∈ m.said → ∃ s, m.target = some s ∧ (srv.config s).Serves

/-- With the target that the script finds or starts. -/
theorem truthful_of_comes {σ : Type*} {srv : Server σ} (hsrv : srv.Documented) {host : Host σ}
    {target : Option σ} {s : σ} (hs : target.or host.boot = some s) :
    Truthful srv (startSpdkTgt srv host { target := target, said := [] }).state ↔
      (host.Passes → srv.Usable s) := by
  rcases startSpdkTgt_cases hsrv host target with ⟨m, s₁, hout, hpasses, hs₁, hview, hsaid⟩ |
    ⟨status, m, hout, hfails, hquiet⟩
  · cases hs.symm.trans hs₁
    rcases Option.map_eq_some_iff.1 hview with ⟨s', hs', hs'view⟩
    -- What the target serves now is decided by what it was.
    have hserves : (srv.config s').Serves ↔ srv.Usable s := by
      have hconfig : srv.config s' = (hsrv.view s).configured.config :=
        congrArg View.config hs'view
      rw [hconfig, View.serves_configured_iff, usable_view]
    rw [hout, ← hserves]
    constructor
    · intro htrue _
      rcases htrue hsaid with ⟨s'', hs'', h⟩
      cases hs'.symm.trans hs''
      exact h
    · intro h _
      exact ⟨s', hs', h hpasses⟩
  · rw [hout]
    refine iff_of_true (fun hsaid => absurd hsaid hquiet) fun hpasses => ?_
    exact absurd ⟨hpasses, by rw [hs]; rfl⟩ hfails

/-! ## A target with one subsystem -/

/-- A target with one subsystem and nothing else. -/
def oneSubsystem (nqn : String) : Target :=
  { bdevs := ∅
    subsystems := Finmap.singleton nqn
      { allowAnyHost := true
        hosts := ∅
        serialNumber := "SPDK00000000000010"
        modelNumber := "SPDK_Controller10"
        namespaces := ∅
        listeners := ∅ }
    transports := ∅ }

theorem lookup_oneSubsystem_of_ne {nqn q : String} (h : q ≠ nqn) :
    (oneSubsystem nqn).subsystems.lookup q = none := by
  rw [Finmap.lookup_eq_none, oneSubsystem, Finmap.mem_singleton]
  exact h

theorem not_claimed_oneSubsystem (nqn bdevName : String) :
    ¬ (oneSubsystem nqn).Claimed bdevName := by
  rw [Target.claimed_iff]
  rintro ⟨q, sub, hsub, hns⟩
  by_cases hq : q = nqn
  · subst hq
    rw [oneSubsystem, Finmap.lookup_singleton_eq] at hsub
    cases hsub
    exact Finset.notMem_empty _ hns
  · rw [lookup_oneSubsystem_of_ne hq] at hsub
    cases hsub

theorem found_oneSubsystem_iff {nqn : String} :
    plainServer.Found (oneSubsystem nqn) ↔ Bre.search subsysPattern.source nqn.toList = true := by
  rw [Bre.search_iff]
  simp [Server.Found, plainServer, oneSubsystem, Bre.Pattern.Matches]

/-! ## The ready line -/

/-- The ready line is true exactly when the script did not reach it or found a usable target. -/
theorem ready_iff {σ : Type*} (srv : Server σ) (hsrv : srv.Documented) (host : Host σ) (s : σ) :
    Truthful srv (startSpdkTgt srv host { target := some s, said := [] }).state ↔
      (host.Passes → srv.Usable s) :=
  truthful_of_comes hsrv rfl

/-- A target that serves something else is configured next to it. -/
theorem ready_iff_other :
    Truthful plainServer (startSpdkTgt plainServer readyHost
      { target := some (oneSubsystem "nqn.2016-06.io.spdk:init"), said := [] }).state := by
  refine (ready_iff plainServer plainServer_documented readyHost _).2 ?_
  intro _
  refine ⟨Or.inr ?_, Or.inr (not_claimed_oneSubsystem _ _)⟩
  rw [found_oneSubsystem_iff]
  decide

/-- With a subsystem `…:cnode10` on the target the script says that it is ready, and the subsystem it
names is not there. -/
theorem ready_without_subsystem :
    ∃ m, startSpdkTgt plainServer readyHost
        { target := some (oneSubsystem "nqn.2016-06.io.spdk:cnode10"), said := [] } = .finished m ∧
      readyLine ∈ m.said ∧ ¬ Truthful plainServer m := by
  have hfound : plainServer.Found (oneSubsystem "nqn.2016-06.io.spdk:cnode10") := by
    rw [found_oneSubsystem_iff]
    decide
  have hunusable : ¬ plainServer.Usable (oneSubsystem "nqn.2016-06.io.spdk:cnode10") := by
    rintro ⟨hmem | hnone, _⟩
    · have hsame := Finmap.mem_singleton _ _ _ |>.1 hmem
      exact absurd hsame (by decide)
    · exact hnone hfound
  have hiff := @truthful_of_comes _ _ plainServer_documented readyHost
    (some (oneSubsystem "nqn.2016-06.io.spdk:cnode10")) _ rfl
  rcases startSpdkTgt_cases plainServer_documented readyHost
    (some (oneSubsystem "nqn.2016-06.io.spdk:cnode10")) with ⟨m, _, hout, _, _, _, hsaid⟩ |
    ⟨_, _, _, hfails, _⟩
  · refine ⟨m, hout, hsaid, ?_⟩
    rw [hout] at hiff
    exact fun htrue => hunusable (hiff.1 htrue readyHost_passes)
  · exact absurd ⟨readyHost_passes, rfl⟩ hfails

theorem usable_emptyTarget : plainServer.Usable emptyTarget := by
  constructor
  · right
    rintro ⟨line, hline, _⟩
    have hempty : plainServer.listing emptyTarget = [] := by
      simp [plainServer, emptyTarget]
    rw [hempty] at hline
    cases hline
  · right
    rw [Target.claimed_iff]
    rintro ⟨nqn, sub, hsub, _⟩
    have hnone : emptyTarget.subsystems.lookup nqn = none := Finmap.lookup_empty nqn
    cases hnone.symm.trans hsub

/-- With whatever target it finds or starts: the ready line is true exactly when the script did not
get to it or could do its work. -/
theorem launched_ready_iff {σ : Type*} (srv : Server σ) (hsrv : srv.Documented) (host : Host σ)
    (target : Option σ) :
    Truthful srv (startSpdkTgt srv host { target := target, said := [] }).state ↔
      (host.Passes → ∀ s, target.or host.boot = some s → srv.Usable s) := by
  cases hcomes : target.or host.boot with
  | none =>
      -- A script without a target does not get to the line.
      rcases startSpdkTgt_cases hsrv host target with ⟨_, _, _, _, hs, _, _⟩ |
        ⟨status, m, hout, _, hquiet⟩
      · cases hcomes.symm.trans hs
      · rw [hout]
        exact iff_of_true (fun hsaid => absurd hsaid hquiet) (fun _ _ hs => nomatch hs)
  | some s =>
      rw [truthful_of_comes hsrv hcomes]
      simp

theorem launched_ready_iff_booting :
    Truthful plainServer
      (startSpdkTgt plainServer bootingHost { target := none, said := [] }).state := by
  refine (launched_ready_iff plainServer plainServer_documented bootingHost none).2 ?_
  rintro - t ⟨⟩
  exact usable_emptyTarget

end Spdk
end HelloEbpf
