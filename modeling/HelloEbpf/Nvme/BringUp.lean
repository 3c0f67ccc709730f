import HelloEbpf.Nvme.ConnectHost
import HelloEbpf.Spdk.Ready

/-!
# BringUp — the two scripts, one after the other

`start_spdk_tgt.sh` leaves a target for `connect_host.sh` to connect to.  Whether the host then has
the device does not show in what the scripts say: both may get to their ends without it.
`has_device_iff` is the exact condition on the target that was there before.
-/

namespace HelloEbpf
namespace Nvme

open Shell Spdk

variable {σ τ : Type*} {srv : Server σ} {ini : Initiator σ τ} {t : Target} {v : View}
  {q hostNqn : String}

/-- The subsystem is there and lets the host in. -/
def Admits (t : Target) (q hostNqn : String) : Prop :=
  ∃ sub ∈ t.subsystems.lookup q, sub.Admits hostNqn

theorem offers_iff : Offers t hostNqn ↔ Admits t nqn hostNqn ∧ t.Listens nqn address := by
  constructor
  · rintro ⟨sub, hsub, hadmits, hlistener⟩
    exact ⟨⟨sub, hsub, hadmits⟩, ⟨sub, hsub, hlistener⟩⟩
  · rintro ⟨⟨sub, hsub, hadmits⟩, ⟨sub', hsub', hlistener⟩⟩
    have heq : sub = sub' := Option.some.inj (hsub.symm.trans hsub')
    subst heq
    exact ⟨sub, hsub, hadmits, hlistener⟩

theorem admits_congr {t' : Target} (h : t'.subsystems = t.subsystems) :
    Admits t' q hostNqn ↔ Admits t q hostNqn := by
  rw [Admits, Admits, h]

/-- A change that leaves the access alone changes no access. -/
theorem admits_modifySubsystem {p : String} {f : Subsystem → Subsystem}
    (hf : ∀ sub, (f sub).Admits hostNqn ↔ sub.Admits hostNqn) :
    Admits (t.modifySubsystem p f) q hostNqn ↔ Admits t q hostNqn := by
  by_cases hq : q = p
  · subst hq
    simp [Admits, Target.lookup_modifySubsystem_self, hf]
  · simp only [Admits, Target.lookup_modifySubsystem_of_ne hq]

theorem admits_attempt_addNs {p name : String} :
    Admits (t.attempt (.nvmfSubsystemAddNs p name)) q hostNqn ↔ Admits t q hostNqn := by
  rw [Target.attempt]
  split
  · exact admits_modifySubsystem fun _ => Iff.rfl
  · rfl

theorem admits_attempt_addListener {p : String} {listener : Listener} :
    Admits (t.attempt (.nvmfSubsystemAddListener p listener)) q hostNqn ↔ Admits t q hostNqn := by
  rw [Target.attempt]
  split
  · exact admits_modifySubsystem fun _ => Iff.rfl
  · rfl

/-- The script takes a subsystem as it is, and lets any host in where it creates it. -/
theorem admits_ensureSubsystem :
    Admits v.ensureSubsystem.config nqn hostNqn ↔
      (nqn ∈ v.config.subsystems ∨ v.found = false) ∧
        ∀ sub ∈ v.config.subsystems.lookup nqn, sub.Admits hostNqn := by
  cases hfound : v.found with
  | true =>
      rw [View.ensureSubsystem_of_found hfound]
      constructor
      · rintro ⟨sub, hsub, hadmits⟩
        refine ⟨.inl (Finmap.mem_of_lookup_eq_some hsub), fun sub' hsub' => ?_⟩
        have heq : sub = sub' := Option.some.inj (hsub.symm.trans hsub')
        rwa [← heq]
      · rintro ⟨hmem | hnone, hall⟩
        · obtain ⟨sub, hsub⟩ := Finmap.mem_iff.1 hmem
          exact ⟨sub, hsub, hall sub hsub⟩
        · cases hnone
  | false =>
      rw [View.config_ensureSubsystem_of_not_found hfound]
      have hnew : nqn ∉ v.config.subsystems := View.accepts_cnode1 hfound
      refine iff_of_true ⟨_, Finmap.lookup_insert _, .inl rfl⟩ ⟨.inr rfl, fun sub hsub => ?_⟩
      exact absurd (Finmap.mem_of_lookup_eq_some hsub) hnew

/-- A configuration that `start_spdk_tgt.sh` leaves is one that `connect_host.sh` can connect to. -/
theorem offers_configured_iff (hns : v.configured.config.HasNamespace nqn "Malloc0") :
    Offers v.configured.config hostNqn ↔
      ∀ sub ∈ v.config.subsystems.lookup nqn, sub.Admits hostNqn := by
  have husable : v.Usable := View.hasNamespace_configured.1 hns
  have hsubsystems : (v.attempt malloc0).config.subsystems = v.config.subsystems :=
    Target.subsystems_attempt_mallocCreate
  have hfound : (v.attempt malloc0).found = v.found := View.found_attempt_congr hsubsystems
  calc Offers v.configured.config hostNqn
      ↔ Admits v.configured.config nqn hostNqn := by
        rw [offers_iff]
        exact and_iff_left (View.listens_configured hns)
    _ ↔ Admits (v.attempt malloc0).ensureSubsystem.config nqn hostNqn := by
        exact admits_attempt_addListener.trans
          ((admits_congr Target.subsystems_attempt_createTransport).trans admits_attempt_addNs)
    _ ↔ (nqn ∈ v.config.subsystems ∨ v.found = false) ∧
          ∀ sub ∈ v.config.subsystems.lookup nqn, sub.Admits hostNqn := by
        rw [admits_ensureSubsystem, hsubsystems, hfound]
    _ ↔ ∀ sub ∈ v.config.subsystems.lookup nqn, sub.Admits hostNqn :=
        and_iff_right husable.subsystem

/-- The host has a controller for the subsystem and behind it the block device. -/
def HasDevice (ini : Initiator σ τ) (srv : Server σ) (f : Fabric σ τ) (q name : String) : Prop :=
  (∃ listener, (q, listener) ∈ ini.controllers f.host) ∧
    ∃ s, f.target = some s ∧ (srv.config s).HasNamespace q name

/-- The two scripts get to their ends, and the host has the device then, exactly when the host passes
what they check, has no connection yet, and the target that is found or started is usable and does
not keep this host out. -/
theorem has_device_iff (hsrv : srv.Documented) (hini : ini.Documented srv) (host : Host σ)
    (target : Option σ) (h : τ) :
    (∃ m f, startSpdkTgt srv host { target := target, said := [] } = .finished m ∧
        connectHost ini { target := m.target, host := h, said := [] } = .finished f ∧
        HasDevice ini srv f nqn "Malloc0") ↔
      host.Passes ∧ ini.Equipped ∧ (nqn, address) ∉ ini.controllers h ∧
        ∃ s, target.or host.boot = some s ∧ srv.Usable s ∧
          ∀ sub ∈ (srv.config s).subsystems.lookup nqn, sub.Admits ini.hostNqn := by
  constructor
  · rintro ⟨m, f, hstart, hconnect, _, s', hs', hns⟩
    rcases startSpdkTgt_cases hsrv host target with ⟨m', s, hout, hpasses, hs, hview, _⟩ |
      ⟨status, m', hout, _, _⟩
    · cases hout.symm.trans hstart
      have hconfig := config_of_view hview
      rcases connectHost_cases hini { target := m.target, host := h, said := [] } with
        ⟨f', hout', ⟨hequipped, ⟨t, ht, hoffers⟩, hnew⟩, hstands⟩ | ⟨status, f', hout', _⟩
      · cases hout'.symm.trans hconnect
        -- the configuration that is connected to is the one that the first script has left
        have hleft : srv.config s' = (hsrv.view s).configured.config := by
          have hkept := hstands.config
          rw [hs', hconfig] at hkept
          exact Option.some.inj hkept
        have ht' : t = (hsrv.view s).configured.config := Option.some.inj (ht.symm.trans hconfig)
        rw [hleft] at hns
        rw [ht'] at hoffers
        exact ⟨hpasses, hequipped, hnew, s, hs,
          (usable_view hsrv).1 (View.hasNamespace_configured.1 hns),
          (offers_configured_iff hns).1 hoffers⟩
      · cases hout'.symm.trans hconnect
    · cases hout.symm.trans hstart
  · rintro ⟨hpasses, hequipped, hnew, s, hs, husable, hadmits⟩
    rcases startSpdkTgt_cases hsrv host target with ⟨m, s', hout, _, hs', hview, _⟩ |
      ⟨status, m, _, hfails, _⟩
    · cases hs.symm.trans hs'
      have hconfig := config_of_view hview
      have hns := View.hasNamespace_configured.2 ((usable_view hsrv).2 husable)
      have hopen : Open ini (m.target.map srv.config) (ini.controllers h) :=
        ⟨⟨_, hconfig, (offers_configured_iff hns).2 hadmits⟩, hnew⟩
      rcases connectHost_cases hini { target := m.target, host := h, said := [] } with
        ⟨f, hout', _, hstands⟩ | ⟨status, f, _, hrefused⟩
      · refine ⟨m, f, hout, hout', ⟨address, ?_⟩, ?_⟩
        · rw [hstands.controllers]
          exact Finset.mem_insert_self _ _
        · obtain ⟨s'', hs'', hleft⟩ := Option.map_eq_some_iff.1 (hstands.config.trans hconfig)
          exact ⟨s'', hs'', by rwa [hleft]⟩
      · exact absurd ⟨hequipped, hopen⟩ hrefused.1
    · exact absurd ⟨hpasses, by rw [hs]; rfl⟩ hfails

/-- From nothing, on a host where everything is in place. -/
theorem has_device_iff_booting :
    ∃ m f, startSpdkTgt plainServer bootingHost { target := none, said := [] } = .finished m ∧
      connectHost plainInitiator { target := m.target, host := (∅, ∅), said := [] } = .finished f ∧
      HasDevice plainInitiator plainServer f nqn "Malloc0" := by
  refine (has_device_iff plainServer_documented plainInitiator_documented bootingHost none
    (∅, ∅)).2 ⟨⟨rfl, rfl⟩, ⟨trivial, trivial⟩, Finset.notMem_empty _, emptyTarget, rfl,
      usable_emptyTarget, ?_⟩
  rintro sub hsub
  simp [plainServer, emptyTarget] at hsub

end Nvme
end HelloEbpf
