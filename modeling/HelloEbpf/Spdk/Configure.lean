import HelloEbpf.Spdk.Target

/-!
# Configure — what the RPCs do to namespaces and listeners

Two facts about a configuration decide whether a host can use a block device behind a subsystem:
`Target.HasNamespace` and `Target.Listens`.  For each call there is one lemma about the fact it is
meant to bring about, which says of an attempt, successful or not, when the fact holds behind it, and
lemmas for the facts it does not touch.
-/

namespace HelloEbpf
namespace Spdk
namespace Target

variable {t : Target} {nqn q bdevName : String} {listener : Listener}

/-- The block device is a namespace of the subsystem. -/
def HasNamespace (t : Target) (nqn bdevName : String) : Prop :=
  ∃ sub ∈ t.subsystems.lookup nqn, bdevName ∈ sub.namespaces

/-- The subsystem listens at the address. -/
def Listens (t : Target) (nqn : String) (listener : Listener) : Prop :=
  ∃ sub ∈ t.subsystems.lookup nqn, listener ∈ sub.listeners

theorem claimed_iff : t.Claimed bdevName ↔ ∃ nqn, t.HasNamespace nqn bdevName := by
  constructor
  · rintro ⟨nqn, _, hsub⟩
    exact ⟨nqn, hsub⟩
  · rintro ⟨nqn, sub, hsub, hns⟩
    refine ⟨nqn, ?_, sub, hsub, hns⟩
    exact Finmap.mem_keys.2 (Finmap.mem_of_lookup_eq_some hsub)

theorem HasNamespace.mem (h : t.HasNamespace nqn bdevName) : nqn ∈ t.subsystems := by
  rcases h with ⟨sub, hsub, _⟩
  exact Finmap.mem_of_lookup_eq_some hsub

/-- Only the subsystems matter to the two facts. -/
theorem HasNamespace.congr {t' : Target} (h : t'.subsystems = t.subsystems) :
    t'.HasNamespace nqn bdevName ↔ t.HasNamespace nqn bdevName := by
  rw [HasNamespace, HasNamespace, h]

/-! ## Changing one subsystem -/

section ModifySubsystem

variable {f : Subsystem → Subsystem}

theorem lookup_modifySubsystem_self :
    (t.modifySubsystem nqn f).subsystems.lookup nqn = (t.subsystems.lookup nqn).map f := by
  rw [modifySubsystem]
  cases h : t.subsystems.lookup nqn with
  | none => simpa using h
  | some sub => simp

theorem lookup_modifySubsystem_of_ne (h : q ≠ nqn) :
    (t.modifySubsystem nqn f).subsystems.lookup q = t.subsystems.lookup q := by
  rw [modifySubsystem]
  cases t.subsystems.lookup nqn with
  | none => rfl
  | some sub => exact Finmap.lookup_insert_of_ne _ h

/-- A change that leaves the namespaces alone changes no namespace. -/
theorem hasNamespace_modifySubsystem (hf : ∀ sub, (f sub).namespaces = sub.namespaces) :
    (t.modifySubsystem nqn f).HasNamespace q bdevName ↔ t.HasNamespace q bdevName := by
  by_cases hq : q = nqn
  · subst hq
    simp [HasNamespace, lookup_modifySubsystem_self, hf]
  · simp only [HasNamespace, lookup_modifySubsystem_of_ne hq]

end ModifySubsystem

/-! ## The calls -/

theorem attempt_getBdevs : t.attempt (.bdevGetBdevs bdevName) = t := by
  rw [attempt]
  split <;> rfl

theorem attempt_getSubsystems : t.attempt .nvmfGetSubsystems = t := by
  rw [attempt]
  split <;> rfl

theorem subsystems_attempt_mallocCreate {bdev : Bdev} :
    (t.attempt (.bdevMallocCreate bdevName bdev)).subsystems = t.subsystems := by
  rw [attempt]
  split <;> rfl

theorem mem_bdevs_attempt_mallocCreate {bdev : Bdev} :
    bdevName ∈ (t.attempt (.bdevMallocCreate bdevName bdev)).bdevs := by
  by_cases h : bdevName ∈ t.bdevs
  · have hrejects : ¬ t.Accepts (.bdevMallocCreate bdevName bdev) := fun hnew => hnew h
    rw [attempt_of_rejects hrejects]
    exact h
  · have haccepts : t.Accepts (.bdevMallocCreate bdevName bdev) := h
    rw [attempt_of_accepts haccepts]
    exact (Finmap.mem_insert).2 (Or.inl rfl)

theorem mem_subsystems_createSubsystem {allowAnyHost : Bool} {serialNumber modelNumber : String} :
    q ∈ (t.effect (.nvmfCreateSubsystem nqn allowAnyHost serialNumber modelNumber)).subsystems ↔
      q = nqn ∨ q ∈ t.subsystems :=
  Finmap.mem_insert

/-- A new subsystem has no namespaces. -/
theorem hasNamespace_createSubsystem {allowAnyHost : Bool} {serialNumber modelNumber : String}
    (hnew : nqn ∉ t.subsystems) :
    (t.effect (.nvmfCreateSubsystem nqn allowAnyHost serialNumber modelNumber)).HasNamespace
        q bdevName ↔ t.HasNamespace q bdevName := by
  by_cases hq : q = nqn
  · subst hq
    -- Neither before nor after the call is there a namespace behind this name.
    have hnone : t.subsystems.lookup q = none := Finmap.lookup_eq_none.2 hnew
    simp [HasNamespace, effect, hnone]
  · simp [HasNamespace, effect, Finmap.lookup_insert_of_ne _ hq]

/-- A block device becomes a namespace of the subsystem unless another one has it. -/
theorem hasNamespace_attempt_addNs (hbdev : bdevName ∈ t.bdevs) :
    (t.attempt (.nvmfSubsystemAddNs nqn bdevName)).HasNamespace nqn bdevName ↔
      nqn ∈ t.subsystems ∧ (t.HasNamespace nqn bdevName ∨ ¬ t.Claimed bdevName) := by
  by_cases haccepts : t.Accepts (.nvmfSubsystemAddNs nqn bdevName)
  · rw [attempt_of_accepts haccepts]
    rcases haccepts with ⟨hmem, _, hfree⟩
    constructor
    · intro _
      exact ⟨hmem, Or.inr hfree⟩
    · intro _
      rcases Finmap.mem_iff.1 hmem with ⟨sub, hsub⟩
      refine ⟨{ sub with namespaces := insert bdevName sub.namespaces }, ?_, ?_⟩
      · rw [effect, lookup_modifySubsystem_self, hsub]
        rfl
      · exact Finset.mem_insert_self _ _
  · -- The failed call leaves the namespace there if it was.
    rw [attempt_of_rejects haccepts]
    constructor
    · intro h
      exact ⟨h.mem, Or.inl h⟩
    · rintro ⟨hmem, h | hfree⟩
      · exact h
      · exact absurd ⟨hmem, hbdev, hfree⟩ haccepts

theorem subsystems_attempt_createTransport {trtype : Trtype} {transport : Transport} :
    (t.attempt (.nvmfCreateTransport trtype transport)).subsystems = t.subsystems := by
  rw [attempt]
  split <;> rfl

theorem mem_transports_attempt_createTransport {trtype : Trtype} {transport : Transport} :
    trtype ∈ (t.attempt (.nvmfCreateTransport trtype transport)).transports := by
  by_cases h : trtype ∈ t.transports
  · have hrejects : ¬ t.Accepts (.nvmfCreateTransport trtype transport) := fun hnew => hnew h
    rw [attempt_of_rejects hrejects]
    exact h
  · have haccepts : t.Accepts (.nvmfCreateTransport trtype transport) := h
    rw [attempt_of_accepts haccepts]
    exact (Finmap.mem_insert).2 (Or.inl rfl)

theorem hasNamespace_attempt_addListener :
    (t.attempt (.nvmfSubsystemAddListener nqn listener)).HasNamespace q bdevName ↔
      t.HasNamespace q bdevName := by
  by_cases haccepts : t.Accepts (.nvmfSubsystemAddListener nqn listener)
  · rw [attempt_of_accepts haccepts, effect]
    exact hasNamespace_modifySubsystem (fun _ => rfl)
  · rw [attempt_of_rejects haccepts]

/-- With the transport there, an attempt leaves the subsystem listening: it fails for a listener that
exists already. -/
theorem listens_attempt_addListener (hmem : nqn ∈ t.subsystems)
    (htransport : listener.trtype ∈ t.transports) :
    (t.attempt (.nvmfSubsystemAddListener nqn listener)).Listens nqn listener := by
  rcases Finmap.mem_iff.1 hmem with ⟨sub, hsub⟩
  by_cases hlistener : listener ∈ sub.listeners
  · -- The listener is there already, which is why the call fails.
    have hrejects : ¬ t.Accepts (.nvmfSubsystemAddListener nqn listener) := by
      rintro ⟨⟨sub', hsub', hnew⟩, _⟩
      cases hsub.symm.trans hsub'
      exact hnew hlistener
    rw [attempt_of_rejects hrejects]
    exact ⟨sub, hsub, hlistener⟩
  · have haccepts : t.Accepts (.nvmfSubsystemAddListener nqn listener) :=
      ⟨⟨sub, hsub, hlistener⟩, htransport⟩
    rw [attempt_of_accepts haccepts]
    refine ⟨{ sub with listeners := insert listener sub.listeners }, ?_, ?_⟩
    · rw [effect, lookup_modifySubsystem_self, hsub]
      rfl
    · exact Finset.mem_insert_self _ _

/-! ## What no call undoes -/

theorem bdevs_modifySubsystem {f : Subsystem → Subsystem} :
    (t.modifySubsystem nqn f).bdevs = t.bdevs := by
  rw [modifySubsystem]
  split <;> rfl

theorem transports_modifySubsystem {f : Subsystem → Subsystem} :
    (t.modifySubsystem nqn f).transports = t.transports := by
  rw [modifySubsystem]
  split <;> rfl

theorem mem_subsystems_modifySubsystem {f : Subsystem → Subsystem} :
    q ∈ (t.modifySubsystem nqn f).subsystems ↔ q ∈ t.subsystems := by
  rw [← not_iff_not, ← Finmap.lookup_eq_none, ← Finmap.lookup_eq_none]
  by_cases hq : q = nqn
  · subst hq
    rw [lookup_modifySubsystem_self, Option.map_eq_none_iff]
  · rw [lookup_modifySubsystem_of_ne hq]

/-- Block devices and subsystems are never removed. -/
theorem mem_bdevs_effect (call : Rpc) (h : bdevName ∈ t.bdevs) : bdevName ∈ (t.effect call).bdevs := by
  cases call with
  | bdevMallocCreate name bdev => exact Finmap.mem_insert.2 (Or.inr h)
  | nvmfSubsystemAddNs q name => rwa [effect, bdevs_modifySubsystem]
  | nvmfSubsystemAddListener q listener => rwa [effect, bdevs_modifySubsystem]
  | _ => exact h

theorem mem_subsystems_effect (call : Rpc) (h : q ∈ t.subsystems) :
    q ∈ (t.effect call).subsystems := by
  cases call with
  | nvmfCreateSubsystem name allow serial model => exact Finmap.mem_insert.2 (Or.inr h)
  | nvmfSubsystemAddNs name bdev => exact mem_subsystems_modifySubsystem.2 h
  | nvmfSubsystemAddListener name listener => exact mem_subsystems_modifySubsystem.2 h
  | _ => exact h

theorem mem_bdevs_attempt (call : Rpc) (h : bdevName ∈ t.bdevs) :
    bdevName ∈ (t.attempt call).bdevs := by
  rw [attempt]
  split
  · exact mem_bdevs_effect call h
  · exact h

theorem mem_subsystems_attempt (call : Rpc) (h : q ∈ t.subsystems) :
    q ∈ (t.attempt call).subsystems := by
  rw [attempt]
  split
  · exact mem_subsystems_effect call h
  · exact h

theorem bdevs_attempt_createTransport {trtype : Trtype} {transport : Transport} :
    (t.attempt (.nvmfCreateTransport trtype transport)).bdevs = t.bdevs := by
  rw [attempt]
  split <;> rfl

theorem bdevs_attempt_addListener :
    (t.attempt (.nvmfSubsystemAddListener nqn listener)).bdevs = t.bdevs := by
  rw [attempt]
  split
  · rw [effect, bdevs_modifySubsystem]
  · rfl

theorem transports_attempt_addListener :
    (t.attempt (.nvmfSubsystemAddListener nqn listener)).transports = t.transports := by
  rw [attempt]
  split
  · rw [effect, transports_modifySubsystem]
  · rfl

theorem mem_subsystems_attempt_addListener :
    q ∈ (t.attempt (.nvmfSubsystemAddListener nqn listener)).subsystems ↔ q ∈ t.subsystems := by
  rw [attempt]
  split
  · exact mem_subsystems_modifySubsystem
  · rfl

end Target

/-! ## Calls that make something -/

/-- The call makes something new, and fails if it is there already. -/
def Rpc.Creates : Rpc → Prop
  | .bdevGetBdevs _ => False
  | .nvmfGetSubsystems => False
  | _ => True

namespace Target

variable {t : Target}

/-- What has been made is not made a second time. -/
theorem rejects_effect {call : Rpc} (hcreates : call.Creates) (h : t.Accepts call) :
    ¬ (t.effect call).Accepts call := by
  cases call with
  | bdevGetBdevs name => exact hcreates.elim
  | bdevMallocCreate name bdev =>
      intro hnew
      exact hnew (Finmap.mem_insert.2 (Or.inl rfl))
  | nvmfGetSubsystems => exact hcreates.elim
  | nvmfCreateSubsystem nqn allow serial model =>
      intro hnew
      exact hnew (Finmap.mem_insert.2 (Or.inl rfl))
  | nvmfSubsystemAddNs nqn name =>
      -- The block device now belongs to this subsystem.
      have hns := (hasNamespace_attempt_addNs h.2.1).2 ⟨h.1, Or.inr h.2.2⟩
      rw [attempt_of_accepts h] at hns
      rintro ⟨_, _, hfree⟩
      exact hfree (claimed_iff.2 ⟨nqn, hns⟩)
  | nvmfCreateTransport trtype transport =>
      intro hnew
      exact hnew (Finmap.mem_insert.2 (Or.inl rfl))
  | nvmfSubsystemAddListener nqn listener =>
      rcases h with ⟨⟨sub, hsub, _⟩, _⟩
      rintro ⟨⟨sub', hsub', hnew⟩, _⟩
      rw [effect, lookup_modifySubsystem_self, hsub] at hsub'
      cases hsub'
      exact hnew (Finset.mem_insert_self _ _)

theorem rejects_attempt {call : Rpc} (hcreates : call.Creates) :
    ¬ (t.attempt call).Accepts call := by
  by_cases h : t.Accepts call
  · rw [attempt_of_accepts h]
    exact rejects_effect hcreates h
  · rwa [attempt_of_rejects h]

end Target
end Spdk
end HelloEbpf
