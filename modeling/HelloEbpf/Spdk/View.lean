import HelloEbpf.Ladder
import HelloEbpf.Spdk.Configure
import HelloEbpf.Spdk.StartTarget

/-!
# View — what the script makes of a target

Of a target's state the script sees the configuration, through the exit status of its calls, and
whether `grep` finds the subsystem in a list that may show more than the configuration.  A `View` is
these two.  `Server.Documented.view_exec` says that the calls of the script act on views: `grep` finds
the subsystem from the moment it is there, and what it found before it goes on finding.

The five things the script sees to are the steps of a `Ladder`: none of them undoes an earlier one, and
each of them leaves a view alone in which it has been done.  `View.configured` is the fifth rung, and it
serves what the summary names exactly if the view was `Usable` (`serves_configured_iff`).
-/

namespace HelloEbpf
namespace Spdk

/-! ## Views -/

/-- A configuration, and whether `grep` finds the subsystem, as it does where there is one. -/
@[ext] structure View where
  config : Target
  found : Bool
  shown : subsysNqn ∈ config.subsystems → found = true

namespace View

variable {v : View} {call : Rpc}

/-- The view after a call, whether it succeeds or not. -/
def attempt (v : View) (call : Rpc) : View where
  config := v.config.attempt call
  found := v.found || decide (subsysNqn ∈ (v.config.attempt call).subsystems)
  shown := by
    intro hmem
    simp [hmem]

/-- The subsystem is created if `grep` finds no line. -/
def ensureSubsystem (v : View) : View :=
  if v.found then v else v.attempt cnode1

/-- What the script leaves. -/
def configured (v : View) : View :=
  ((((v.attempt malloc0).ensureSubsystem).attempt namespace1).attempt tcpTransport).attempt listener1

/-- A view from which the script can do its work: `grep` does not take another line for the subsystem,
and no other subsystem has the block device. -/
structure Usable (v : View) : Prop where
  subsystem : subsysNqn ∈ v.config.subsystems ∨ v.found = false
  bdev : v.config.HasNamespace subsysNqn "Malloc0" ∨ ¬ v.config.Claimed "Malloc0"

theorem found_attempt_iff : (v.attempt call).found = true ↔
    v.found = true ∨ subsysNqn ∈ (v.config.attempt call).subsystems := by
  simp [attempt]

theorem found_attempt (h : v.found = true) : (v.attempt call).found = true :=
  found_attempt_iff.2 (Or.inl h)

/-- A call that leaves the subsystems alone. -/
theorem found_attempt_congr (h : (v.config.attempt call).subsystems = v.config.subsystems) :
    (v.attempt call).found = v.found := by
  rw [Bool.eq_iff_iff, found_attempt_iff, h, or_iff_left_iff_imp]
  exact v.shown

theorem attempt_eq_self (h : v.config.attempt call = v.config) : v.attempt call = v := by
  apply View.ext
  · exact h
  · exact found_attempt_congr (by rw [h])

theorem attempt_of_rejects (h : ¬ v.config.Accepts call) : v.attempt call = v :=
  attempt_eq_self (Target.attempt_of_rejects h)

theorem accepts_cnode1 (h : v.found = false) : v.config.Accepts cnode1 := by
  intro hmem
  rw [v.shown hmem] at h
  cases h

/-! ### The subsystem -/

theorem ensureSubsystem_of_found (h : v.found = true) : v.ensureSubsystem = v :=
  if_pos h

theorem ensureSubsystem_of_not_found (h : v.found = false) :
    v.ensureSubsystem = v.attempt cnode1 := by
  rw [ensureSubsystem, h]
  rfl

theorem config_ensureSubsystem_of_not_found (h : v.found = false) :
    v.ensureSubsystem.config = v.config.effect cnode1 := by
  rw [ensureSubsystem_of_not_found h]
  exact Target.attempt_of_accepts (accepts_cnode1 h)

theorem bdevs_ensureSubsystem : v.ensureSubsystem.config.bdevs = v.config.bdevs := by
  cases h : v.found with
  | true => rw [ensureSubsystem_of_found h]
  | false =>
      rw [config_ensureSubsystem_of_not_found h]
      rfl

theorem mem_ensureSubsystem :
    subsysNqn ∈ v.ensureSubsystem.config.subsystems ↔
      subsysNqn ∈ v.config.subsystems ∨ v.found = false := by
  cases h : v.found with
  | true =>
      -- `grep` was content, so only a subsystem of this very name counts.
      rw [ensureSubsystem_of_found h]
      simp
  | false =>
      have hcreated : subsysNqn ∈ (v.config.effect cnode1).subsystems :=
        Target.mem_subsystems_createSubsystem.2 (Or.inl rfl)
      rw [config_ensureSubsystem_of_not_found h]
      simp [hcreated]

theorem hasNamespace_ensureSubsystem {nqn bdevName : String} :
    v.ensureSubsystem.config.HasNamespace nqn bdevName ↔ v.config.HasNamespace nqn bdevName := by
  cases h : v.found with
  | true => rw [ensureSubsystem_of_found h]
  | false =>
      rw [config_ensureSubsystem_of_not_found h]
      exact Target.hasNamespace_createSubsystem (accepts_cnode1 h)

theorem found_ensureSubsystem : v.ensureSubsystem.found = true := by
  cases h : v.found with
  | true => rwa [ensureSubsystem_of_found h]
  | false => exact v.ensureSubsystem.shown (mem_ensureSubsystem.2 (Or.inr h))

end View

/-! ## What the summary announces -/

/-- The subsystem, its namespace and its listener as the summary names them. -/
def Target.Serves (t : Target) : Prop :=
  ∃ sub, t.subsystems.lookup subsysNqn = some sub ∧ "Malloc0" ∈ sub.namespaces ∧
    tcpListener ∈ sub.listeners

theorem Target.serves_iff {t : Target} :
    t.Serves ↔ t.HasNamespace subsysNqn "Malloc0" ∧ t.Listens subsysNqn tcpListener := by
  constructor
  · rintro ⟨sub, hsub, hns, hlistener⟩
    exact ⟨⟨sub, hsub, hns⟩, ⟨sub, hsub, hlistener⟩⟩
  · rintro ⟨⟨sub, hsub, hns⟩, ⟨sub', hsub', hlistener⟩⟩
    cases hsub.symm.trans hsub'
    exact ⟨sub, hsub, hns, hlistener⟩

namespace View

variable {v : View}

/-- The namespace is there at the end if it was there or could be added. -/
theorem hasNamespace_configured :
    v.configured.config.HasNamespace subsysNqn "Malloc0" ↔ v.Usable := by
  have hsubsystems : (v.attempt malloc0).config.subsystems = v.config.subsystems :=
    Target.subsystems_attempt_mallocCreate
  have hfound : (v.attempt malloc0).found = v.found := found_attempt_congr hsubsystems
  have hbdev : "Malloc0" ∈ (v.attempt malloc0).ensureSubsystem.config.bdevs := by
    rw [bdevs_ensureSubsystem]
    exact Target.mem_bdevs_attempt_mallocCreate
  have hns : ∀ nqn, (v.attempt malloc0).ensureSubsystem.config.HasNamespace nqn "Malloc0" ↔
      v.config.HasNamespace nqn "Malloc0" := by
    intro nqn
    rw [hasNamespace_ensureSubsystem]
    exact Target.HasNamespace.congr hsubsystems
  calc
    v.configured.config.HasNamespace subsysNqn "Malloc0"
        ↔ ((v.attempt malloc0).ensureSubsystem.config.attempt namespace1).HasNamespace
            subsysNqn "Malloc0" := by
          exact Target.hasNamespace_attempt_addListener.trans
            (Target.HasNamespace.congr Target.subsystems_attempt_createTransport)
    _ ↔ subsysNqn ∈ (v.attempt malloc0).ensureSubsystem.config.subsystems ∧
          ((v.attempt malloc0).ensureSubsystem.config.HasNamespace subsysNqn "Malloc0" ∨
            ¬ (v.attempt malloc0).ensureSubsystem.config.Claimed "Malloc0") :=
          Target.hasNamespace_attempt_addNs hbdev
    _ ↔ (subsysNqn ∈ v.config.subsystems ∨ v.found = false) ∧
          (v.config.HasNamespace subsysNqn "Malloc0" ∨ ¬ v.config.Claimed "Malloc0") := by
          rw [mem_ensureSubsystem, hsubsystems, hfound]
          simp only [Target.claimed_iff, hns]
    _ ↔ v.Usable := ⟨fun h => ⟨h.1, h.2⟩, fun h => ⟨h.subsystem, h.bdev⟩⟩

/-- A subsystem that has its namespace gets its listener. -/
theorem listens_configured (h : v.configured.config.HasNamespace subsysNqn "Malloc0") :
    v.configured.config.Listens subsysNqn tcpListener := by
  have hmem := (Target.hasNamespace_attempt_addListener.1 h).mem
  exact Target.listens_attempt_addListener hmem Target.mem_transports_attempt_createTransport

theorem serves_configured_iff : v.configured.config.Serves ↔ v.Usable := by
  rw [Target.serves_iff, ← hasNamespace_configured]
  exact ⟨fun h => h.1, fun h => ⟨h, listens_configured h⟩⟩

/-! ## The steps -/

/-- What the script does, step by step. -/
def stage : Nat → View → View
  | 0 => fun v => v.attempt malloc0
  | 1 => ensureSubsystem
  | 2 => fun v => v.attempt namespace1
  | 3 => fun v => v.attempt tcpTransport
  | 4 => fun v => v.attempt listener1
  | _ => id

/-- The script would find that the step has been done. -/
def StageDone : Nat → View → Prop
  | 0 => fun v => "Malloc0" ∈ v.config.bdevs
  | 1 => fun v => v.found = true
  | 2 => fun v => ¬ v.config.Accepts namespace1
  | 3 => fun v => .tcp ∈ v.config.transports
  | 4 => fun v => ¬ v.config.Accepts listener1
  | _ => fun _ => True

/-- What the success of `namespace1` depends on. -/
theorem accepts_namespace1_congr {t t' : Target}
    (hmem : subsysNqn ∈ t'.subsystems ↔ subsysNqn ∈ t.subsystems) (hbdevs : t'.bdevs = t.bdevs)
    (hns : ∀ nqn, t'.HasNamespace nqn "Malloc0" ↔ t.HasNamespace nqn "Malloc0") :
    t'.Accepts namespace1 ↔ t.Accepts namespace1 := by
  simp only [namespace1, Target.Accepts, Target.claimed_iff, hmem, hbdevs, hns]

theorem stageDone_stage (k : Nat) (v : View) : StageDone k (stage k v) := by
  match k with
  | 0 => exact Target.mem_bdevs_attempt_mallocCreate
  | 1 => exact found_ensureSubsystem
  | 2 => exact Target.rejects_attempt trivial
  | 3 => exact Target.mem_transports_attempt_createTransport
  | 4 => exact Target.rejects_attempt trivial
  | _ + 5 => exact trivial

theorem stage_of_done (k : Nat) (v : View) (h : StageDone k v) : stage k v = v := by
  match k with
  | 0 => exact attempt_of_rejects fun hnew => hnew h
  | 1 => exact ensureSubsystem_of_found h
  | 2 => exact attempt_of_rejects h
  | 3 => exact attempt_of_rejects fun hnew => hnew h
  | 4 => exact attempt_of_rejects h
  | _ + 5 => rfl

theorem mem_bdevs_stage (k : Nat) (h : "Malloc0" ∈ v.config.bdevs) :
    "Malloc0" ∈ (stage k v).config.bdevs := by
  match k with
  | 0 => exact Target.mem_bdevs_attempt _ h
  | 1 =>
      rw [stage, bdevs_ensureSubsystem]
      exact h
  | 2 => exact Target.mem_bdevs_attempt _ h
  | 3 => exact Target.mem_bdevs_attempt _ h
  | 4 => exact Target.mem_bdevs_attempt _ h
  | _ + 5 => exact h

theorem mem_subsystems_stage (k : Nat) (h : subsysNqn ∈ v.config.subsystems) :
    subsysNqn ∈ (stage k v).config.subsystems := by
  match k with
  | 0 => exact Target.mem_subsystems_attempt _ h
  | 1 => exact mem_ensureSubsystem.2 (Or.inl h)
  | 2 => exact Target.mem_subsystems_attempt _ h
  | 3 => exact Target.mem_subsystems_attempt _ h
  | 4 => exact Target.mem_subsystems_attempt _ h
  | _ + 5 => exact h

/-- No step is undone by a later one. -/
theorem stageDone_keep (k m : Nat) (v : View) (hlt : k < m) (h : StageDone k v) :
    StageDone k (stage m v) := by
  match k, m with
  | 0, m => exact mem_bdevs_stage m h
  | 1, 2 => exact found_attempt h
  | 1, 3 => exact found_attempt h
  | 1, 4 => exact found_attempt h
  | 2, 3 =>
      -- The namespace could not be added before; the transport changes nothing that this depends on.
      intro haccepts
      have hsubsystems : (v.config.attempt tcpTransport).subsystems = v.config.subsystems :=
        Target.subsystems_attempt_createTransport
      have hbdevs : (v.config.attempt tcpTransport).bdevs = v.config.bdevs :=
        Target.bdevs_attempt_createTransport
      refine h ((accepts_namespace1_congr ?_ hbdevs ?_).1 haccepts)
      · rw [hsubsystems]
      · intro nqn
        exact Target.HasNamespace.congr hsubsystems
  | 2, 4 =>
      -- The listener changes a subsystem, but neither its name nor its namespaces.
      intro haccepts
      refine h ((accepts_namespace1_congr Target.mem_subsystems_attempt_addListener
        Target.bdevs_attempt_addListener ?_).1 haccepts)
      intro nqn
      exact Target.hasNamespace_attempt_addListener
  | 3, 4 =>
      show Trtype.tcp ∈ (v.config.attempt listener1).transports
      rw [listener1, Target.transports_attempt_addListener]
      exact h
  | _, _ + 5 => exact h
  | k + 1, 0 => exact absurd hlt (Nat.not_lt_zero _)
  | k + 1, 1 => omega
  | k + 2, 2 => omega
  | k + 3, 3 => omega
  | k + 4, 4 => omega

/-- The steps as a ladder. -/
def ladder : Ladder View where
  step := stage
  Done := StageDone
  done_step := stageDone_stage
  done_keep := stageDone_keep
  step_of_done := stage_of_done

/-- From the fifth rung on nothing changes. -/
theorem rung_add_five (v : View) (n : Nat) : ladder.rung v (n + 5) = v.configured := by
  induction n with
  | zero => rfl
  | succ n ih => exact ih

/-- A subsystem that the script created is there from then on. -/
theorem mem_subsystems_rung {j : Nat} (hj : 2 ≤ j) (hnew : ¬ StageDone 1 (ladder.rung v 1)) :
    subsysNqn ∈ (ladder.rung v j).config.subsystems := by
  induction hj with
  | refl => exact mem_ensureSubsystem.2 (Or.inr (Bool.eq_false_iff.2 hnew))
  | step hle ih => exact mem_subsystems_stage _ ih

/-- What has been configured stays as it is. -/
theorem configured_configured (v : View) : v.configured.configured = v.configured :=
  Ladder.rung_rung (w := ladder) (Nat.le_refl 5)

end View

/-! ## The view of a server -/

section Server

variable {σ : Type*} {srv : Server σ} {s : σ} {call : Rpc}

/-- `grep` takes some line of the list for the NQN. -/
def Server.Found (srv : Server σ) (s : σ) : Prop :=
  ∃ line ∈ srv.listing s, subsysPattern.Matches line

/-- The script can do its work: `grep` does not take another line for the subsystem, and no other
subsystem has the block device. -/
structure Server.Usable (srv : Server σ) (s : σ) : Prop where
  subsystem : subsysNqn ∈ (srv.config s).subsystems ∨ ¬ srv.Found s
  bdev : (srv.config s).HasNamespace subsysNqn "Malloc0" ∨ ¬ (srv.config s).Claimed "Malloc0"

theorem Server.grepQ_iff : Bre.grepQ subsysPattern (srv.listing s) = 0 ↔ srv.Found s :=
  Bre.grepQ_eq_zero_iff

/-- `grep` finds the subsystem if it is there. -/
theorem Server.Documented.found_of_mem (hsrv : srv.Documented)
    (h : subsysNqn ∈ (srv.config s).subsystems) : srv.Found s := by
  rcases hsrv.listing_nqn s subsysNqn h with ⟨line, hline, hinfix⟩
  exact ⟨line, hline, Bre.Pattern.matches_of_infix hinfix⟩

/-- What the script makes of a state. -/
def Server.Documented.view (hsrv : srv.Documented) (s : σ) : View where
  config := srv.config s
  found := decide (Bre.grepQ subsysPattern (srv.listing s) = 0)
  shown := by
    intro hmem
    exact decide_eq_true (Server.grepQ_iff.2 (hsrv.found_of_mem hmem))

variable (hsrv : srv.Documented)

theorem found_view : (hsrv.view s).found = true ↔ srv.Found s :=
  decide_eq_true_iff.trans Server.grepQ_iff

variable {hsrv} in
theorem config_of_view {v : View} {target : Option σ} (h : target.map hsrv.view = some v) :
    target.map srv.config = some v.config := by
  have hconfig := congrArg (Option.map View.config) h
  rwa [Option.map_map] at hconfig

theorem usable_view : (hsrv.view s).Usable ↔ srv.Usable s := by
  have hnot : (hsrv.view s).found = false ↔ ¬ srv.Found s := by
    rw [← found_view hsrv, Bool.not_eq_true]
  constructor
  · rintro ⟨hsubsystem, hbdev⟩
    exact ⟨hsubsystem.imp_right hnot.1, hbdev⟩
  · rintro ⟨hsubsystem, hbdev⟩
    exact ⟨hsubsystem.imp_right hnot.2, hbdev⟩

/-- Where the call succeeds it leaves the subsystems alone, or the script's own is one of them. -/
def Rpc.Own (call : Rpc) : Prop :=
  ∀ t : Target, t.Accepts call → (t.effect call).subsystems = t.subsystems ∨
    subsysNqn ∈ (t.effect call).subsystems

/-- A call that only asks or makes something else. -/
theorem Rpc.own_of_subsystems (h : ∀ t : Target, (t.effect call).subsystems = t.subsystems) :
    call.Own :=
  fun t _ => Or.inl (h t)

theorem own_cnode1 : cnode1.Own :=
  fun _ _ => Or.inr (Target.mem_subsystems_createSubsystem.2 (Or.inl rfl))

theorem own_namespace1 : namespace1.Own :=
  fun _ haccepts => Or.inr (Target.mem_subsystems_effect _ haccepts.1)

theorem own_listener1 : listener1.Own := by
  rintro t ⟨⟨sub, hsub, _⟩, _⟩
  exact Or.inr (Target.mem_subsystems_effect _ (Finmap.mem_of_lookup_eq_some hsub))

theorem config_exec (hsrv : srv.Documented) (call : Rpc) (s : σ) :
    srv.config (srv.exec call s).state = (srv.config s).attempt call := by
  by_cases haccepts : (srv.config s).Accepts call
  · rw [Target.attempt_of_accepts haccepts]
    exact (hsrv.success s call haccepts).2
  · rw [Target.attempt_of_rejects haccepts]
    exact (hsrv.failure s call haccepts).2

theorem status_exec (hsrv : srv.Documented) (call : Rpc) (s : σ) :
    (srv.exec call s).status = 0 ↔ (srv.config s).Accepts call := by
  by_cases haccepts : (srv.config s).Accepts call
  · exact iff_of_true (hsrv.success s call haccepts).1 haccepts
  · exact iff_of_false (hsrv.failure s call haccepts).1 haccepts

/-- The calls of the script act on views. -/
theorem Server.Documented.view_exec (hsrv : srv.Documented) (hown : call.Own) (s : σ) :
    hsrv.view (srv.exec call s).state = (hsrv.view s).attempt call := by
  have hconfig := config_exec hsrv call s
  apply View.ext
  · exact hconfig
  have hfound : srv.Found (srv.exec call s).state ↔
      srv.Found s ∨ subsysNqn ∈ ((srv.config s).attempt call).subsystems := by
    have hcases : ((srv.config s).attempt call).subsystems = (srv.config s).subsystems ∨
        subsysNqn ∈ ((srv.config s).attempt call).subsystems := by
      by_cases haccepts : (srv.config s).Accepts call
      · rw [Target.attempt_of_accepts haccepts]
        exact hown _ haccepts
      · rw [Target.attempt_of_rejects haccepts]
        exact Or.inl rfl
    rcases hcases with hsame | hmem
    · -- The subsystems are as before, and so is the list.
      have hlisting : srv.listing (srv.exec call s).state = srv.listing s :=
        hsrv.listing_exec s call (by rw [hconfig, hsame])
      rw [hsame, Server.Found, Server.Found, hlisting]
      exact ⟨Or.inl, fun h => h.elim id hsrv.found_of_mem⟩
    · rw [← hconfig] at hmem ⊢
      exact iff_of_true (hsrv.found_of_mem hmem) (Or.inr hmem)
  rw [Bool.eq_iff_iff, found_view, hfound, View.found_attempt_iff, found_view]
  exact Iff.rfl

end Server

end Spdk
end HelloEbpf
