import HelloEbpf.Spdk.View

/-!
# Outcome — what the script leaves

The script looks for its subsystem with `grep` and turns the failure of the last three RPCs into
messages, so it gets to its last line whatever became of them.  Each part of it has one triple, from a
target with one view to a target with the next one; `View.configured` is where they lead, and
`startSpdkTgt_spec` the triple of the whole.
-/

namespace HelloEbpf
namespace Spdk

open Shell Code

variable {σ : Type*} {srv : Server σ} {hsrv : srv.Documented} {host : Host σ} {v : View}
  {m : Machine σ} {call : Rpc} {text : String} {X : Machine σ → Prop}

/-! ## Commands on views -/

theorem rpc_view (hown : call.Own) (hv : m.target.map hsrv.view = some v) :
    ((rpc srv call m).1 = 0 ↔ v.config.Accepts call) ∧
      (rpc srv call m).2.target.map hsrv.view = some (v.attempt call) ∧
      (rpc srv call m).2.said = m.said := by
  rcases Option.map_eq_some_iff.1 hv with ⟨s, hs, rfl⟩
  simp only [rpc, hs]
  exact ⟨status_exec hsrv call s, congrArg some (hsrv.view_exec hown s), trivial⟩

theorem getBdevs_view (hv : m.target.map hsrv.view = some v) :
    ((rpc srv (.bdevGetBdevs "Malloc0") m).1 = 0 ↔ "Malloc0" ∈ v.config.bdevs) ∧
      (rpc srv (.bdevGetBdevs "Malloc0") m).2.target.map hsrv.view = some v ∧
      (rpc srv (.bdevGetBdevs "Malloc0") m).2.said = m.said := by
  have hown : (Rpc.bdevGetBdevs "Malloc0").Own := Rpc.own_of_subsystems fun _ => rfl
  rcases rpc_view hown hv with ⟨hstatus, hv', hsaid⟩
  rw [View.attempt_eq_self Target.attempt_getBdevs] at hv'
  exact ⟨hstatus, hv', hsaid⟩

theorem getSubsystems_view (hv : m.target.map hsrv.view = some v) :
    (Bre.grepQ subsysPattern (getSubsystems srv m).1 = 0 ↔ v.found = true) ∧
      (getSubsystems srv m).2.target.map hsrv.view = some v ∧
      (getSubsystems srv m).2.said = m.said := by
  rcases Option.map_eq_some_iff.1 hv with ⟨s, hs, rfl⟩
  have hown : Rpc.nvmfGetSubsystems.Own := Rpc.own_of_subsystems fun _ => rfl
  have hview := hsrv.view_exec hown s
  rw [View.attempt_eq_self Target.attempt_getSubsystems] at hview
  simp only [getSubsystems, hs]
  refine ⟨?_, congrArg some hview, trivial⟩
  rw [hsrv.stdout_getSubsystems s]
  exact decide_eq_true_iff.symm

/-! ## What has been said -/

theorem quiet_say (hm : readyLine ∉ m.said) (h : text ≠ readyLine) :
    readyLine ∉ (m.say text).said := by
  rw [Machine.say, List.mem_append, List.mem_singleton]
  rintro (hold | hnew)
  · exact hm hold
  · exact h hnew.symm

/-- A text that starts differently is another text. -/
theorem append_ne_readyLine {front : String} (rest : String)
    (h : ¬ front.toList <+: readyLine.toList) : front ++ rest ≠ readyLine := by
  intro heq
  refine h ⟨rest.toList, ?_⟩
  rw [← String.toList_append, heq]

theorem missing_ne_readyLine (host : Host σ) :
    "Error: SPDK RPC script not found at " ++ host.rpcPy ≠ readyLine :=
  append_ne_readyLine _ (by decide)

theorem using_ne_readyLine (host : Host σ) : "Using SPDK at: " ++ host.spdkDir ≠ readyLine :=
  append_ne_readyLine _ (by decide)

theorem started_ne_readyLine (host : Host σ) : "Started nvmf_tgt with PID " ++
    toString host.targetPid ++ ". Waiting for startup..." ≠ readyLine := by
  rw [String.append_assoc]
  exact append_ne_readyLine _ (by decide)

theorem creating_ne_readyLine : "Creating Subsystem " ++ subsysNqn ++ "..." ≠ readyLine := by
  rw [String.append_assoc]
  exact append_ne_readyLine _ (by decide)

theorem echo_spec {P Q F : Machine σ → Prop} (h : ∀ m, P m → Q (m.say text)) :
    Cmd.Spec P (echo text) Q F := by
  intro m hm
  exact ⟨fun _ => h m hm, fun hne => absurd rfl hne⟩

/-! ## The calls -/

/-- The target has view `v`, and the script has not said that it is ready. -/
structure At (hsrv : srv.Documented) (v : View) (m : Machine σ) : Prop where
  view : m.target.map hsrv.view = some v
  quiet : readyLine ∉ m.said

theorem At.next {m' : Machine σ} {v' : View} (hm : At hsrv v m)
    (hview : m'.target.map hsrv.view = some v') (hsaid : m'.said = m.said) : At hsrv v' m' := by
  refine ⟨hview, ?_⟩
  rw [hsaid]
  exact hm.quiet

theorem say_spec (h : text ≠ readyLine) :
    Code.Spec (At hsrv v) (run (echo text)) (At hsrv v) X :=
  .run (echo_spec fun _ hm => ⟨hm.view, quiet_say hm.quiet h⟩)

theorem rpc_spec (hown : call.Own) :
    Cmd.Spec (At hsrv v) (rpc srv call)
      (fun m => v.config.Accepts call ∧ At hsrv (v.attempt call) m)
      (fun m => ¬ v.config.Accepts call ∧ At hsrv (v.attempt call) m) := by
  intro m hm
  rcases rpc_view hown hm.view with ⟨hstatus, hview, hsaid⟩
  have hafter := hm.next hview hsaid
  exact ⟨fun hzero => ⟨hstatus.1 hzero, hafter⟩,
    fun hne => ⟨fun haccepts => hne (hstatus.2 haccepts), hafter⟩⟩

/-- A call that is known to succeed. -/
theorem call_spec (hown : call.Own) (h : v.config.Accepts call) :
    Code.Spec (At hsrv v) (run (rpc srv call)) (At hsrv (v.attempt call)) X := by
  refine .run ((rpc_spec hown).mono (fun _ hm => hm) (fun _ hm => hm.2) ?_)
  intro m hm
  exact absurd h hm.1

/-- A call whose failure is turned into a message. -/
theorem masked_spec (hown : call.Own) (h : text ≠ readyLine) :
    Code.Spec (At hsrv v) (orElse (rpc srv call) (echo text)) (At hsrv (v.attempt call)) X := by
  refine .orElse ((rpc_spec hown).mono (fun _ hm => hm) (fun _ hm => hm.2) (fun _ hm => hm.2)) ?_
  exact echo_spec fun _ hm => ⟨hm.view, quiet_say hm.quiet h⟩

/-! ## The parts of the script -/

theorem createBdev_spec :
    Code.Spec (At hsrv v) (createBdev srv) (At hsrv (v.attempt malloc0)) X := by
  have htest : Cmd.Spec (At hsrv v) (rpc srv (.bdevGetBdevs "Malloc0"))
      (fun m => "Malloc0" ∈ v.config.bdevs ∧ At hsrv v m)
      (fun m => "Malloc0" ∉ v.config.bdevs ∧ At hsrv v m) := by
    intro m hm
    rcases getBdevs_view hm.view with ⟨hstatus, hview, hsaid⟩
    have hafter := hm.next hview hsaid
    exact ⟨fun hzero => ⟨hstatus.1 hzero, hafter⟩,
      fun hne => ⟨fun hmem => hne (hstatus.2 hmem), hafter⟩⟩
  refine .cond htest.not (.of_pure ?_) (.of_pure ?_)
  · -- `bdev_get_bdevs` has failed, so the name is free.
    intro hnew
    have hown : malloc0.Own := Rpc.own_of_subsystems fun _ => rfl
    exact .cons (say_spec (by decide)) (.cons (call_spec hown hnew) .nil)
  · -- An attempt to create it would fail, so not trying is the same.
    intro hold
    have hrejects : ¬ v.config.Accepts malloc0 := fun hnew => hnew hold
    rw [View.attempt_of_rejects hrejects]
    exact say_spec (by decide)

theorem createSubsystem_spec :
    Code.Spec (At hsrv v) (createSubsystem srv) (At hsrv v.ensureSubsystem) X := by
  have htest : Cmd.Spec (At hsrv v) (Cmd.pipe (getSubsystems srv) (Bre.grepQ subsysPattern))
      (fun m => v.found = true ∧ At hsrv v m) (fun m => v.found = false ∧ At hsrv v m) := by
    intro m hm
    rcases getSubsystems_view hm.view with ⟨hgrep, hview, hsaid⟩
    have hafter := hm.next hview hsaid
    exact ⟨fun hzero => ⟨hgrep.1 hzero, hafter⟩,
      fun hne => ⟨Bool.eq_false_iff.2 fun hfound => hne (hgrep.2 hfound), hafter⟩⟩
  refine .cond htest.not (.of_pure ?_) (.of_pure ?_)
  · -- `grep` has failed, which it does not do when the subsystem is in the list.
    intro hnone
    rw [View.ensureSubsystem_of_not_found hnone]
    exact .cons (say_spec creating_ne_readyLine)
      (.cons (call_spec own_cnode1 (View.accepts_cnode1 hnone)) .nil)
  · -- Some line matches, and nothing is created, whichever line it is.
    intro hsome
    rw [View.ensureSubsystem_of_found hsome]
    exact say_spec (by decide)

theorem addNamespace_spec :
    Code.Spec (At hsrv v) (addNamespace srv) (At hsrv (v.attempt namespace1)) X :=
  .cons (say_spec (by decide)) (.cons (masked_spec own_namespace1 (by decide)) .nil)

theorem addListener_spec :
    Code.Spec (At hsrv v) (addListener srv)
      (At hsrv ((v.attempt tcpTransport).attempt listener1)) X :=
  .cons (say_spec (by decide))
    (.cons (masked_spec (Rpc.own_of_subsystems fun _ => rfl) (by decide))
      (.cons (masked_spec own_listener1 (by decide)) .nil))

/-- The script has said that it is ready. -/
structure Announced (hsrv : srv.Documented) (v : View) (m : Machine σ) : Prop where
  view : m.target.map hsrv.view = some v
  said : readyLine ∈ m.said

theorem printSummary_spec : Code.Spec (At hsrv v) printSummary (Announced hsrv v) X := by
  have hmore : ∀ text : String,
      Code.Spec (Announced hsrv v) (run (echo text)) (Announced hsrv v) X := by
    intro text
    exact .run (echo_spec fun _ hm => ⟨hm.view, List.mem_append_left _ hm.said⟩)
  have hready : Code.Spec (At hsrv v) (run (echo readyLine)) (Announced hsrv v) X :=
    .run (echo_spec fun _ hm => ⟨hm.view, List.mem_append_right _ (List.mem_singleton_self _)⟩)
  exact .cons (say_spec (by decide))
    (.cons hready (.cons (hmore _) (.cons (hmore _) (.cons (hmore _) .nil))))

/-! ## Before the first call -/

/-- What has to be in order for the script to get to the calls. -/
def Host.Passes (host : Host σ) : Prop :=
  host.rpcPyExists = true ∧ host.setupStatus = 0

/-- The calls will meet a target with view `v`, running already or started by the script. -/
structure Before (hsrv : srv.Documented) (host : Host σ) (v : View) (m : Machine σ) : Prop where
  view : (m.target.or host.boot).map hsrv.view = some v
  quiet : readyLine ∉ m.said

/-- The shell has exited early. -/
structure GaveUp (host : Host σ) (m : Machine σ) : Prop where
  fails : ¬ host.Passes
  quiet : readyLine ∉ m.said

theorem say_before_spec (h : text ≠ readyLine) :
    Code.Spec (Before hsrv host v) (run (echo text)) (Before hsrv host v) X :=
  .run (echo_spec fun _ hm => ⟨hm.view, quiet_say hm.quiet h⟩)

theorem checkRpcPy_spec :
    Code.Spec (Before hsrv host v) (checkRpcPy host)
      (fun m => host.rpcPyExists = true ∧ Before hsrv host v m) (GaveUp host) := by
  have htest : Cmd.Spec (Before hsrv host v) (rpcPyIsFile host)
      (fun m => host.rpcPyExists = true ∧ Before hsrv host v m)
      (fun m => ¬ host.rpcPyExists = true ∧ Before hsrv host v m) := by
    intro m hm
    by_cases hfile : host.rpcPyExists = true
    · simp [rpcPyIsFile, hfile, hm]
    · simp [rpcPyIsFile, hfile, hm]
  refine .cond htest.not (.of_pure ?_) .nil
  intro hmissing
  have hexit : Code.Spec (Before hsrv host v) (.exited 1)
      (fun m => host.rpcPyExists = true ∧ Before hsrv host v m) (GaveUp host) := by
    refine (Code.Spec.exited 1).mono (fun _ hm => hm) (fun _ hm => hm) ?_
    intro m hm
    exact ⟨fun hpasses => hmissing hpasses.1, hm.quiet⟩
  exact .cons (say_before_spec (missing_ne_readyLine host)) (.cons hexit .nil)

theorem setupHugepages_spec :
    Code.Spec (Before hsrv host v) (setupHugepages host)
      (fun m => host.setupStatus = 0 ∧ Before hsrv host v m) (GaveUp host) := by
  have hsetup : Cmd.Spec (Before hsrv host v) (setup host)
      (fun m => host.setupStatus = 0 ∧ Before hsrv host v m) (GaveUp host) := by
    intro m hm
    exact ⟨fun hzero => ⟨hzero, hm⟩, fun hne => ⟨fun hpasses => hne hpasses.2, hm.quiet⟩⟩
  exact .cons (say_before_spec (by decide)) (.cons (.run hsetup) .nil)

theorem startTarget_spec :
    Code.Spec (Before hsrv host v) (startTarget host) (At hsrv v) X := by
  have htest : Cmd.Spec (Before hsrv host v) pgrep (At hsrv v)
      (fun m => m.target = none ∧ Before hsrv host v m) := by
    intro m hm
    cases htarget : m.target with
    | none => simp [pgrep, htarget, hm]
    | some s =>
        -- A target that runs is left as it is.
        have hview := hm.view
        rw [htarget, Option.some_or] at hview
        have hat : At hsrv v m := ⟨by rw [htarget, hview], hm.quiet⟩
        simp [pgrep, htarget, hat]
  have hlaunch : Cmd.Spec (fun m => m.target = none ∧ Before hsrv host v m) (launch host)
      (At hsrv v) X := by
    rintro m ⟨hnone, hview, hquiet⟩
    rw [hnone, Option.none_or] at hview
    exact ⟨fun _ => ⟨hview, hquiet⟩, fun hne => absurd rfl hne⟩
  have hstart : Code.Spec (fun m => m.target = none ∧ Before hsrv host v m)
      (run (echo "Starting nvmf_tgt..."))
      (fun m => m.target = none ∧ Before hsrv host v m) X :=
    .run (echo_spec fun _ hm => ⟨hm.1, hm.2.view, quiet_say hm.2.quiet (by decide)⟩)
  exact .cond htest (say_spec (by decide))
    (.cons hstart (.cons (.run hlaunch) (.cons (say_spec (started_ne_readyLine host)) .nil)))

/-! ## The whole script -/

/-- The script gets to its last line exactly when the host passes, and then it has configured the
target in the one way it can. -/
theorem startSpdkTgt_spec :
    Code.Spec (Before hsrv host v) (startSpdkTgtCode srv host)
      (fun m => host.Passes ∧ Announced hsrv v.configured m) (GaveUp host) := by
  refine .cons checkRpcPy_spec (.of_pure ?_)
  intro hfile
  refine .cons (say_before_spec (using_ne_readyLine host)) (.cons setupHugepages_spec (.of_pure ?_))
  intro hstatus
  have hcalls : Code.Spec (Before hsrv host v)
      (block [startTarget host, createBdev srv, createSubsystem srv, addNamespace srv,
        addListener srv, printSummary])
      (Announced hsrv v.configured) (GaveUp host) :=
    .cons startTarget_spec (.cons createBdev_spec (.cons createSubsystem_spec
      (.cons addNamespace_spec (.cons addListener_spec (.cons printSummary_spec .nil)))))
  exact hcalls.mono (fun _ hm => hm) (fun _ hm => ⟨⟨hfile, hstatus⟩, hm⟩) (fun _ hm => hm)

end Spdk
end HelloEbpf
