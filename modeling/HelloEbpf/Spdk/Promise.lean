import HelloEbpf.Shell.Pool
import HelloEbpf.Spdk.Outcome

/-!
# Promise — what a run of the start script promises to the others

Nothing keeps two runs of the script apart: each of them looks whether a thing exists and creates it a
moment later.  While a run waits, the target may go up the rungs of `View.ladder` but never down
(`sharing`).  A run gives up only where another one has made the step in between (`MadeStep`), and
`promise` is what it owes the others: it says that it is ready at the top and nowhere else, and what
it has left to do behind a command that makes a step is an heir to the step.

There is one rule for each kind of command the script has.
-/

namespace HelloEbpf
namespace Spdk

open Shell Code View

variable {σ : Type*} {srv : Server σ} {hsrv : srv.Documented} {v b : View} {k : Nat}

/-- The target is everybody's, and what a script has said is its own. -/
def Machine.split : Machine σ ≃ Option σ × List String where
  toFun m := (m.target, m.said)
  invFun := fun (target, said) => { target := target, said := said }
  left_inv _ := rfl
  right_inv _ := rfl

/-! ## Where the target has got to -/

/-- There is a target, and its view is at rung `k` or above. -/
def Reached (hsrv : srv.Documented) (v : View) (k : Nat) (target : Option σ) : Prop :=
  ∃ b, target.map hsrv.view = some b ∧ ladder.From v k b

/-- Step `k` had to be made and has been made. -/
def MadeStep (hsrv : srv.Documented) (v : View) (k : Nat) (target : Option σ) : Prop :=
  ¬ StageDone k (ladder.rung v k) ∧ Reached hsrv v (k + 1) target

theorem reached_iff {target : Option σ} (hb : target.map hsrv.view = some b) :
    Reached hsrv v k target ↔ ladder.From v k b := by
  simp [Reached, hb]

theorem madeStep_iff {target : Option σ} (hb : target.map hsrv.view = some b) :
    MadeStep hsrv v k target ↔ ladder.Made v k b :=
  and_congr_right fun _ => reached_iff hb

/-- At the last rung the view is the one the script leads to. -/
theorem Reached.configured {target : Option σ} (h : Reached hsrv v 5 target) :
    target.map hsrv.view = some v.configured := by
  rcases h with ⟨b, hb, j, hj, rfl⟩
  rcases Nat.exists_eq_add_of_le' hj with ⟨n, rfl⟩
  rw [hb, rung_add_five]

/-- While a script waits, the target never falls below a rung it has reached. -/
def sharing (hsrv : srv.Documented) (v : View) :
    Sharing (Machine σ) (Option σ) (List String) where
  split := Machine.split
  rely target target' := ∀ k, Reached hsrv v k target → Reached hsrv v k target'
  rely_refl _ _ h := h
  rely_trans _ _ _ h h' k hk := h' k (h k hk)

/-- The script has made its first `k` steps and has not said that it is ready. -/
structure Underway (hsrv : srv.Documented) (v : View) (k : Nat) (m : Machine σ) : Prop where
  reached : Reached hsrv v k m.target
  quiet : readyLine ∉ m.said

/-- The script has said that it is ready. -/
structure Over (hsrv : srv.Documented) (v : View) (m : Machine σ) : Prop where
  reached : Reached hsrv v 5 m.target
  said : readyLine ∈ m.said

theorem underway_stable : (sharing hsrv v).Stable (Underway hsrv v k) := by
  rintro m m' hm ⟨hrely, hsaid⟩
  have hsame : m'.said = m.said := hsaid
  refine ⟨hrely k hm.reached, ?_⟩
  rw [hsame]
  exact hm.quiet

theorem over_stable : (sharing hsrv v).Stable (Over hsrv v) := by
  rintro m m' hm ⟨hrely, hsaid⟩
  have hsame : m'.said = m.said := hsaid
  refine ⟨hrely 5 hm.reached, ?_⟩
  rw [hsame]
  exact hm.said

/-! ## What a run promises -/

/-- How a run may end before its last line, and what it leaves to the others: `exit` is what it finds
where it has given up, `last` holds of the command that ends it, and `heir` of what it has left to do
behind the command that makes step `k`. -/
structure Terms (σ : Type*) where
  exit : Option σ → Prop
  last : Cmd (Machine σ) → Machine σ → Prop
  heir : Nat → Code (Machine σ) → Machine σ → Prop

/-- The next command may end the run. -/
def Ends (c : Cmd (Machine σ)) (next : Nat → Code (Machine σ)) (m : Machine σ) : Prop :=
  ∃ status, next (c m).1 = .exited status

/-- A run says that it is ready at the last rung and before its end, and ends on its terms. -/
def promise (hsrv : srv.Documented) (v : View) (T : Terms σ) : Contract (Machine σ) where
  inv code m := (readyLine ∈ m.said → Reached hsrv v 5 m.target) ∧
    (code = .done → readyLine ∈ m.said) ∧
    (∀ status, code = .exited status → T.exit m.target) ∧
    ∀ c next, code = .call c next → Ends c next m → T.last c m
  guar code m m' := ∀ k < 2, MadeStep hsrv v k m'.target →
    MadeStep hsrv v k m.target ∨ T.heir k code m'

section Rules

variable {T : Terms σ} {P : Machine σ → Prop} {c : Cmd (Machine σ)} {call : Rpc}
  {next : Nat → Code (Machine σ)} {rest code : Code (Machine σ)} {text : String} {m m' : Machine σ}

/-- A command that leaves the view alone disturbs nobody. -/
theorem guar_of_same (h : m'.target.map hsrv.view = m.target.map hsrv.view) :
    (sharing hsrv v).rely m.target m'.target ∧ (promise hsrv v T).guar code m m' := by
  have hreached : ∀ k, Reached hsrv v k m'.target ↔ Reached hsrv v k m.target := by
    intro k
    rw [Reached, Reached, h]
  constructor
  · intro k hk
    exact (hreached k).2 hk
  · rintro k - ⟨hnew, hk⟩
    exact Or.inl ⟨hnew, (hreached (k + 1)).1 hk⟩

/-- Step `k` disturbs nobody, and makes nothing but itself. -/
theorem guar_of_stage (hb : m.target.map hsrv.view = some b) (hfrom : ladder.From v k b)
    (hb' : m'.target.map hsrv.view = some (stage k b)) (hheir : k < 2 → T.heir k code m') :
    (sharing hsrv v).rely m.target m'.target ∧ (promise hsrv v T).guar code m m' := by
  constructor
  · intro j hj
    rw [reached_iff hb] at hj
    exact (reached_iff hb').2 (hfrom.keep hj)
  · intro j hlt hmade
    -- Only step `k` can be new; another one has been made before.
    by_cases heq : j = k
    · subst heq
      exact Or.inr (hheir hlt)
    · rw [madeStep_iff hb'] at hmade
      exact Or.inl ((madeStep_iff hb).2 (hmade.of_step hfrom heq))

theorem inv_of_quiet (hquiet : readyLine ∉ m.said) (hlast : Ends c next m → T.last c m) :
    (promise hsrv v T).inv (.call c next) m := by
  refine ⟨fun hsaid => absurd hsaid hquiet, nofun, nofun, ?_⟩
  rintro c' next' ⟨⟩
  exact hlast

/-- A statement that does not fail. -/
theorem not_ends_echo (hgoes : rest.Goes) :
    ¬ Ends (echo text) (fun status => (if status = 0 then .done else .exited status : Code _).seq rest)
      m := by
  rintro ⟨status, hexited⟩
  exact hgoes status hexited

/-- A command that does nothing to the machine. -/
theorem meets_idle (hc : ∀ m, (c m).2 = m) (hlast : ∀ m, Ends c next m → T.last c m)
    (hnext : ∀ m, Underway hsrv v k m →
      (next (c m).1).Meets (sharing hsrv v) (promise hsrv v T) m)
    (hm : Underway hsrv v k m) :
    (Code.call c next).Meets (sharing hsrv v) (promise hsrv v T) m := by
  refine meets_call underway_stable ?_ hm
  intro m hm
  have hsame : (c m).2.target.map hsrv.view = m.target.map hsrv.view := by rw [hc]
  rcases guar_of_same hsame with ⟨hrely, hguar⟩
  refine ⟨inv_of_quiet hm.quiet (hlast m), hrely, hguar, ?_⟩
  rw [hc]
  exact hnext m hm

theorem meets_echo (htext : text ≠ readyLine) (hgoes : rest.Goes)
    (hrest : ∀ m, Underway hsrv v k m → rest.Meets (sharing hsrv v) (promise hsrv v T) m)
    (hm : Underway hsrv v k m) :
    ((run (echo text)).seq rest).Meets (sharing hsrv v) (promise hsrv v T) m := by
  refine meets_call underway_stable ?_ hm
  intro m hm
  have hsame : (m.say text).target.map hsrv.view = m.target.map hsrv.view := rfl
  rcases guar_of_same hsame with ⟨hrely, hguar⟩
  exact ⟨inv_of_quiet hm.quiet fun hends => absurd hends (not_ends_echo hgoes), hrely, hguar,
    hrest _ ⟨hm.reached, quiet_say hm.quiet htext⟩⟩

/-- A message that is followed by `exit`. -/
theorem meets_error {status : Nat} (htext : text ≠ readyLine) (hlast : ∀ m, T.last (echo text) m)
    (hexit : ∀ m, Underway hsrv v k m →
      (Code.exited status).Meets (sharing hsrv v) (promise hsrv v T) m)
    (hm : Underway hsrv v k m) :
    ((run (echo text)).seq (.exited status)).Meets (sharing hsrv v) (promise hsrv v T) m := by
  refine meets_call underway_stable ?_ hm
  intro m hm
  have hsame : (m.say text).target.map hsrv.view = m.target.map hsrv.view := rfl
  rcases guar_of_same hsame with ⟨hrely, hguar⟩
  exact ⟨inv_of_quiet hm.quiet fun _ => hlast m, hrely, hguar,
    hexit _ ⟨hm.reached, quiet_say hm.quiet htext⟩⟩

/-- The ready line, at the last rung. -/
theorem meets_ready (hgoes : rest.Goes)
    (hrest : ∀ m, Over hsrv v m → rest.Meets (sharing hsrv v) (promise hsrv v T) m)
    (hm : Underway hsrv v 5 m) :
    ((run (echo readyLine)).seq rest).Meets (sharing hsrv v) (promise hsrv v T) m := by
  refine meets_call underway_stable ?_ hm
  intro m hm
  have hsame : (m.say readyLine).target.map hsrv.view = m.target.map hsrv.view := rfl
  rcases guar_of_same hsame with ⟨hrely, hguar⟩
  refine ⟨inv_of_quiet hm.quiet fun hends => absurd hends (not_ends_echo hgoes), hrely, hguar,
    hrest _ ⟨hm.reached, ?_⟩⟩
  exact List.mem_append_right _ (List.mem_singleton_self _)

theorem meets_over_echo (hgoes : rest.Goes)
    (hrest : ∀ m, Over hsrv v m → rest.Meets (sharing hsrv v) (promise hsrv v T) m)
    (hm : Over hsrv v m) :
    ((run (echo text)).seq rest).Meets (sharing hsrv v) (promise hsrv v T) m := by
  refine meets_call over_stable ?_ hm
  intro m hm
  have hsame : (m.say text).target.map hsrv.view = m.target.map hsrv.view := rfl
  rcases guar_of_same hsame with ⟨hrely, hguar⟩
  refine ⟨⟨fun _ => hm.reached, nofun, nofun, ?_⟩, hrely, hguar, hrest _ ⟨hm.reached, ?_⟩⟩
  · rintro c next ⟨⟩ hends
    exact absurd hends (not_ends_echo hgoes)
  · exact List.mem_append_left _ hm.said

theorem meets_over_done (hm : Over hsrv v m) :
    (Code.done).Meets (sharing hsrv v) (promise hsrv v T) m := by
  refine meets_done over_stable ?_ hm
  intro m hm
  exact ⟨fun _ => hm.reached, fun _ => hm.said, nofun, nofun⟩

/-- The shell exits. -/
theorem meets_exit {status : Nat} (hP : (sharing hsrv v).Stable P)
    (hexit : ∀ m, P m → readyLine ∉ m.said ∧ T.exit m.target) (hm : P m) :
    (Code.exited status).Meets (sharing hsrv v) (promise hsrv v T) m := by
  refine meets_exited hP ?_ hm
  intro m hm
  rcases hexit m hm with ⟨hquiet, hx⟩
  exact ⟨fun hsaid => absurd hsaid hquiet, nofun, fun _ _ => hx, nofun⟩

/-! ### Calls -/

/-- A call whose failure is turned into a message. -/
theorem meets_masked (hk : 2 ≤ k) (hown : call.Own) (hstage : ∀ b, stage k b = b.attempt call)
    (htext : text ≠ readyLine) (hgoes : rest.Goes)
    (hrest : ∀ m, Underway hsrv v (k + 1) m →
      rest.Meets (sharing hsrv v) (promise hsrv v T) m)
    (hm : Underway hsrv v k m) :
    ((orElse (rpc srv call) (echo text)).seq rest).Meets (sharing hsrv v) (promise hsrv v T) m := by
  refine meets_call underway_stable ?_ hm
  intro m hm
  rcases hm.reached with ⟨b, hb, hfrom⟩
  rcases rpc_view hown hb with ⟨_, hb', hsaid⟩
  rw [← hstage] at hb'
  have hnext : Underway hsrv v (k + 1) (rpc srv call m).2 := by
    refine ⟨⟨_, hb', hfrom.step⟩, ?_⟩
    rw [hsaid]
    exact hm.quiet
  -- From the third step on nobody gives up, so the heirs owe nothing.
  have hlate : ¬ k < 2 := by omega
  rcases guar_of_stage hb hfrom hb' (fun hlt => absurd hlt hlate) with ⟨hrely, hguar⟩
  by_cases hzero : (rpc srv call m).1 = 0
  · refine ⟨inv_of_quiet hm.quiet ?_, hrely, hguar, ?_⟩
    · rintro ⟨status, hexited⟩
      rw [hzero] at hexited
      exact absurd hexited (hgoes status)
    · rw [hzero]
      exact hrest _ hnext
  · refine ⟨inv_of_quiet hm.quiet ?_, hrely, hguar, ?_⟩
    · rintro ⟨status, hexited⟩
      simp only [hzero, ↓reduceIte] at hexited
      cases hexited
    · simp only [if_neg hzero]
      exact meets_echo htext hgoes hrest hnext

/-- A creation that may come too late: it fails where somebody else has made the step. -/
theorem meets_create (hown : call.Own) (hnew : ¬ StageDone k (ladder.rung v k))
    (haccepts : ∀ b, ladder.From v k b → b.config.Accepts call → b.attempt call = stage k b)
    (hrejects : ∀ b, ladder.From v k b → ¬ b.config.Accepts call → StageDone k b)
    (hexit : ∀ target, MadeStep hsrv v k target → T.exit target)
    (hlast : ∀ m, MadeStep hsrv v k m.target → T.last (rpc srv call) m)
    (hheir : k < 2 → ∀ m, Underway hsrv v (k + 1) m → T.heir k rest m) (hgoes : rest.Goes)
    (hrest : ∀ m, Underway hsrv v (k + 1) m →
      rest.Meets (sharing hsrv v) (promise hsrv v T) m)
    (hm : Underway hsrv v k m) :
    ((run (rpc srv call)).seq rest).Meets (sharing hsrv v) (promise hsrv v T) m := by
  refine meets_call underway_stable ?_ hm
  intro m hm
  rcases hm.reached with ⟨b, hb, hfrom⟩
  rcases rpc_view hown hb with ⟨hstatus, hb', hsaid⟩
  have hquiet : readyLine ∉ (rpc srv call m).2.said := by
    rw [hsaid]
    exact hm.quiet
  by_cases h : b.config.Accepts call
  · -- The call makes the step, and the rest of the script inherits it.
    rw [haccepts b hfrom h] at hb'
    have hnext : Underway hsrv v (k + 1) (rpc srv call m).2 := ⟨⟨_, hb', hfrom.step⟩, hquiet⟩
    rcases guar_of_stage hb hfrom hb' (fun hlt => hheir hlt _ hnext) with ⟨hrely, hguar⟩
    rw [hstatus.2 h]
    refine ⟨inv_of_quiet hm.quiet ?_, hrely, hguar, hrest _ hnext⟩
    rintro ⟨status, hexited⟩
    rw [hstatus.2 h] at hexited
    exact absurd hexited (hgoes status)
  · -- The view is as before, and the step has been made in it.
    have hmade : Reached hsrv v (k + 1) m.target :=
      ⟨b, hb, hfrom.of_done (hrejects b hfrom h)⟩
    rw [attempt_of_rejects h, ← hb] at hb'
    rcases guar_of_same hb' with ⟨hrely, hguar⟩
    refine ⟨inv_of_quiet hm.quiet fun _ => hlast m ⟨hnew, hmade⟩, hrely, hguar, ?_⟩
    have hafter : Underway hsrv v (k + 1) (rpc srv call m).2 := ⟨hrely _ hmade, hquiet⟩
    have hne : (rpc srv call m).1 ≠ 0 := fun hzero => h (hstatus.1 hzero)
    simp only [if_neg hne]
    refine meets_exit underway_stable ?_ hafter
    intro m hm
    exact ⟨hm.quiet, hexit _ ⟨hnew, hm.reached⟩⟩

end Rules

end Spdk
end HelloEbpf
