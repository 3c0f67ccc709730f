import HelloEbpf.Tracing.Output

/-!
# Speech — what the mains say, and how they end

A `main` that reaches its loop has said its greeting, if anybody can see it, and stays there until it
is killed; one that ends by itself has said which call failed, and returns what that call has it
return (`exited_failed`, `looping_said`).  For every dot that a running `minimal` prints its program
has a line to print (`dots_traced`).
-/

namespace HelloEbpf
namespace Tracing

variable {ι κ : Type*} [DecidableEq ι] {K : Kernel ι κ} {proc : ι → Process} {s s' : System ι κ}
variable {i j : ι}

section Said

variable {α β : Type*} [DecidableEq α] {a b : α}

/-- What one of those who have added to a list has added. -/
def said (a : α) (out : List (α × β)) : List β :=
  (out.filter (·.1 = a)).map Prod.snd

@[simp] theorem said_nil : said a ([] : List (α × β)) = [] := rfl

@[simp] theorem said_append_self (out : List (α × β)) (text : β) :
    said a (out ++ [(a, text)]) = said a out ++ [text] := by
  simp [said]

theorem said_append_of_ne (hne : b ≠ a) (out : List (α × β)) (text : β) :
    said b (out ++ [(a, text)]) = said b out := by
  simp [said, Ne.symm hne]

end Said

/-! ## What a process has said at its stage -/

namespace Call

/-- What `main` says where the call has failed. -/
def message : Call → String
  | .open => "Failed to open BPF skeleton\n"
  | .load => "Failed to load and verify BPF skeleton\n"
  | .attach => "Failed to attach BPF skeleton\n"

/-- What `main` returns then: where the skeleton is not open there is no error to return. -/
def status (err : BitVec 32) : Call → BitVec 32
  | .open => 1
  | .load | .attach => -err

/-- The calls that have returned 0 before. -/
def before : Call → List Call
  | .open => []
  | .load => [.open]
  | .attach => [.open, .load]

end Call

/-- What is kept of one process: whether it has linked its program, what its calls have returned and
what it has itself written. -/
structure Account where
  linked : Prop
  results : List (Call × BitVec 32)
  out : List String
  err : List String

def System.account (s : System ι κ) (j : ι) : Account where
  linked := .attach j ∈ s.log
  results := said j s.results
  out := said j s.stdout
  err := said (j, .main) s.stderr

/-- The call `c` has failed with `e`, after none before it, and `main` has said so and nothing else. -/
structure Account.Failed (a : Account) (c : Call) (e : BitVec 32) : Prop where
  results : a.results = (c.before.map fun c' => (c', 0)) ++ [(c, e)]
  nonzero : e ≠ 0
  out : a.out = []
  err : a.err = [c.message]
  linked : a.linked → c = .attach

/-- What is kept of a process at its stage. -/
def Stage.Said (st : Stage) (p : Process) (a : Account) : Prop :=
  match st with
  | .unborn | .other | .main .opening => ¬ a.linked ∧ a.results = [] ∧ a.out = [] ∧ a.err = []
  | .main .setting | .main (.loading _) =>
      ¬ a.linked ∧ a.results = [(.open, 0)] ∧ a.out = [] ∧ a.err = []
  | .main (.attaching _) | .main .enabling =>
      a.results = [(.open, 0), (.load, 0)] ∧ a.out = [] ∧ a.err = []
  | .main (.closed e) =>
      e ≠ 0 ∧ a.results = [(.open, 0), (.load, 0)] ∧ a.out = [] ∧ a.err = []
  | .main .greeting => a.out = [] ∧ a.err = []
  | .main .looping => ∀ t, p.tool = some t →
      a.out = (if p.terminal then t.source.greeting else []) ∧
        ∃ n, a.err = List.replicate n "." ∧ (t.source.dots = false → n = 0)
  | .main (.returning status) => ∃ c e, a.Failed c e ∧ status = c.status e
  | .gone (some status) => ∃ c e, a.Failed c e ∧ status = (c.status e).setWidth 8
  | .gone none => True

def System.Speaks (proc : ι → Process) (s : System ι κ) : Prop :=
  ∀ j, (s.stage j).Said (proc j) (s.account j)

namespace System

/-- Nothing of the other processes has changed. -/
structure Only (i : ι) (s s' : System ι κ) : Prop where
  stage : ∀ j, j ≠ i → s'.stage j = s.stage j
  account : ∀ j, j ≠ i → s'.account j = s.account j

theorem Speaks.of_only (hs : s.Speaks proc) (honly : Only i s s')
    (hi : (s'.stage i).Said (proc i) (s'.account i)) : s'.Speaks proc := by
  intro j
  by_cases hj : j = i
  · rwa [hj]
  · rw [honly.stage j hj, honly.account j hj]
    exact hs j

theorem Only.refl (i : ι) (s : System ι κ) : Only i s s :=
  ⟨fun _ _ => rfl, fun _ _ => rfl⟩

theorem Only.trans {s'' : System ι κ} (h : Only i s s') (h' : Only i s' s'') : Only i s s'' where
  stage j hj := (h'.stage j hj).trans (h.stage j hj)
  account j hj := (h'.account j hj).trans (h.account j hj)

/-! ### What the operations add -/

@[simp] theorem account_goto (st : Stage) (j : ι) : (s.goto i st).account j = s.account j := rfl

@[simp] theorem account_call (tid : BitVec 32) (sc : Syscall) (j : ι) :
    (s.call K i tid sc).account j = s.account j := by
  simp [account, call]

@[simp] theorem account_close (j : ι) : (s.close K i).account j = s.account j := by
  simp [account, close]

@[simp] theorem account_fprintf (text : String) :
    (s.fprintf K proc i text).account i =
      { s.account i with err := (s.account i).err ++ [text] } := by
  simp [account, fprintf, vfprintf, call]

@[simp] theorem account_libbpf_print_fn (text : String) (j : ι) :
    (s.libbpf_print_fn K proc i text).account j = s.account j := by
  have hsaid : said (j, .main) (s.stderr ++ [((i, Writer.libbpf), text)]) =
      said (j, .main) s.stderr := said_append_of_ne (by simp) _ _
  simp [account, libbpf_print_fn, vfprintf, call, hsaid]

@[simp] theorem account_printf (text : String) :
    (s.printf K proc i text).account i =
      { s.account i with
        out := (s.account i).out ++ if (proc i).terminal then [text] else [] } := by
  rw [printf]
  split
  · simp [account, call]
  · simp

@[simp] theorem account_returns (c : Call) (err : BitVec 32) :
    (s.returns i c err).account i =
      { s.account i with results := (s.account i).results ++ [(c, err)] } := by
  simp [account, returns]

@[simp] theorem account_attach (t : Tool) (my_pid : BitVec 32) :
    (s.attach K i t my_pid).account i = { s.account i with linked := True } := by
  simp [account, attach]

theorem account_printfs (texts : List String) :
    (texts.foldl (fun s text => s.printf K proc i text) s).account i =
      { s.account i with
        out := (s.account i).out ++ if (proc i).terminal then texts else [] } := by
  induction texts generalizing s with
  | nil => simp
  | cons text texts ih =>
      rw [List.foldl_cons, ih, account_printf]
      split <;> simp

/-! ### and to whom -/

theorem only_goto (st : Stage) : Only i s (s.goto i st) :=
  ⟨fun _ hj => goto_stage_of_ne hj st, fun _ _ => rfl⟩

theorem only_close : Only i s (s.close K i) :=
  ⟨fun _ _ => rfl, fun j _ => account_close j⟩

theorem only_fprintf (text : String) : Only i s (s.fprintf K proc i text) where
  stage _ _ := rfl
  account j hj := by
    have hsaid : said (j, .main) (s.stderr ++ [((i, Writer.main), text)]) =
        said (j, .main) s.stderr := said_append_of_ne (fun h => hj (congrArg Prod.fst h)) _ _
    simp [account, fprintf, vfprintf, call, hsaid]

theorem only_printf (text : String) : Only i s (s.printf K proc i text) := by
  rw [printf]
  split
  · refine ⟨fun _ _ => rfl, fun j hj => ?_⟩
    simp [account, call, said_append_of_ne hj]
  · exact .refl i s

theorem only_printfs (texts : List String) :
    Only i s (texts.foldl (fun s text => s.printf K proc i text) s) := by
  induction texts generalizing s with
  | nil => exact .refl i s
  | cons text texts ih => exact (only_printf text).trans ih

theorem only_returns (c : Call) (err : BitVec 32) : Only i s (s.returns i c err) where
  stage _ _ := rfl
  account j hj := by simp [account, returns, said_append_of_ne hj]

theorem only_attach (t : Tool) (my_pid : BitVec 32) : Only i s (s.attach K i t my_pid) where
  stage _ _ := rfl
  account j hj := by simp [account, attach, hj]

theorem only_exit (status : Option (BitVec 8)) : Only i s (s.exit K i status) :=
  only_close.trans (only_goto _)

theorem only_main (c : Source) (m : Main) (err : BitVec 32) :
    Only i s (main K proc c i m err s) := by
  have hfail : ∀ call err text st,
      Only i s (((s.returns i call err).fprintf K proc i text).goto i st) := fun call err text st =>
    ((only_returns call err).trans (only_fprintf text)).trans (only_goto st)
  have hreturns : ∀ call st, Only i s ((s.returns i call 0).goto i st) := fun call st =>
    (only_returns call 0).trans (only_goto st)
  cases m with
  | opening =>
      simp only [Tracing.main]
      split
      · exact hfail _ _ _ _
      · split <;> exact hreturns _ _
  | setting => exact only_goto _
  | loading my_pid =>
      simp only [Tracing.main]
      split
      · exact hfail _ _ _ _
      · exact hreturns _ _
  | attaching my_pid =>
      simp only [Tracing.main]
      split
      · exact only_goto _
      · exact (only_attach _ _).trans (only_goto _)
  | enabling =>
      simp only [Tracing.main]
      split
      · exact only_close.trans (only_goto _)
      · exact hreturns _ _
  | closed e => exact hfail _ _ _ _
  | greeting => exact (only_printfs _).trans (only_goto _)
  | looping =>
      simp only [Tracing.main]
      split
      · exact only_fprintf _
      · exact .refl i s
  | returning status => exact only_exit _

/-- Where a call fails after those before it have not, and `main` has said nothing before, it says
what has failed. -/
theorem failed_fail (K : Kernel ι κ) {c : Call} {e : BitVec 32} (he : e ≠ 0)
    (hresults : (s.account i).results = c.before.map fun c' => (c', 0))
    (hout : (s.account i).out = []) (herr : (s.account i).err = [])
    (hlinked : (s.account i).linked → c = .attach) :
    (((s.returns i c e).fprintf K proc i c.message).account i).Failed c e := by
  refine ⟨?_, he, ?_, ?_, ?_⟩
  · simp [hresults]
  · simpa using hout
  · simp [herr]
  · simpa using hlinked

/-- Each step of `main` says what the next stage asks for. -/
theorem Speaks.main (hs : s.Speaks proc) {t : Tool} (ht : (proc i).tool = some t) {m : Main}
    (hm : s.stage i = .main m) (err : BitVec 32) :
    (main K proc t.source i m err s).Speaks proc := by
  refine hs.of_only (only_main _ _ _) ?_
  have hi := hs i
  rw [hm] at hi
  cases m with
  | opening =>
      obtain ⟨hlinked, hresults, hout, herr⟩ := hi
      simp only [Tracing.main]
      split
      · rename_i he
        rw [goto_stage_self]
        exact ⟨.open, err, failed_fail K he hresults hout herr (absurd · hlinked), rfl⟩
      · split
        · rw [goto_stage_self]
          simpa [Stage.Said, hresults] using ⟨hlinked, hout, herr⟩
        · rw [goto_stage_self]
          simpa [Stage.Said, hresults] using ⟨hlinked, hout, herr⟩
  | setting =>
      simp only [Tracing.main]
      rw [goto_stage_self]
      exact hi
  | loading my_pid =>
      obtain ⟨hlinked, hresults, hout, herr⟩ := hi
      simp only [Tracing.main]
      split
      · rename_i he
        rw [goto_stage_self]
        exact ⟨.load, err, failed_fail K he hresults hout herr (absurd · hlinked), rfl⟩
      · rw [goto_stage_self]
        simpa [Stage.Said, hresults] using ⟨hout, herr⟩
  | attaching my_pid =>
      simp only [Tracing.main]
      split
      · rename_i he
        rw [goto_stage_self]
        exact ⟨he, hi⟩
      · rw [goto_stage_self]
        simpa [Stage.Said] using hi
  | enabling =>
      simp only [Tracing.main]
      split
      · -- The error is kept at `closed`, where `main` reports it.
        rename_i he
        rw [goto_stage_self]
        simpa [Stage.Said] using ⟨he, hi⟩
      · rw [goto_stage_self]
        simpa [Stage.Said] using hi.2
  | closed e =>
      obtain ⟨he, hresults, hout, herr⟩ := hi
      simp only [Tracing.main]
      rw [goto_stage_self]
      exact ⟨.attach, e, failed_fail K he hresults hout herr fun _ => rfl, rfl⟩
  | greeting =>
      simp only [Tracing.main]
      rw [goto_stage_self, account_goto, account_printfs]
      intro t' ht'
      cases ht.symm.trans ht'
      exact ⟨by simp [hi.1], 0, by simpa using hi.2, fun _ => rfl⟩
  | looping =>
      simp only [Tracing.main]
      split
      · rename_i hdots
        have hstage : (s.fprintf K proc i ".").stage i = .main .looping := hm
        rw [hstage, account_fprintf]
        intro t' ht'
        obtain ⟨hout, n, herr, _⟩ := hi t' ht'
        cases ht.symm.trans ht'
        -- One dot more, of a source that has dots.
        refine ⟨hout, n + 1, ?_, fun hno => absurd hdots (by simp [hno])⟩
        simp [herr, List.replicate_succ']
      · rw [hm]
        exact hi
  | returning status =>
      obtain ⟨c, e, hfailed, hstatus⟩ := hi
      simp only [Tracing.main, System.exit]
      rw [goto_stage_self, account_goto, account_close]
      exact ⟨c, e, hfailed, by rw [hstatus]⟩

theorem Speaks.step (hs : s.Speaks proc) (hstep : Step K proc s s') : s'.Speaks proc := by
  cases hstep with
  | spawn i hnew hid =>
      refine hs.of_only (only_goto _) ?_
      have hi := hs i
      rw [hnew] at hi
      rw [System.spawn, goto_stage_self]
      split
      · exact hi
      · exact hi
  | minimal i m err htool hm => exact hs.main htool hm err
  | hello i m err htool hm => exact hs.main htool hm err
  | libbpf_print_fn i m text hm =>
      intro j
      rw [account_libbpf_print_fn]
      exact hs j
  | call i tid sc hlive =>
      intro j
      rw [account_call]
      exact hs j
  | kill i hlive =>
      refine hs.of_only (only_exit none) ?_
      rw [System.exit, goto_stage_self]
      trivial
  | kernel k hlinks hemits => exact hs

theorem speaks_of_reachable (h : Reachable K proc s) : s.Speaks proc := by
  obtain ⟨k, _, hrun⟩ := h
  induction hrun with
  | refl => exact fun _ => ⟨List.not_mem_nil, rfl, rfl, rfl⟩
  | tail _ hstep ih => exact ih.step hstep

end System

/-- A process that has ended by itself has been told an error by one of its calls, after none by those
before.  `main` has said which call it was and nothing else, the status is that of the error, and the
program is no longer linked; it never was, and had nothing to print, where it is not the attachment
that failed. -/
theorem exited_failed (hK : K.Documented proc) (h : Reachable K proc s) {status : BitVec 8}
    (hgone : s.stage j = .gone (some status)) :
    ∃ (c : Call) (e : BitVec 32), e ≠ 0 ∧
      said j s.results = (c.before.map fun c' => (c', 0)) ++ [(c, e)] ∧
      said (j, .main) s.stderr = [c.message] ∧ said j s.stdout = [] ∧
      status = (c.status e).setWidth 8 ∧ (∀ l ∈ K.links s.kernel, l.owner ≠ j) ∧
      (c ≠ .attach → .attach j ∉ s.log ∧
        ∀ x ∈ K.trace s.kernel ++ K.discarded s.kernel, x.program ≠ j) := by
  have hinv := System.inv_of_reachable hK h
  have hsaid := System.speaks_of_reachable h j
  rw [hgone] at hsaid
  obtain ⟨c, e, hfailed, hstatus⟩ := hsaid
  refine ⟨c, e, hfailed.nonzero, hfailed.results, hfailed.err, hfailed.out, hstatus, ?_, ?_⟩
  · -- A link would have its owner attached, and a process that is gone is not.
    rintro l hl rfl
    have hattached := (hinv.logged l.owner).attached.mp (hinv.good.attached_of_mem hl)
    rw [hgone] at hattached
    exact hattached
  · -- Before the attachment there is nothing that could have printed.
    intro hc
    have hattach : .attach j ∉ s.log := fun hmem => hc (hfailed.linked hmem)
    refine ⟨hattach, fun x hx hxj => ?_⟩
    have hmem := (hinv.good.shows j).mem hx hxj
    rw [printed, whileAttached, During.during_of_not_mem hattach] at hmem
    cases hmem

/-- A `minimal` whose link cannot be enabled.  libbpf says so while the program is linked, so that the
program prints a line for that, and gives `-EINVAL`. -/
def Minimal.notEnabled : System Unit (Tracefs Unit) :=
  goOn (Tracefs.kernel fun _ => ⟨7, 7, some .minimal, true⟩) (fun _ => ⟨7, 7, some .minimal, true⟩)
    .minimal ()
    ((alone ⟨7, 7, some .minimal, true⟩ .minimal
      [(.opening, 0), (.setting, 0), (.loading 7, 0), (.attaching 7, 0)]).libbpf_print_fn
        (Tracefs.kernel fun _ => ⟨7, 7, some .minimal, true⟩)
        (fun _ => ⟨7, 7, some .minimal, true⟩) () "failed to enable\n")
    [(.enabling, -22), (.closed (-22), 0), (.returning 22, 0)]

theorem Minimal.reachable_notEnabled :
    Reachable (Tracefs.kernel fun _ => ⟨7, 7, some .minimal, true⟩)
      (fun _ => ⟨7, 7, some .minimal, true⟩) Minimal.notEnabled := by
  refine reachable_goOn rfl ((reachable_alone rfl ?_).tail (.libbpf_print_fn () .enabling _ rfl)) ?_
  · exact ⟨rfl, rfl, rfl, rfl, trivial⟩
  · exact ⟨rfl, rfl, rfl, trivial⟩

theorem exited_failed_notEnabled :
    ∃ (c : Call) (e : BitVec 32), e ≠ 0 ∧
      said () Minimal.notEnabled.results = (c.before.map fun c' => (c', 0)) ++ [(c, e)] ∧
      said ((), .main) Minimal.notEnabled.stderr = [c.message] ∧
      said () Minimal.notEnabled.stdout = [] ∧ (22 : BitVec 8) = (c.status e).setWidth 8 ∧
      (∀ l ∈ Minimal.notEnabled.kernel.links, l.owner ≠ ()) ∧
      (c ≠ .attach → .attach () ∉ Minimal.notEnabled.log ∧
        ∀ x ∈ Minimal.notEnabled.kernel.trace ++ Minimal.notEnabled.kernel.discarded,
          x.program ≠ ()) :=
  exited_failed Tracefs.documented Minimal.reachable_notEnabled rfl

example : Minimal.notEnabled.kernel.trace.filter (·.program = ()) = [⟨(), (), Minimal.line 7⟩] :=
  (minimal_shows Tracefs.documented Minimal.reachable_notEnabled rfl).eq_of_discarded (by decide)

/-- A main that is in its loop has its program attached; it has said its greeting on a terminal, and
nothing where it is piped, and has itself printed nothing but dots to `stderr`. -/
theorem looping_said (hK : K.Documented proc) (h : Reachable K proc s) {t : Tool}
    (ht : (proc j).tool = some t) (hm : s.stage j = .main .looping) :
    Attached j s.log ∧ ⟨j, t, t.my_pid (proc j)⟩ ∈ K.links s.kernel ∧
      said j s.stdout = (if (proc j).terminal then t.source.greeting else []) ∧
      ∃ n, said (j, .main) s.stderr = List.replicate n "." ∧ (t.source.dots = false → n = 0) := by
  have hinv := System.inv_of_reachable hK h
  have hattached : Attached j s.log := (hinv.logged j).attached.mpr (by rw [hm]; trivial)
  have hsaid := System.speaks_of_reachable h j
  rw [hm] at hsaid
  exact ⟨hattached, hinv.good.mem_links ht hattached, hsaid t ht⟩

theorem looping_said_withLostDot :
    Attached () Minimal.withLostDot.log ∧
      ⟨(), .minimal, 7⟩ ∈ Minimal.withLostDot.kernel.links ∧
      said () Minimal.withLostDot.stdout = Minimal.source.greeting ∧
      ∃ n, said ((), .main) Minimal.withLostDot.stderr = List.replicate n "." ∧
        (true = false → n = 0) :=
  looping_said Tracefs.documented Minimal.reachable_withLostDot rfl rfl

/-! ## The dots -/

/-- A process has made a `write` for each of its dots while its program was attached. -/
def System.Dotted (s : System ι κ) : Prop :=
  ∀ j, (s.account j).err.count "." ≤ (callers .write (whileAttached j s.log)).count j

namespace System

theorem count_callers_append (hs : s.Inv K proc) {e : Event ι} (he : e.Fresh s.log) (j : ι) :
    (callers .write (whileAttached j s.log)).count j ≤
      (callers .write (whileAttached j (s.log ++ [e]))).count j := by
  rw [whileAttached_append (hs.good.ordered j) he, callers_append, List.count_append]
  exact Nat.le_add_right _ _

/-- Where the log is as it was or has one event more, and no dot is added. -/
theorem Dotted.of_count (hs : s.Inv K proc) (hd : s.Dotted)
    (hlog : s'.log = s.log ∨ ∃ e, e.Fresh s.log ∧ s'.log = s.log ++ [e])
    (hcount : ∀ j, (s'.account j).err.count "." = (s.account j).err.count ".") : s'.Dotted := by
  intro j
  rw [hcount]
  rcases hlog with hsame | ⟨e, he, hmore⟩
  · rw [hsame]
    exact hd j
  · rw [hmore]
    exact (hd j).trans (count_callers_append hs he j)

theorem Dotted.call (hs : s.Inv K proc) (hd : s.Dotted) (tid : BitVec 32) (sc : Syscall) :
    (s.call K i tid sc).Dotted :=
  hd.of_count hs (.inr ⟨_, fresh_call, rfl⟩) fun j => by rw [account_call]

theorem Dotted.close (hs : s.Inv K proc) (hd : s.Dotted) : (s.close K i).Dotted :=
  hd.of_count hs (.inr ⟨_, fresh_close, rfl⟩) fun j => by rw [account_close]

/-- What is printed to `stderr` and is not a dot. -/
theorem Dotted.fprintf (hs : s.Inv K proc) (hd : s.Dotted) {text : String} (htext : text ≠ ".") :
    (s.fprintf K proc i text).Dotted := by
  refine hd.of_count hs (.inr ⟨_, fresh_call, rfl⟩) fun j => ?_
  by_cases hj : j = i
  · subst hj
    simp [List.count_append, htext]
  · rw [(only_fprintf text).account j hj]

/-- A dot is a `write`, and its process has its program attached. -/
theorem Dotted.dot (hs : s.Inv K proc) (hd : s.Dotted) (hattached : Attached i s.log) :
    (s.fprintf K proc i ".").Dotted := by
  intro j
  by_cases hj : j = i
  · subst hj
    have hlog : whileAttached j (s.fprintf K proc j ".").log =
        whileAttached j s.log ++ [.call j (proc j).tgid .write] := by
      refine (whileAttached_append (hs.good.ordered j) fresh_call).trans ?_
      simp [hattached]
    have hcallers : callers .write [Event.call j (proc j).tgid .write] = [j] := rfl
    rw [hlog, callers_append, List.count_append, hcallers, account_fprintf]
    simpa [List.count_append] using hd j
  · rw [(only_fprintf ".").account j hj]
    exact (hd j).trans (count_callers_append hs fresh_call j)

theorem Dotted.printfs (hK : K.Documented proc) (hs : s.Inv K proc) (hd : s.Dotted)
    (hlive : (s.stage i).Live) (texts : List String) :
    (texts.foldl (fun s text => s.printf K proc i text) s).Dotted := by
  induction texts generalizing s with
  | nil => exact hd
  | cons text texts ih =>
      refine ih (hs.printf hK hlive text) ?_ (by rwa [printf_stage])
      change (s.printf K proc i text).Dotted
      rw [System.printf]
      split
      · exact fun j => hd.call hs (proc i).tgid .write j
      · exact hd

theorem Dotted.main (hK : K.Documented proc) (hs : s.Inv K proc) (hd : s.Dotted) (c : Source)
    {m : Main} (hm : s.stage i = .main m) (err : BitVec 32) : (main K proc c i m err s).Dotted := by
  have hlogged := hs.logged i
  rw [hm] at hlogged
  have hfail : ∀ call e, ((s.returns i call e).fprintf K proc i call.message).Dotted :=
    fun call e => Dotted.fprintf (hs.returns call e) hd (by cases call <;> decide)
  cases m with
  | opening =>
      simp only [Tracing.main]
      split
      · exact hfail .open err
      · split <;> exact hd
  | setting => exact hd
  | loading my_pid =>
      simp only [Tracing.main]
      split
      · exact hfail .load err
      · exact hd
  | attaching my_pid =>
      simp only [Tracing.main]
      split
      · exact hd
      · have hfresh : (Event.attach i).Fresh s.log := by
          rintro j h
          cases h
          exact hlogged.early trivial
        refine hd.of_count hs (.inr ⟨_, hfresh, rfl⟩) fun j => ?_
        rfl
  | enabling =>
      simp only [Tracing.main]
      split
      · exact hd.close hs
      · exact hd
  | closed e => exact hfail .attach e
  | greeting => exact hd.printfs hK hs (hm ▸ trivial) _
  | looping =>
      simp only [Tracing.main]
      split
      · -- `main` is in its loop, so its program is attached.
        exact hd.dot hs (hlogged.attached.mpr trivial)
      · exact hd
  | returning status => exact hd.close hs

theorem Dotted.step (hK : K.Documented proc) (hs : s.Inv K proc) (hd : s.Dotted)
    (hstep : Step K proc s s') : s'.Dotted := by
  cases hstep with
  | spawn i hnew hid => exact hd
  | minimal i m err htool hm => exact hd.main hK hs _ hm err
  | hello i m err htool hm => exact hd.main hK hs _ hm err
  | libbpf_print_fn i m text hm =>
      exact hd.of_count hs (.inr ⟨_, fresh_call, rfl⟩) fun j => by rw [account_libbpf_print_fn]
  | call i tid sc hlive => exact hd.call hs tid sc
  | kill i hlive => exact hd.close hs
  | kernel k hlinks hemits => exact hd

theorem dotted_of_reachable (hK : K.Documented proc) (h : Reachable K proc s) : s.Dotted := by
  obtain ⟨k, hk, hrun⟩ := h
  induction hrun with
  | refl => exact fun _ => le_rfl
  | tail hrun hstep ih => exact ih.step hK (inv_of_reachable hK ⟨k, hk, hrun⟩) hstep

end System

/-- For each dot of a `minimal` whose id is the one that the kernel uses, its program has a line to
print for the same process, which is in the trace or discarded. -/
theorem dots_traced (hK : K.Documented proc) (h : Reachable K proc s)
    (hj : (proc j).tool = some .minimal) (hpid : (proc j).getpid = (proc j).tgid) :
    (said (j, .main) s.stderr).count "." ≤
      (K.trace s.kernel).count ⟨j, j, Minimal.line (proc j).tgid⟩ +
        (K.discarded s.kernel).count ⟨j, j, Minimal.line (proc j).tgid⟩ := by
  have hlines := printed_own hK h hj
  rw [if_pos hpid, hpid] at hlines
  have hcount : (K.trace s.kernel ++ K.discarded s.kernel).count
        ⟨j, j, Minimal.line (proc j).tgid⟩ =
      (callers .write (whileAttached j s.log)).count j := by
    -- the lines of its program in its own process, which are all this one
    rw [← List.count_filter (p := fun x : Line ι => x.program = j ∧ x.task = j) (by simp), hlines,
      List.count_replicate_self]
  rw [← List.count_append, hcount]
  exact System.dotted_of_reachable hK h j

theorem dots_traced_withLostDot :
    2 ≤ Minimal.withLostDot.kernel.trace.count ⟨(), (), Minimal.line 7⟩ +
      Minimal.withLostDot.kernel.discarded.count ⟨(), (), Minimal.line 7⟩ :=
  dots_traced Tracefs.documented Minimal.reachable_withLostDot rfl rfl

end Tracing
end HelloEbpf
