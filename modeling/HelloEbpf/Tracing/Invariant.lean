import HelloEbpf.Tracing.Loader

/-!
# Invariant — what holds in every reachable state of the system

`System.Inv` ties the log to where each process stands and to what the kernel holds.  It is kept by
every operation that the steps are made of (`Inv.call`, `Inv.attach`, `Inv.close`, ...), hence by every
step (`inv_of_reachable`).
-/

namespace HelloEbpf
namespace Tracing

variable {ι κ : Type*} [DecidableEq ι] {K : Kernel ι κ} {proc : ι → Process} {s s' : System ι κ}
variable {i j : ι}

/-- The program is linked here. -/
def Stage.Attached : Stage → Prop
  | .main .enabling | .main .greeting | .main .looping => True
  | _ => False

/-- The process has not come to link its program. -/
def Stage.Early : Stage → Prop
  | .unborn | .other => True
  | .main .opening | .main .setting | .main (.loading _) | .main (.attaching _) => True
  | _ => False

/-- What the log says of a process that stands at `st`. -/
structure Stage.Logged (st : Stage) (j : ι) (log : List (Event ι)) : Prop where
  attached : Tracing.Attached j log ↔ st.Attached
  early : st.Early → .attach j ∉ log ∧ .close j ∉ log

/-- `my_pid` is as the process sets it; only `minimal` comes to where it is set. -/
def Stage.Set (st : Stage) (p : Process) : Prop :=
  ∀ t, p.tool = some t →
    match st with
    | .main .setting => t = .minimal
    | .main (.loading my_pid) | .main (.attaching my_pid) => my_pid = t.my_pid p
    | _ => True

structure System.Inv (K : Kernel ι κ) (proc : ι → Process) (s : System ι κ) : Prop where
  good : K.Good proc s.kernel s.log
  logged : ∀ j, (s.stage j).Logged j s.log
  set : ∀ j, (s.stage j).Set (proc j)
  distinct : ∀ i j, (s.stage i).Live → (s.stage j).Live → (proc i).tgid = (proc j).tgid → i = j
  own : ∀ x ∈ K.trace s.kernel ++ K.discarded s.kernel,
    (proc x.task).tgid = (proc x.program).tgid → x.task = x.program

omit [DecidableEq ι] in
theorem Stage.live_of_attached {st : Stage} (h : st.Attached) : st.Live := by
  cases st with
  | main m => trivial
  | _ => cases h

omit [DecidableEq ι] in
/-- An event that neither attaches the process's program nor closes its link tells nothing of it. -/
theorem Stage.Logged.append {st : Stage} {log : List (Event ι)} {e : Event ι}
    (h : st.Logged j log) (hattach : e ≠ .attach j) (hclose : e ≠ .close j) :
    st.Logged j (log ++ [e]) where
  attached := by
    refine Iff.trans ?_ h.attached
    simp [Tracing.Attached, During.Open, hattach.symm, hclose.symm]
  early hearly := by
    simpa [hattach.symm, hclose.symm] using h.early hearly

omit [DecidableEq ι] in
/-- Where the link is closed the process goes on to where it has none. -/
theorem Stage.logged_close {st : Stage} (hattached : ¬ st.Attached) (hearly : ¬ st.Early)
    (log : List (Event ι)) : st.Logged j (log ++ [.close j]) where
  attached := iff_of_false (fun h => h.2 (by simp)) hattached
  early h := absurd h hearly

namespace System

theorem inv_boot {k : κ} (hk : K.Fresh k) : (boot k : System ι κ).Inv K proc where
  good := Kernel.good_fresh hk
  logged _ := ⟨iff_of_false During.not_open_nil id, fun _ => ⟨List.not_mem_nil, List.not_mem_nil⟩⟩
  set _ _ _ := trivial
  distinct _ _ h := absurd h id
  own x hx := by
    have hnone : K.trace k ++ K.discarded k = [] := by rw [hk.trace, hk.discarded, List.nil_append]
    exact absurd hx (hnone ▸ List.not_mem_nil)

/-- The owner of a link is there. -/
theorem Inv.live_of_mem (hs : s.Inv K proc) {l : Link ι} (hl : l ∈ K.links s.kernel) :
    (s.stage l.owner).Live :=
  Stage.live_of_attached ((hs.logged l.owner).attached.mp (hs.good.attached_of_mem hl))

/-! ## The operations -/

@[simp] theorem goto_stage_self (st : Stage) : (s.goto i st).stage i = st :=
  Function.update_self _ _ _

@[simp] theorem goto_stage_of_ne (hne : j ≠ i) (st : Stage) : (s.goto i st).stage j = s.stage j :=
  Function.update_of_ne hne _ _

/-- What holds of every process's stage holds after one of them has moved. -/
theorem forall_goto {P : ι → Stage → Prop} (st : Stage) (hi : P i st)
    (hothers : ∀ j, j ≠ i → P j (s.stage j)) (j : ι) : P j ((s.goto i st).stage j) := by
  by_cases hj : j = i
  · subst hj
    rwa [goto_stage_self]
  · rw [goto_stage_of_ne hj]
    exact hothers j hj

/-- Where a process goes on or ends, the ids of those that exist stay distinct. -/
theorem Inv.distinct_goto (hs : s.Inv K proc) (hlive : (s.stage i).Live) (st : Stage) (a b : ι)
    (ha : ((s.goto i st).stage a).Live) (hb : ((s.goto i st).stage b).Live)
    (htgid : (proc a).tgid = (proc b).tgid) : a = b := by
  have hold : ∀ c, ((s.goto i st).stage c).Live → (s.stage c).Live := by
    intro c hc
    by_cases hci : c = i
    · rwa [hci]
    · rwa [goto_stage_of_ne hci] at hc
  exact hs.distinct a b (hold a ha) (hold b hb) htgid

/-- No process prints for another one under its own id, where it has not and does not now. -/
theorem Inv.own_emits (hs : s.Inv K proc) {k : κ} {lines : List (Line ι)}
    (hemits : K.Emits s.kernel k lines)
    (hlines : ∀ x ∈ lines, (proc x.task).tgid = (proc x.program).tgid → x.task = x.program) :
    ∀ x ∈ K.trace k ++ K.discarded k,
      (proc x.task).tgid = (proc x.program).tgid → x.task = x.program := by
  intro x hx
  -- The kernel makes up no lines, also where it moves some from the trace to the discarded ones.
  rcases List.mem_append.mp (hemits.all.mem_iff.mp hx) with hold | hnew
  · exact hs.own x hold
  · exact hlines x hnew

theorem Inv.call (hK : K.Documented proc) (hs : s.Inv K proc) (hlive : (s.stage i).Live)
    (tid : BitVec 32) (sc : Syscall) : (s.call K i tid sc).Inv K proc where
  good := hs.good.enter hK i tid sc
  logged j := (hs.logged j).append (by simp) (by simp)
  set := hs.set
  distinct := hs.distinct
  own := by
    refine hs.own_emits (hK.emits_enter i tid sc s.kernel) fun x hx htgid => ?_
    -- a new line: the program's process and the caller both live, so one id means one process
    obtain ⟨l, hl, hx⟩ := List.mem_flatMap.mp hx
    have hprogram := program_of_mem_answer hx
    obtain ⟨_, _, htask⟩ := task_of_mem_answer hx
    cases htask
    rw [hprogram] at htgid ⊢
    exact hs.distinct _ _ hlive (hs.live_of_mem hl) htgid

/-- Only statements read what is written and what the library has returned. -/
theorem Inv.of_eq (hs : s.Inv K proc) (hkernel : s'.kernel = s.kernel) (hlog : s'.log = s.log)
    (hstage : s'.stage = s.stage) : s'.Inv K proc where
  good := by rw [hkernel, hlog]; exact hs.good
  logged := by rw [hstage, hlog]; exact hs.logged
  set := by rw [hstage]; exact hs.set
  distinct := by rw [hstage]; exact hs.distinct
  own := by rw [hkernel]; exact hs.own

theorem Inv.vfprintf (hK : K.Documented proc) (hs : s.Inv K proc) (hlive : (s.stage i).Live)
    (w : Writer) (text : String) : (s.vfprintf K proc i w text).Inv K proc :=
  (hs.call hK hlive (proc i).tgid .write).of_eq rfl rfl rfl

theorem Inv.printf (hK : K.Documented proc) (hs : s.Inv K proc) (hlive : (s.stage i).Live)
    (text : String) : (s.printf K proc i text).Inv K proc := by
  rw [System.printf]
  split
  · exact (hs.call hK hlive (proc i).tgid .write).of_eq rfl rfl rfl
  · exact hs

theorem Inv.returns (hs : s.Inv K proc) (c : Call) (err : BitVec 32) :
    (s.returns i c err).Inv K proc :=
  hs.of_eq rfl rfl rfl

/-- A process goes on to another place of `main`. -/
theorem Inv.goto (hs : s.Inv K proc) {m m' : Main} (hm : s.stage i = .main m)
    (hattached : (Stage.main m').Attached ↔ (Stage.main m).Attached)
    (hearly : (Stage.main m').Early → (Stage.main m).Early)
    (hset : (Stage.main m').Set (proc i)) : (s.goto i (.main m')).Inv K proc where
  good := hs.good
  logged := by
    have h := hs.logged i
    rw [hm] at h
    exact forall_goto (P := fun j st => st.Logged j s.log) _
      ⟨h.attached.trans hattached.symm, fun he => h.early (hearly he)⟩ fun j _ => hs.logged j
  set := forall_goto (P := fun j st => st.Set (proc j)) _ hset fun j _ => hs.set j
  distinct := hs.distinct_goto (hm ▸ trivial) _
  own := hs.own

/-- A process links its program, with `my_pid` as it has set it. -/
theorem Inv.attach (hK : K.Documented proc) (hs : s.Inv K proc) {my_pid : BitVec 32}
    (hm : s.stage i = .main (.attaching my_pid)) {t : Tool} (ht : (proc i).tool = some t) :
    ((s.attach K i t my_pid).goto i (.main .enabling)).Inv K proc := by
  -- `main` comes here once, so this is its first attachment, and nothing has been closed.
  have hfresh : .attach i ∉ s.log ∧ .close i ∉ s.log := (hs.logged i).early (hm ▸ trivial)
  have hpid : my_pid = t.my_pid (proc i) := by
    have h := hs.set i t ht
    rwa [hm] at h
  have hevent : (Event.attach i).Fresh s.log := by
    rintro j h
    cases h
    exact hfresh
  refine ⟨?_, ?_, ?_, ?_, ?_⟩
  · rw [hpid]
    exact hs.good.attach hK (by simp [linkOf, ht]) hevent
  · refine forall_goto (P := fun j st => st.Logged j (s.log ++ [.attach i])) _ ?_ ?_
    · exact ⟨iff_of_true ((attached_append hevent).mpr (.inl rfl)) trivial, fun he => absurd he id⟩
    · intro j hj
      exact (hs.logged j).append (by simpa using Ne.symm hj) (by simp)
  · exact forall_goto (P := fun j st => st.Set (proc j)) _ (fun _ _ => trivial) fun j _ => hs.set j
  · exact hs.distinct_goto (hm ▸ trivial) _
  · exact hs.own_emits (hK.emits_attach _ s.kernel) fun _ hx => absurd hx List.not_mem_nil

/-- A process closes its link. -/
theorem Inv.close (hK : K.Documented proc) (hs : s.Inv K proc) (hlive : (s.stage i).Live)
    {st : Stage} (hattached : ¬ st.Attached) (hearly : ¬ st.Early) (hset : st.Set (proc i)) :
    ((s.close K i).goto i st).Inv K proc where
  good := hs.good.close hK i
  logged := by
    refine forall_goto (P := fun j st => st.Logged j (s.log ++ [.close i])) _
      (Stage.logged_close hattached hearly s.log) fun j hj => ?_
    exact (hs.logged j).append (by simp) (by simpa using Ne.symm hj)
  set := forall_goto (P := fun j st => st.Set (proc j)) _ hset fun j _ => hs.set j
  distinct := hs.distinct_goto hlive _
  own := hs.own_emits (hK.emits_close i s.kernel) fun _ hx => absurd hx List.not_mem_nil

theorem Inv.exit (hK : K.Documented proc) (hs : s.Inv K proc) (hlive : (s.stage i).Live)
    (status : Option (BitVec 8)) : (s.exit K i status).Inv K proc :=
  hs.close hK hlive id id fun _ _ => trivial

theorem Inv.spawn (hs : s.Inv K proc) (hnew : s.stage i = .unborn)
    (hid : ∀ j, (s.stage j).Live → (proc j).tgid ≠ (proc i).tgid) :
    (s.spawn proc i).Inv K proc where
  good := hs.good
  logged := by
    have h := hs.logged i
    rw [hnew] at h
    refine forall_goto (P := fun j st => st.Logged j s.log) _ ?_ fun j _ => hs.logged j
    split
    · exact ⟨h.attached, fun _ => h.early trivial⟩
    · exact ⟨h.attached, fun _ => h.early trivial⟩
  set := by
    refine forall_goto (P := fun j st => st.Set (proc j)) _ ?_ fun j _ => hs.set j
    split <;> exact fun _ _ => trivial
  distinct a b ha hb htgid := by
    -- An id that is in use is not given out again (`hid`).
    rw [System.spawn] at ha hb
    by_cases hai : a = i
    · by_cases hbi : b = i
      · rw [hai, hbi]
      · rw [goto_stage_of_ne hbi] at hb
        exact absurd (hai ▸ htgid).symm (hid b hb)
    · rw [goto_stage_of_ne hai] at ha
      by_cases hbi : b = i
      · exact absurd (hbi ▸ htgid) (hid a ha)
      · rw [goto_stage_of_ne hbi] at hb
        exact hs.distinct a b ha hb htgid
  own := hs.own

theorem Inv.kernel (hs : s.Inv K proc) {k : κ} (hlinks : K.links k = K.links s.kernel)
    (hemits : K.Emits s.kernel k []) : ({ s with kernel := k } : System ι κ).Inv K proc where
  good := hs.good.lose hlinks hemits
  logged := hs.logged
  set := hs.set
  distinct := hs.distinct
  own := hs.own_emits hemits fun _ hx => absurd hx List.not_mem_nil

/-! ## `main` -/

omit [DecidableEq ι] in
theorem printf_stage (text : String) : (s.printf K proc i text).stage = s.stage := by
  rw [System.printf]
  split <;> rfl

omit [DecidableEq ι] in
theorem printfs_stage (texts : List String) :
    (texts.foldl (fun s text => s.printf K proc i text) s).stage = s.stage := by
  induction texts generalizing s with
  | nil => rfl
  | cons text texts ih => rw [List.foldl_cons, ih, printf_stage]

theorem Inv.printfs (hK : K.Documented proc) (hs : s.Inv K proc) (hlive : (s.stage i).Live)
    (texts : List String) : (texts.foldl (fun s text => s.printf K proc i text) s).Inv K proc := by
  induction texts generalizing s with
  | nil => exact hs
  | cons text texts ih =>
      rw [List.foldl_cons]
      exact ih (hs.printf hK hlive text) (by rwa [printf_stage])

/-- `main` reports the error of a call and goes on to its end. -/
theorem Inv.fail (hK : K.Documented proc) (hs : s.Inv K proc) {m : Main} (hm : s.stage i = .main m)
    (hn : ¬ (Stage.main m).Attached) (c : Call) (err : BitVec 32) (text : String)
    (status : BitVec 32) :
    (((s.returns i c err).fprintf K proc i text).goto i (.main (.returning status))).Inv K proc :=
  ((hs.returns c err).vfprintf hK (hm ▸ trivial) .main text).goto hm (iff_of_false id hn)
    (fun he => absurd he id) fun _ _ => trivial

/-- Each step of `main` keeps the invariant. -/
theorem Inv.main (hK : K.Documented proc) (hs : s.Inv K proc) {t : Tool} (ht : (proc i).tool = some t)
    {m : Main} (hm : s.stage i = .main m) (err : BitVec 32) :
    (main K proc t.source i m err s).Inv K proc := by
  have hlive : (s.stage i).Live := hm ▸ trivial
  have hset := hs.set i t ht
  rw [hm] at hset
  cases m with
  | opening =>
      rw [Tracing.main]
      split
      · exact hs.fail hK hm id _ _ _ _
      · -- Only `minimal` stops to set `my_pid`; `hello` has 0 in its place.
        cases t with
        | minimal =>
            exact (hs.returns .open 0).goto hm Iff.rfl (fun _ => trivial)
              fun t' ht' => Option.some.inj (ht'.symm.trans ht)
        | hello =>
            refine (hs.returns .open 0).goto hm Iff.rfl (fun _ => trivial) fun t' ht' => ?_
            cases ht.symm.trans ht'
            rfl
  | setting =>
      refine hs.goto hm Iff.rfl (fun _ => trivial) fun t' ht' => ?_
      cases ht.symm.trans ht'
      rw [hset]
      rfl
  | loading my_pid =>
      rw [Tracing.main]
      split
      · exact hs.fail hK hm id _ _ _ _
      · refine (hs.returns .load 0).goto hm Iff.rfl (fun _ => trivial) fun t' ht' => ?_
        cases ht.symm.trans ht'
        exact hset
  | attaching my_pid =>
      rw [Tracing.main]
      split
      · exact hs.goto hm Iff.rfl (fun he => absurd he id) fun _ _ => trivial
      · have htool : t.source.tool = t := by cases t <;> rfl
        rw [htool]
        exact hs.attach hK hm ht
  | enabling =>
      rw [Tracing.main]
      split
      · -- libbpf closes the link itself, before `main` hears of the error.
        exact hs.close hK hlive id id fun _ _ => trivial
      · exact (hs.returns .attach 0).goto hm Iff.rfl (fun he => absurd he id) fun _ _ => trivial
  | closed e => exact hs.fail hK hm id _ _ _ _
  | greeting =>
      have hstage : (t.source.greeting.foldl (fun s text => s.printf K proc i text) s).stage i =
          .main .greeting := by rw [printfs_stage, hm]
      exact (hs.printfs hK hlive _).goto hstage Iff.rfl (fun he => absurd he id) fun _ _ => trivial
  | looping =>
      rw [Tracing.main]
      split
      · exact hs.vfprintf hK hlive _ _
      · exact hs
  | returning status => exact hs.exit hK hlive _

theorem Inv.step (hK : K.Documented proc) (hs : s.Inv K proc) (hstep : Step K proc s s') :
    s'.Inv K proc := by
  cases hstep with
  | spawn i hnew hid => exact hs.spawn hnew hid
  | minimal i m err htool hm => exact hs.main hK htool hm err
  | hello i m err htool hm => exact hs.main hK htool hm err
  | libbpf_print_fn i m text hm => exact hs.vfprintf hK (hm ▸ trivial) .libbpf text
  | call i tid sc hlive => exact hs.call hK hlive tid sc
  | kill i hlive => exact hs.exit hK hlive none
  | kernel k hlinks hemits => exact hs.kernel hlinks hemits

theorem inv_of_reachable (hK : K.Documented proc) (h : Reachable K proc s) : s.Inv K proc := by
  obtain ⟨k, hk, hrun⟩ := h
  induction hrun with
  | refl => exact inv_boot hk
  | tail _ hstep ih => exact ih.step hK hstep

end System

/-! ## Runs of one `main` -/

/-- `main` goes through places in a row, with what the library gives there. -/
def goOn (K : Kernel ι κ) (proc : ι → Process) (t : Tool) (i : ι) :
    System ι κ → List (Main × BitVec 32) → System ι κ
  | s, [] => s
  | s, (m, err) :: places => goOn K proc t i (main K proc t.source i m err s) places

/-- These are the places that it comes to. -/
def Comes (K : Kernel ι κ) (proc : ι → Process) (t : Tool) (i : ι) :
    System ι κ → List (Main × BitVec 32) → Prop
  | _, [] => True
  | s, (m, err) :: places =>
      s.stage i = .main m ∧ Comes K proc t i (main K proc t.source i m err s) places

theorem Reachable.tail (h : Reachable K proc s) (hstep : Step K proc s s') : Reachable K proc s' := by
  obtain ⟨k, hk, hrun⟩ := h
  exact ⟨k, hk, hrun.tail hstep⟩

theorem reachable_goOn {t : Tool} (ht : (proc i).tool = some t) {places : List (Main × BitVec 32)}
    (h : Reachable K proc s) (hcomes : Comes K proc t i s places) :
    Reachable K proc (goOn K proc t i s places) := by
  induction places generalizing s with
  | nil => exact h
  | cons place places ih =>
      obtain ⟨m, err⟩ := place
      refine ih (h.tail ?_) hcomes.2
      cases t with
      | minimal => exact .minimal i m err ht hcomes.1
      | hello => exact .hello i m err ht hcomes.1

end Tracing
end HelloEbpf
