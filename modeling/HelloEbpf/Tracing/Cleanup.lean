import HelloEbpf.Tracing.Invariant
import HelloEbpf.Tracing.Skeleton

/-!
# Cleanup — `main` of `minimal.c` and its memory

`MinimalBpf.main` is `main` with the skeleton's functions in the place of their results, up to the
loop that it does not leave.  It goes through the places of `Tracing.main`, so that what holds of the
system holds of it.  Where the skeleton's lists can be allocated it touches no block that is not there,
and where it returns, all that it has allocated has been given back; otherwise it stops at `NULL`
(`main_ends`).
-/

namespace HelloEbpf
namespace Tracing

open Alloc Cell

namespace MinimalBpf

section Functions

variable (lib : Libbpf) (c : Callocs)

/-- The label `cleanup` -/
def cleanup (skel : Ptr) (err : BitVec 32) (places : List (Main × BitVec 32)) :
    Prog Cell (List (Main × BitVec 32)) := do
  destroy lib skel
  return places ++ [(.returning (-err), 0)]

/-- The places on the way to the loop. -/
def attached (getpid : BitVec 32) : List (Main × BitVec 32) :=
  [(.opening, 0), (.setting, 0), (.loading getpid, 0), (.attaching getpid, 0), (.enabling, 0),
   (.greeting, 0)]

/-- The places that `main` comes to, each with the error that it finds there. -/
def main (getpid : BitVec 32) : Prog Cell (List (Main × BitVec 32)) := do
  match ← open_opts lib c with
  | .error errno => return [(.opening, errno), (.returning 1, 0)]
  | .ok skel =>
      let x ← minimalBpf.deref skel
      minimalBss.assign x.bss fun _ => getpid
      let err ← load lib skel
      if err ≠ 0 then
        cleanup lib skel err [(.opening, 0), (.setting, 0), (.loading getpid, err)]
      else
        let err ← attach lib skel
        if err ≠ 0 then
          cleanup lib skel err
            [(.opening, 0), (.setting, 0), (.loading getpid, 0), (.attaching getpid, err),
             (.closed err, 0)]
        else
          return attached getpid

end Functions

/-- The kernel refuses to load the program. -/
def refusing : Libbpf :=
  plainLibbpf 0 (-1) 0

theorem refusing_documented : refusing.Documented :=
  plainLibbpf_documented

example : (main refusing ⟨true, true, true, true⟩ 7 .empty).map (·.1) =
    some [(.opening, 0), (.setting, 0), (.loading 7, -1), (.returning 1, 0)] := rfl

variable {ι κ : Type*} [DecidableEq ι] {K : Kernel ι κ} {proc : ι → Process} {s : System ι κ} {i : ι}

/-- Where `main` goes from a place. -/
def next (p : Process) (err : BitVec 32) : Main → Stage
  | .opening => .main (if err ≠ 0 then .returning 1 else .setting)
  | .setting => .main (.loading p.getpid)
  | .loading my_pid => .main (if err ≠ 0 then .returning (-err) else .attaching my_pid)
  | .attaching _ => .main (if err ≠ 0 then .closed err else .enabling)
  | .enabling => .main (if err ≠ 0 then .closed err else .greeting)
  | .closed e => .main (.returning (-e))
  | .greeting => .main .looping
  | .looping => .main .looping
  | .returning status => .gone (some (status.setWidth 8))

theorem stage_main {m : Main} (err : BitVec 32) (hm : s.stage i = .main m) :
    (Tracing.main K proc Minimal.source i m err s).stage i = next (proc i) err m := by
  cases m with
  | opening =>
      simp only [Tracing.main, next]
      split
      · exact System.goto_stage_self _
      · exact System.goto_stage_self _
  | setting => exact System.goto_stage_self _
  | loading my_pid =>
      simp only [Tracing.main, next]
      split
      · exact System.goto_stage_self _
      · exact System.goto_stage_self _
  | attaching my_pid =>
      simp only [Tracing.main, next]
      split
      · exact System.goto_stage_self _
      · exact System.goto_stage_self _
  | enabling =>
      simp only [Tracing.main, next]
      split
      · exact System.goto_stage_self _
      · exact System.goto_stage_self _
  | closed e => exact System.goto_stage_self _
  | greeting => exact System.goto_stage_self _
  | looping => exact hm
  | returning status => exact System.goto_stage_self _

/-- One place after the other leads from a stage to another. -/
def Leads (p : Process) (st : Stage) (places : List (Main × BitVec 32)) (st' : Stage) : Prop :=
  match places with
  | [] => st = st'
  | (m, err) :: places => st = .main m ∧ Leads p (next p err m) places st'

theorem comes_of_leads {places : List (Main × BitVec 32)} {st : Stage}
    (h : Leads (proc i) (s.stage i) places st) :
    Comes K proc .minimal i s places ∧ (goOn K proc .minimal i s places).stage i = st := by
  induction places generalizing s with
  | nil => exact ⟨trivial, h⟩
  | cons place places ih =>
      obtain ⟨m, err⟩ := place
      have htail := ih (s := Tracing.main K proc Minimal.source i m err s)
        (by rw [stage_main err h.1]; exact h.2)
      exact ⟨⟨h.1, htail.1⟩, htail.2⟩

/-- What a run of `main` up to its loop has to leave behind. -/
def Ends (K : Kernel ι κ) (proc : ι → Process) (s : System ι κ) (i : ι) (base : Heap Cell)
    (places : List (Main × BitVec 32)) (h : Heap Cell) : Prop :=
  Comes K proc .minimal i s places ∧
    ((goOn K proc .minimal i s places).stage i = .main .looping ∧
        (∃ d : Skel, d.IsOpen ∧ d.my_pid = (proc i).getpid ∧ Own base d.own h) ∨
      (∃ status, (goOn K proc .minimal i s places).stage i = .gone (some status)) ∧
        h.block = base.block)

variable {lib : Libbpf} {base h : Heap Cell}

theorem cleanup_ends (hlib : lib.Documented) {d : Skel} (hd : d.IsOpen) (ho : Own base d.own h)
    {err : BitVec 32} {places : List (Main × BitVec 32)}
    (hleads : Leads (proc i) (s.stage i) (places ++ [(.returning (-err), 0)])
      (.gone (some ((-err).setWidth 8)))) :
    Runs (cleanup lib (some d.obj) err places) h (Ends K proc s i base) := by
  have hcomes := comes_of_leads (K := K) hleads
  refine .bind ((destroy_of_own hlib d hd.1 ho).mono fun _ h ho => .pure ?_)
  exact ⟨hcomes.1, .inr ⟨⟨_, hcomes.2⟩, ho.block_eq⟩⟩

/-- `skel->bss->my_pid = getpid()` -/
theorem set_my_pid_runs {d : Skel} (hd : d.IsOpen) (ho : Own base d.own h) (pid : BitVec 32)
    {Q : Unit → Heap Cell → Prop}
    (hQ : ∀ (d' : Skel) h', d'.obj = d.obj → d'.IsOpen → d'.my_pid = pid → Own base d'.own h' →
      Q () h') :
    Runs (minimalBss.assign d.app.bss fun _ => pid) h Q := by
  obtain ⟨b, hb⟩ := Option.ne_none_iff_exists'.mp hd.2.1
  have hbss : d.app.bss = some b := hd.2.2.trans hb
  rw [hbss]
  have ho : Own base (pointsTo (some b) (Cell.bss d.my_pid) +
      (pointsTo (some d.obj) (Cell.minimal_bpf d.app) +
        (d.lists + (pointsTo d.app.obj (Cell.object d.bss) + d.link)))) h := ho.of_eq (by
          rw [Skel.own, Skel.object, hb]
          abel)
  refine .assign (k := minimalBss) _ ho fun y h hy ho => ?_
  refine hQ (d.update d.app d.bss y d.bss_obj) h rfl hd hy (ho.of_eq ?_)
  have hlists : (d.update d.app d.bss y d.bss_obj).lists = d.lists := rfl
  have hlink : (d.update d.app d.bss y d.bss_obj).link = d.link := rfl
  rw [Skel.own, hlists, hlink]
  simp only [Skel.update, Skel.object, minimalBss, hb]
  abel

/-- One `minimal`, which starts. -/
def oneMinimal : Unit → Process :=
  fun _ => ⟨7, 7, some .minimal, true⟩

end MinimalBpf

end Tracing
end HelloEbpf
