import HelloEbpf.During
import HelloEbpf.Tracing.Handlers

/-!
# Kernel — programs attached to tracepoints

The kernel is not here.  `Kernel` is the part of it that the two programs meet, and
`Kernel.Documented` is what is known of that: there is a link for every program that is attached, a
program runs whenever a thread enters the system call that it is attached to, and each line that it
prints is appended to the trace, or discarded.  `discarded` has every line that is not in the trace:
what is printed "while `/sys/kernel/tracing/trace` is open", what is overwritten before anybody
reads it, what a program was not run for.

A call and what the programs do about it are one step, and the log keeps every attachment, call and
closing; only statements read it.  `Kernel.Good` says what a program's lines are: its answers to the
calls made from its attachment on and until its link is closed.  In the trace they are in the order
of the calls, and those that the trace lacks are discarded.
-/

namespace HelloEbpf
namespace Tracing

open During

/-- The system calls whose tracepoints `sys_enter_write` and `sys_enter_openat` are in use. -/
inductive Syscall where
  | write
  | openat
  deriving DecidableEq

inductive Tool where
  | minimal
  | hello
  deriving DecidableEq

/-- A process: its id for the kernel, the id that `getpid()` gives it in its own namespace, what it
runs, and whether its standard output is a terminal. -/
structure Process where
  tgid : BitVec 32
  getpid : BitVec 32
  tool : Option Tool
  terminal : Bool

namespace Tool

/-- The section `SEC("tp/syscalls/...")` of the program. -/
def tracepoint : Tool → Syscall
  | .minimal => .write
  | .hello => .openat

def handle_tp (t : Tool) (task : Task) (my_pid : BitVec 32) : List String :=
  match t with
  | .minimal => (Minimal.handle_tp task my_pid).1
  | .hello => (Hello.handle_tp task).1

/-- The variable `my_pid` when the program is loaded; `hello` has none. -/
def my_pid (t : Tool) (p : Process) : BitVec 32 :=
  match t with
  | .minimal => p.getpid
  | .hello => 0

end Tool

variable {ι κ : Type*}

/-- An attached program and the process that holds its link. -/
structure Link (ι : Type*) where
  owner : ι
  tool : Tool
  my_pid : BitVec 32

/-- A line that a program prints: in which process, who had attached the program, the text. -/
structure Line (ι : Type*) where
  task : ι
  program : ι
  text : String
  deriving DecidableEq

/-- What the log keeps; a process closes its link at its end, where it has not done so before. -/
inductive Event (ι : Type*) where
  | attach (i : ι)
  | call (i : ι) (tid : BitVec 32) (sc : Syscall)
  | close (i : ι)
  deriving DecidableEq

variable (proc : ι → Process)

/-- The lines that an attached program has to print when something happens. -/
def Link.answer (l : Link ι) : Event ι → List (Line ι)
  | .call i tid sc =>
      if l.tool.tracepoint = sc then
        (l.tool.handle_tp ⟨(proc i).tgid, tid⟩ l.my_pid).map fun text => ⟨i, l.owner, text⟩
      else
        []
  | _ => []

/-- A kernel whose states are `κ`. -/
structure Kernel (ι κ : Type*) where
  links : κ → List (Link ι)
  trace : κ → List (Line ι)
  discarded : κ → List (Line ι)
  attach : Link ι → κ → κ
  enter : ι → BitVec 32 → Syscall → κ → κ
  close : ι → κ → κ

variable [DecidableEq ι] {K : Kernel ι κ} {k k' : κ} {i j : ι} {e : Event ι}
variable {log : List (Event ι)} {lines : List (Line ι)}

namespace Kernel

variable (K)

/-- The kernel has gone from `k` to `k'`, and `lines` were to be printed on the way: nothing gets
lost but what is discarded, and what a program prints comes after what it has printed before. -/
structure Emits (k k' : κ) (lines : List (Line ι)) : Prop where
  trace : ∀ j, ((K.trace k').filter (·.program = j)).Sublist
    ((K.trace k ++ lines).filter (·.program = j))
  all : (K.trace k' ++ K.discarded k').Perm (K.trace k ++ K.discarded k ++ lines)

/-- "Each time the helper is called, it appends a line to the trace. Lines are discarded while
*/sys/kernel/tracing/trace* is open" (`bpf_helper_defs.h`). -/
structure Documented : Prop where
  links_attach (l : Link ι) (k : κ) : K.links (K.attach l k) = K.links k ++ [l]
  links_enter (i : ι) (tid : BitVec 32) (sc : Syscall) (k : κ) :
    K.links (K.enter i tid sc k) = K.links k
  links_close (i : ι) (k : κ) : K.links (K.close i k) = (K.links k).filter (·.owner ≠ i)
  emits_attach (l : Link ι) (k : κ) : K.Emits k (K.attach l k) []
  emits_enter (i : ι) (tid : BitVec 32) (sc : Syscall) (k : κ) :
    K.Emits k (K.enter i tid sc k) ((K.links k).flatMap fun l => l.answer proc (.call i tid sc))
  emits_close (i : ι) (k : κ) : K.Emits k (K.close i k) []

/-- Neither of the two programs is attached, and none has been. -/
structure Fresh (k : κ) : Prop where
  links : K.links k = []
  trace : K.trace k = []
  discarded : K.discarded k = []

end Kernel

/-- The link of a process that has its program attached. -/
def linkOf (j : ι) : List (Link ι) :=
  ((proc j).tool.map fun t => ⟨j, t, t.my_pid (proc j)⟩).toList

/-- Whether the `j`-th process has its program attached. -/
def Attached (j : ι) (log : List (Event ι)) : Prop :=
  Open (.attach j) (.close j) log

instance (j : ι) (log : List (Event ι)) : Decidable (Attached j log) :=
  inferInstanceAs (Decidable (Open _ _ _))

/-- What happened while the `j`-th process had its program attached. -/
def whileAttached (j : ι) (log : List (Event ι)) : List (Event ι) :=
  during (.attach j) (.close j) log

/-- What the program of the `j`-th process had to print. -/
def printed (j : ι) (log : List (Event ι)) : List (Line ι) :=
  (whileAttached j log).flatMap fun e => (linkOf proc j).flatMap fun l => l.answer proc e

namespace Kernel

/-- Of the lines that the program of the `j`-th process had to print, some are in the trace, in their
order, and the others are discarded. -/
structure Shows (K : Kernel ι κ) (k : κ) (j : ι) (lines : List (Line ι)) : Prop where
  trace : ((K.trace k).filter (·.program = j)).Sublist lines
  all : ((K.trace k ++ K.discarded k).filter (·.program = j)).Perm lines

structure Good (K : Kernel ι κ) (k : κ) (log : List (Event ι)) : Prop where
  ordered : ∀ j, Ordered (.attach j) (.close j) log
  links : ∀ j, (K.links k).filter (·.owner = j) = if Attached j log then linkOf proc j else []
  shows : ∀ j, K.Shows k j (printed proc j log)

end Kernel

/-! ## Every operation keeps the kernel good -/

section Keeps

variable {proc}

omit [DecidableEq ι] in
theorem program_of_mem_answer {l : Link ι} {x : Line ι} (hx : x ∈ l.answer proc e) :
    x.program = l.owner := by
  cases e with
  | call i tid sc =>
      simp only [Link.answer] at hx
      split at hx
      · obtain ⟨text, _, rfl⟩ := List.mem_map.mp hx
        rfl
      · cases hx
  | attach i => cases hx
  | close i => cases hx

omit [DecidableEq ι] in
theorem task_of_mem_answer {l : Link ι} {x : Line ι} (hx : x ∈ l.answer proc e) :
    ∃ tid sc, e = .call x.task tid sc := by
  cases e with
  | call i tid sc =>
      simp only [Link.answer] at hx
      split at hx
      · obtain ⟨text, _, rfl⟩ := List.mem_map.mp hx
        exact ⟨tid, sc, rfl⟩
      · cases hx
  | attach i => cases hx
  | close i => cases hx

/-- The lines of one owner among those of all the links. -/
theorem filter_answers (links : List (Link ι)) (e : Event ι) (j : ι) :
    (links.flatMap fun l => l.answer proc e).filter (·.program = j) =
      (links.filter (·.owner = j)).flatMap fun l => l.answer proc e := by
  induction links with
  | nil => rfl
  | cons l links ih =>
      rw [List.flatMap_cons, List.filter_append, ih]
      -- A line bears the owner of the link that prints it, so a link keeps all of its lines or none.
      by_cases hl : l.owner = j
      · have hall : (l.answer proc e).filter (·.program = j) = l.answer proc e := by
          rw [List.filter_eq_self]
          intro x hx
          simpa [program_of_mem_answer hx] using hl
        rw [hall, List.filter_cons_of_pos (by simpa using hl), List.flatMap_cons]
      · have hnone : (l.answer proc e).filter (·.program = j) = [] := by
          rw [List.filter_eq_nil_iff]
          intro x hx
          simpa [program_of_mem_answer hx] using hl
        rw [hnone, List.filter_cons_of_neg (by simpa using hl), List.nil_append]

/-- A process attaches its program at most once, and never after it has closed its link. -/
def Event.Fresh (e : Event ι) (log : List (Event ι)) : Prop :=
  ∀ j, e = .attach j → .attach j ∉ log ∧ .close j ∉ log

omit [DecidableEq ι] in
theorem fresh_call {tid : BitVec 32} {sc : Syscall} : (Event.call i tid sc).Fresh log := by
  intro j h
  cases h

omit [DecidableEq ι] in
theorem fresh_close : (Event.close i).Fresh log := by
  intro j h
  cases h

omit [DecidableEq ι] in
theorem attached_append (hfresh : e.Fresh log) :
    Attached j (log ++ [e]) ↔ e = .attach j ∨ Attached j log ∧ e ≠ .close j :=
  open_append_singleton (hfresh j) (by simp)

theorem whileAttached_append (hord : Ordered (.attach j) (.close j) log) (hfresh : e.Fresh log) :
    whileAttached j (log ++ [e]) =
      whileAttached j log ++ if e = .attach j ∨ Attached j log ∧ e ≠ .close j then [e] else [] :=
  during_append_singleton (hfresh j) (by simp) hord

namespace Kernel

/-- What is printed next is shown after what has been printed before. -/
theorem Shows.emits {lines' : List (Line ι)} (hk : K.Shows k j lines') (hemits : K.Emits k k' lines) :
    K.Shows k' j (lines' ++ lines.filter (·.program = j)) where
  trace := by
    have h := hemits.trace j
    rw [List.filter_append] at h
    exact h.trans (hk.trace.append_right _)
  all := by
    have h := hemits.all.filter fun x => decide (x.program = j)
    rw [List.filter_append (K.trace k ++ K.discarded k)] at h
    exact h.trans (hk.all.append_right _)

/-- Where nothing of it is discarded, all that a program had to print is in the trace. -/
theorem Shows.eq_of_discarded (hk : K.Shows k j lines)
    (hnone : ∀ x ∈ K.discarded k, x.program ≠ j) : (K.trace k).filter (·.program = j) = lines := by
  have hdiscarded : (K.discarded k).filter (·.program = j) = [] := by
    rw [List.filter_eq_nil_iff]
    simpa using hnone
  have hall := hk.all
  rw [List.filter_append, hdiscarded, List.append_nil] at hall
  -- A sublist that is as long as the list is the list.
  exact hk.trace.eq_of_length hall.length_eq

theorem Shows.mem (hk : K.Shows k j lines) {x : Line ι} (hx : x ∈ K.trace k ++ K.discarded k)
    (hj : x.program = j) : x ∈ lines :=
  hk.all.mem_iff.mp (List.mem_filter.mpr ⟨hx, by simpa using hj⟩)

theorem good_fresh (hk : K.Fresh k) : K.Good proc k [] where
  ordered _ := ordered_nil
  links _ := by
    rw [hk.links]
    exact (if_neg not_open_nil).symm
  shows _ := by
    refine ⟨?_, ?_⟩
    · rw [hk.trace]
      exact List.nil_sublist _
    · rw [hk.trace, hk.discarded]
      exact .nil

/-- One event more, where the attached programs print what they answer to it. -/
theorem Good.append (hk : K.Good proc k log) (hfresh : e.Fresh log) (hemits : K.Emits k k' lines)
    (hlines : ∀ j, lines.filter (·.program = j) =
      if Attached j log then (linkOf proc j).flatMap fun l => l.answer proc e else [])
    (hquiet : ∀ l : Link ι, e = .attach l.owner ∨ e = .close l.owner → l.answer proc e = [])
    (hlinks : ∀ j, (K.links k').filter (·.owner = j) =
      if Attached j (log ++ [e]) then linkOf proc j else []) :
    K.Good proc k' (log ++ [e]) := by
  have hquietOf : ∀ j, e = .attach j ∨ e = .close j →
      ((linkOf proc j).flatMap fun l => l.answer proc e) = [] := by
    intro j he
    rw [List.flatMap_eq_nil_iff]
    intro l hl
    have howner : l.owner = j := by
      obtain ⟨t, _, rfl⟩ : ∃ t, (proc j).tool = some t ∧ (⟨j, t, t.my_pid (proc j)⟩ : Link ι) = l := by
        simpa [linkOf] using hl
      rfl
    exact hquiet l (howner ▸ he)
  have hprinted : ∀ j, printed proc j (log ++ [e]) =
      printed proc j log ++ lines.filter (·.program = j) := by
    intro j
    rw [printed, whileAttached_append (hk.ordered j) hfresh, List.flatMap_append, hlines j, printed]
    congr 1
    by_cases he : e = .attach j ∨ e = .close j
    · have hnone := hquietOf j he
      split <;> split <;> simp [hnone]
    · -- neither the attachment nor the closing: only an attached program answers
      simp only [not_or] at he
      by_cases hj : Attached j log <;> simp [he.1, he.2, hj]
  refine ⟨fun j => ordered_append_singleton (hfresh j) (hk.ordered j), hlinks, fun j => ?_⟩
  -- What has to be shown grows by what the kernel was given to print.
  rw [hprinted j]
  exact (hk.shows j).emits hemits

theorem Good.enter (hK : K.Documented proc) (hk : K.Good proc k log) (i : ι) (tid : BitVec 32)
    (sc : Syscall) : K.Good proc (K.enter i tid sc k) (log ++ [.call i tid sc]) := by
  refine hk.append fresh_call (hK.emits_enter i tid sc k) (fun j => ?_) (by simp) fun j => ?_
  · rw [filter_answers, hk.links j]
    split <;> rfl
  · rw [hK.links_enter, hk.links j]
    simp [attached_append fresh_call]

theorem Good.attach (hK : K.Documented proc) (hk : K.Good proc k log) {l : Link ι}
    (hl : linkOf proc l.owner = [l]) (hfresh : (Event.attach l.owner).Fresh log) :
    K.Good proc (K.attach l k) (log ++ [.attach l.owner]) := by
  refine hk.append hfresh (hK.emits_attach l k) (fun j => ?_) (fun _ _ => rfl) fun j => ?_
  · simp [Link.answer]
  · rw [hK.links_attach, List.filter_append, hk.links j]
    simp only [attached_append hfresh]
    by_cases hj : l.owner = j
    · -- It had no link before, and this is the one that it gets.
      subst hj
      simp [Attached, Open, (hfresh l.owner rfl).1, hl]
    · simp [hj]

theorem Good.close (hK : K.Documented proc) (hk : K.Good proc k log) (i : ι) :
    K.Good proc (K.close i k) (log ++ [.close i]) := by
  refine hk.append fresh_close (hK.emits_close i k) (fun j => ?_) (fun _ _ => rfl) fun j => ?_
  · simp [Link.answer]
  · rw [hK.links_close, List.filter_filter]
    simp only [attached_append fresh_close]
    by_cases hj : i = j
    · -- All the links of the process are gone, and it is no longer attached.
      subst hj
      simp
    · have hfilter : ((K.links k).filter fun l => decide (l.owner = j) && decide (l.owner ≠ i)) =
          (K.links k).filter (·.owner = j) := by
        apply List.filter_congr
        intro l _
        by_cases hl : l.owner = j
        · simp [hl, Ne.symm hj]
        · simp [hl]
      rw [hfilter, hk.links j]
      simp [hj]

/-- Whatever else goes on in the kernel, where nothing is attached, closed or printed. -/
theorem Good.lose (hk : K.Good proc k log) (hlinks : K.links k' = K.links k)
    (hemits : K.Emits k k' []) : K.Good proc k' log where
  ordered := hk.ordered
  links j := by
    rw [hlinks]
    exact hk.links j
  shows j := by
    have h := (hk.shows j).emits hemits
    rwa [List.filter_nil, List.append_nil] at h

/-- A link's owner has its program attached. -/
theorem Good.attached_of_mem (hk : K.Good proc k log) {l : Link ι} (hl : l ∈ K.links k) :
    Attached l.owner log := by
  have hmem : l ∈ (K.links k).filter (·.owner = l.owner) := by simpa using hl
  rw [hk.links] at hmem
  -- Of a process that is not attached there are no links at all.
  by_contra hn
  simp [hn] at hmem

theorem Good.mem_links (hk : K.Good proc k log) {t : Tool} (ht : (proc j).tool = some t)
    (hj : Attached j log) : ⟨j, t, t.my_pid (proc j)⟩ ∈ K.links k := by
  have hlinks := hk.links j
  rw [if_pos hj] at hlinks
  have hmem : (⟨j, t, t.my_pid (proc j)⟩ : Link ι) ∈ linkOf proc j := by simp [linkOf, ht]
  rw [← hlinks] at hmem
  exact (List.mem_filter.mp hmem).1

end Kernel

end Keeps

/-! ## A kernel -/

/-- The files `trace_pipe` and `trace`, by what they have to show, and whether the latter is open. -/
structure Tracefs (ι : Type*) where
  links : List (Link ι)
  trace : List (Line ι)
  discarded : List (Line ι)
  isOpen : Bool

namespace Tracefs

def print (lines : List (Line ι)) (t : Tracefs ι) : Tracefs ι :=
  if t.isOpen then
    { t with discarded := t.discarded ++ lines }
  else
    { t with trace := t.trace ++ lines }

/-- Lines are discarded while the trace is open. -/
def kernel : Kernel ι (Tracefs ι) where
  links := Tracefs.links
  trace := Tracefs.trace
  discarded := Tracefs.discarded
  attach l t := { t with links := t.links ++ [l] }
  enter i tid sc t := t.print (t.links.flatMap fun l => l.answer proc (.call i tid sc))
  close i t := { t with links := t.links.filter (·.owner ≠ i) }

def empty : Tracefs ι :=
  ⟨[], [], [], false⟩

variable {proc}

theorem emits_print (lines : List (Line ι)) (t : Tracefs ι) :
    (kernel proc).Emits t (t.print lines) lines := by
  cases hopen : t.isOpen with
  | true =>
      have hprint : t.print lines = { t with discarded := t.discarded ++ lines } := if_pos hopen
      rw [hprint]
      refine ⟨fun j => ?_, ?_⟩
      · exact (List.sublist_append_left t.trace lines).filter _
      · simp [kernel]
  | false =>
      have hprint : t.print lines = { t with trace := t.trace ++ lines } := if_neg (by simp [hopen])
      rw [hprint]
      refine ⟨fun j => List.Sublist.refl _, ?_⟩
      simp only [kernel, List.append_assoc]
      exact List.perm_append_comm.append_left t.trace

theorem emits_nothing {t t' : Tracefs ι} (htrace : t'.trace = t.trace)
    (hdiscarded : t'.discarded = t.discarded) : (kernel proc).Emits t t' [] := by
  refine ⟨fun j => ?_, ?_⟩
  · simp [kernel, htrace]
  · simp [kernel, htrace, hdiscarded]

omit [DecidableEq ι] in
theorem links_print (lines : List (Line ι)) (t : Tracefs ι) : (t.print lines).links = t.links := by
  rw [print]
  split <;> rfl

theorem documented : (kernel proc).Documented proc where
  links_attach _ _ := rfl
  links_enter _ _ _ t := links_print _ t
  links_close _ _ := rfl
  emits_attach _ _ := emits_nothing rfl rfl
  emits_enter _ _ _ t := emits_print _ t
  emits_close _ _ := emits_nothing rfl rfl

theorem fresh_empty : (kernel proc).Fresh (empty : Tracefs ι) :=
  ⟨rfl, rfl, rfl⟩

end Tracefs

end Tracing
end HelloEbpf
