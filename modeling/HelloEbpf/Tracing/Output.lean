import HelloEbpf.Tracing.Invariant

/-!
# Output — what the tools print, in every run of the system

The lines that an attached program has to print are read off the log of the system calls
(`minimal_lines`, `hello_lines`); each of them is in the trace or discarded.  `minimal` is meant to
print for its own process only, and does where `getpid()` gives the id that the kernel uses
(`own_lines`); in another pid namespace it prints for whichever process has that id.
-/

namespace HelloEbpf
namespace Tracing

variable {ι κ : Type*} [DecidableEq ι] {K : Kernel ι κ} {proc : ι → Process} {s s' : System ι κ}
variable {i j : ι}

/-! ## The trace -/

/-- The process that enters a system call, where the event is that. -/
def Event.caller (sc : Syscall) : Event ι → Option ι
  | .call i _ sc' => if sc' = sc then some i else none
  | _ => none

/-- The processes that entered a system call, in order. -/
def callers (sc : Syscall) (log : List (Event ι)) : List ι :=
  log.filterMap (Event.caller sc)

omit [DecidableEq ι] in
theorem callers_append (sc : Syscall) (log log' : List (Event ι)) :
    callers sc (log ++ log') = callers sc log ++ callers sc log' :=
  List.filterMap_append

omit [DecidableEq ι] in
/-- What is answered to each event by its caller is answered to the log by its callers. -/
theorem flatMap_callers {sc : Syscall} {answer : Event ι → List (Line ι)}
    (lines : List ι → List (Line ι)) (hnil : lines [] = [])
    (happend : ∀ l l', lines (l ++ l') = lines l ++ lines l')
    (hanswer : ∀ e, answer e = lines (callers sc [e])) (log : List (Event ι)) :
    log.flatMap answer = lines (callers sc log) := by
  -- `lines` is a homomorphism, so it is enough to know the answers to one event at a time.
  induction log with
  | nil => exact hnil.symm
  | cons e log ih =>
      rw [List.flatMap_cons, ih, hanswer, ← happend, ← callers_append, List.singleton_append]

omit [DecidableEq ι] in
theorem answer_minimal (e : Event ι) (my_pid : BitVec 32) :
    (⟨j, .minimal, my_pid⟩ : Link ι).answer proc e =
      ((callers .write [e]).filter fun i => (proc i).tgid = my_pid).map fun i =>
        ⟨i, j, Minimal.line my_pid⟩ := by
  cases e with
  | call i tid sc =>
      cases sc with
      | write =>
          -- The program compares the upper half of `bpf_get_current_pid_tgid()` with `my_pid`.
          by_cases hpid : (proc i).tgid = my_pid
          · simp [Link.answer, Tool.tracepoint, Tool.handle_tp, Minimal.handle_tp_eq, callers,
              Event.caller, hpid]
          · simp [Link.answer, Tool.tracepoint, Tool.handle_tp, Minimal.handle_tp_eq, callers,
              Event.caller, hpid]
      | openat => simp [Link.answer, Tool.tracepoint, callers, Event.caller]
  | attach i => rfl
  | close i => rfl

omit [DecidableEq ι] in
theorem answer_hello (e : Event ι) (my_pid : BitVec 32) :
    (⟨j, .hello, my_pid⟩ : Link ι).answer proc e =
      (callers .openat [e]).map fun i => ⟨i, j, "Hello, World!\n"⟩ := by
  cases e with
  | call i tid sc =>
      cases sc with
      | write => simp [Link.answer, Tool.tracepoint, callers, Event.caller]
      | openat =>
          simp [Link.answer, Tool.tracepoint, Tool.handle_tp, Hello.handle_tp, Hello.bpf_printk_eq,
            callers, Event.caller]
  | attach i => rfl
  | close i => rfl

/-- A line for every `write` that a process of the id that `getpid()` gave it has made while it was
attached. -/
theorem printed_minimal (hj : (proc j).tool = some .minimal) (log : List (Event ι)) :
    printed proc j log =
      ((callers .write (whileAttached j log)).filter fun i => (proc i).tgid = (proc j).getpid).map
        fun i => ⟨i, j, Minimal.line (proc j).getpid⟩ := by
  have hlink : linkOf proc j = [⟨j, .minimal, (proc j).getpid⟩] := by
    simp [linkOf, hj, Tool.my_pid]
  rw [printed, hlink]
  refine flatMap_callers (fun l =>
    (l.filter fun i => (proc i).tgid = (proc j).getpid).map
      fun i => ⟨i, j, Minimal.line (proc j).getpid⟩) rfl (fun l l' => ?_) (fun e => ?_) _
  · rw [List.filter_append, List.map_append]
  · rw [List.flatMap_singleton]
    exact answer_minimal e _

theorem printed_hello (hj : (proc j).tool = some .hello) (log : List (Event ι)) :
    printed proc j log =
      (callers .openat (whileAttached j log)).map fun i => ⟨i, j, "Hello, World!\n"⟩ := by
  have hlink : linkOf proc j = [⟨j, .hello, 0⟩] := by
    simp [linkOf, hj, Tool.my_pid]
  rw [printed, hlink]
  refine flatMap_callers (List.map fun i => ⟨i, j, "Hello, World!\n"⟩) rfl
    (fun l l' => List.map_append) (fun e => ?_) _
  rw [List.flatMap_singleton]
  exact answer_hello e _

theorem minimal_shows (hK : K.Documented proc) (h : Reachable K proc s)
    (hj : (proc j).tool = some .minimal) :
    K.Shows s.kernel j
      (((callers .write (whileAttached j s.log)).filter
        fun i => (proc i).tgid = (proc j).getpid).map
          fun i => ⟨i, j, Minimal.line (proc j).getpid⟩) := by
  rw [← printed_minimal hj]
  exact (System.inv_of_reachable hK h).good.shows j

/-! ### One process alone -/

section Alone

variable (p : Process) (t : Tool)

/-- A process `p` and nothing beside it, after it has gone through `places`, in a kernel whose trace
nobody has open yet. -/
def alone (places : List (Main × BitVec 32)) : System Unit (Tracefs Unit) :=
  goOn (Tracefs.kernel fun _ => p) (fun _ => p) t ()
    ((System.boot .empty).spawn (fun _ => p) ()) places

variable {p t}

theorem reachable_alone (ht : p.tool = some t) {places : List (Main × BitVec 32)}
    (hcomes : Comes (Tracefs.kernel fun _ => p) (fun _ => p) t ()
      ((System.boot .empty).spawn (fun _ => p) ()) places) :
    Reachable (Tracefs.kernel fun _ => p) (fun _ => p) (alone p t places) :=
  reachable_goOn ht ⟨_, Tracefs.fresh_empty, .tail .refl (.spawn () rfl fun _ h => absurd h id)⟩
    hcomes

end Alone

/-- Somebody opens the trace. -/
def System.opened (s : System ι (Tracefs ι)) : System ι (Tracefs ι) :=
  { s with kernel := { s.kernel with isOpen := true } }

theorem reachable_opened {s : System ι (Tracefs ι)} (h : Reachable (Tracefs.kernel proc) proc s) :
    Reachable (Tracefs.kernel proc) proc s.opened :=
  h.tail (.kernel _ rfl (Tracefs.emits_nothing rfl rfl))

/-! ### `hello` -/

/-- What the program of a `hello` has printed: a line for every `openat` made while it was attached,
of whatever process. -/
theorem hello_lines (hK : K.Documented proc) (h : Reachable K proc s)
    (hj : (proc j).tool = some .hello) :
    K.Shows s.kernel j
        ((callers .openat (whileAttached j s.log)).map fun i => ⟨i, j, "Hello, World!\n"⟩) ∧
      ((∀ x ∈ K.discarded s.kernel, x.program ≠ j) →
        (K.trace s.kernel).filter (·.program = j) =
          (callers .openat (whileAttached j s.log)).map fun i => ⟨i, j, "Hello, World!\n"⟩) := by
  have hshows := (System.inv_of_reachable hK h).good.shows j
  rw [printed_hello hj] at hshows
  exact ⟨hshows, hshows.eq_of_discarded⟩

/-- A `hello` that starts with its output piped and opens a file. -/
def Hello.opensFile : System Unit (Tracefs Unit) :=
  (alone ⟨7, 7, some .hello, false⟩ .hello
    [(.opening, 0), (.loading 0, 0), (.attaching 0, 0), (.enabling, 0), (.greeting, 0)]).call
      (Tracefs.kernel fun _ => ⟨7, 7, some .hello, false⟩) () 7 .openat

theorem Hello.reachable_opensFile :
    Reachable (Tracefs.kernel fun _ => ⟨7, 7, some .hello, false⟩)
      (fun _ => ⟨7, 7, some .hello, false⟩) Hello.opensFile :=
  (reachable_alone rfl (by exact ⟨rfl, rfl, rfl, rfl, rfl, trivial⟩)).tail
    (.call () 7 .openat trivial)

theorem hello_lines_opensFile :
    (Hello.opensFile.kernel.trace.filter (·.program = ())) = [⟨(), (), "Hello, World!\n"⟩] :=
  (hello_lines Tracefs.documented Hello.reachable_opensFile rfl).2 (by decide)

/-! ### `minimal` -/

/-- The lines printed in one process, of those of the callers that are printed for. -/
theorem filter_task (callers : List ι) (p : ι → Prop) [DecidablePred p] (text : String) :
    (((callers.filter fun i => p i).map fun i => (⟨i, j, text⟩ : Line ι)).filter (·.task = j)) =
      List.replicate (if p j then callers.count j else 0) ⟨j, j, text⟩ := by
  induction callers with
  | nil => simp
  | cons i callers ih =>
      by_cases hi : i = j
      · subst hi
        by_cases hp : p i
        · simp only [hp, if_true] at ih
          simp [hp, ih, List.replicate_succ]
        · simp only [hp, if_false] at ih
          simp [hp, ih]
      · by_cases hp : p i
        · simp [hp, hi, ih]
        · simp [hp, hi, ih]

/-- What the program of a `minimal` has printed: a line for every `write` that the processes of the id
that `getpid()` gave it have made while it was attached. -/
theorem minimal_lines (hK : K.Documented proc) (h : Reachable K proc s)
    (hj : (proc j).tool = some .minimal) :
    K.Shows s.kernel j
        (((callers .write (whileAttached j s.log)).filter
          fun i => (proc i).tgid = (proc j).getpid).map
            fun i => ⟨i, j, Minimal.line (proc j).getpid⟩) ∧
      ((∀ x ∈ K.discarded s.kernel, x.program ≠ j) →
        (K.trace s.kernel).filter (·.program = j) =
          ((callers .write (whileAttached j s.log)).filter
            fun i => (proc i).tgid = (proc j).getpid).map
              fun i => ⟨i, j, Minimal.line (proc j).getpid⟩) := by
  have hshows := minimal_shows hK h hj
  exact ⟨hshows, hshows.eq_of_discarded⟩

/-- A `minimal` in a namespace where it has the id 1, and the process that has it for the kernel. -/
def inNamespace : Fin 2 → Process
  | 0 => ⟨7, 1, some .minimal, true⟩
  | 1 => ⟨1, 1, none, true⟩

/-- The former greets and prints a dot, and then the latter writes. -/
def Minimal.withInit : System (Fin 2) (Tracefs (Fin 2)) :=
  (goOn (Tracefs.kernel inNamespace) inNamespace .minimal 0
    (((System.boot .empty).spawn inNamespace 1).spawn inNamespace 0)
    [(.opening, 0), (.setting, 0), (.loading 1, 0), (.attaching 1, 0), (.enabling, 0),
     (.greeting, 0), (.looping, 0)]).call (Tracefs.kernel inNamespace) 1 1 .write

theorem Minimal.reachable_withInit :
    Reachable (Tracefs.kernel inNamespace) inNamespace Minimal.withInit := by
  have hinit : Reachable (Tracefs.kernel inNamespace) inNamespace
      ((System.boot .empty).spawn inNamespace 1) :=
    ⟨_, Tracefs.fresh_empty, .tail .refl (.spawn 1 rfl fun _ h => absurd h id)⟩
  have hborn : Reachable (Tracefs.kernel inNamespace) inNamespace
      (((System.boot .empty).spawn inNamespace 1).spawn inNamespace 0) := by
    refine hinit.tail (.spawn 0 rfl fun j hj => ?_)
    match j with
    | 0 => exact absurd hj id
    | 1 => decide
  exact (reachable_goOn rfl hborn (by exact ⟨rfl, rfl, rfl, rfl, rfl, rfl, rfl, trivial⟩)).tail
    (.call 1 1 .write trivial)

theorem minimal_lines_withInit :
    Minimal.withInit.kernel.trace.filter (·.program = 0) = [⟨1, 0, Minimal.line 1⟩] :=
  (minimal_lines (j := 0) Tracefs.documented Minimal.reachable_withInit rfl).2 (by decide)

/-- What the program of a `minimal` has printed of the calls of its own process. -/
theorem printed_own (hK : K.Documented proc) (h : Reachable K proc s)
    (hj : (proc j).tool = some .minimal) :
    (K.trace s.kernel ++ K.discarded s.kernel).filter (fun x => x.program = j ∧ x.task = j) =
      List.replicate
        (if (proc j).getpid = (proc j).tgid then
          (callers .write (whileAttached j s.log)).count j
        else
          0)
        ⟨j, j, Minimal.line (proc j).getpid⟩ := by
  have hfilter : (K.trace s.kernel ++ K.discarded s.kernel).filter
        (fun x => x.program = j ∧ x.task = j) =
      ((K.trace s.kernel ++ K.discarded s.kernel).filter (·.program = j)).filter (·.task = j) := by
    rw [List.filter_filter]
    exact List.filter_congr fun x _ => by simp [and_comm]
  -- They are all the same line, so it does not matter which of them are in the trace.
  have hall := (minimal_shows hK h hj).all.filter fun x => decide (x.task = j)
  rw [filter_task, ← hfilter, List.perm_replicate] at hall
  rw [hall]
  simp only [eq_comm]

/-- Where `getpid()` gives the id that the kernel uses, `minimal` prints for its own process only, and
for every `write` of it from its attachment on; otherwise it prints for none of them. -/
theorem own_lines (hK : K.Documented proc) (h : Reachable K proc s)
    (hj : (proc j).tool = some .minimal) :
    (K.trace s.kernel ++ K.discarded s.kernel).filter (fun x => x.program = j ∧ x.task = j) =
        List.replicate
          (if (proc j).getpid = (proc j).tgid then
            (callers .write (whileAttached j s.log)).count j
          else
            0)
          ⟨j, j, Minimal.line (proc j).getpid⟩ ∧
      ((proc j).getpid = (proc j).tgid →
        ∀ x ∈ K.trace s.kernel ++ K.discarded s.kernel, x.program = j → x.task = j) := by
  refine ⟨printed_own hK h hj, fun hpid x hx hprogram => ?_⟩
  have hmem := (minimal_shows hK h hj).mem hx hprogram
  obtain ⟨i, hi, rfl⟩ := List.mem_map.mp hmem
  -- The caller has the id of the process, and while that lives nobody else has.
  have htgid : (proc i).tgid = (proc j).getpid := by simpa using (List.mem_filter.mp hi).2
  exact (System.inv_of_reachable hK h).own _ hx (htgid.trans hpid)

/-- A `minimal` on a terminal that has greeted and printed a dot. -/
def Minimal.withDot : System Unit (Tracefs Unit) :=
  alone ⟨7, 7, some .minimal, true⟩ .minimal
    [(.opening, 0), (.setting, 0), (.loading 7, 0), (.attaching 7, 0), (.enabling, 0),
     (.greeting, 0), (.looping, 0)]

theorem Minimal.reachable_withDot :
    Reachable (Tracefs.kernel fun _ => ⟨7, 7, some .minimal, true⟩)
      (fun _ => ⟨7, 7, some .minimal, true⟩) Minimal.withDot :=
  reachable_alone rfl (by exact ⟨rfl, rfl, rfl, rfl, rfl, rfl, rfl, trivial⟩)

/-- One more dot, with the trace open. -/
def Minimal.withLostDot : System Unit (Tracefs Unit) :=
  Minimal.main (Tracefs.kernel fun _ => ⟨7, 7, some .minimal, true⟩)
    (fun _ => ⟨7, 7, some .minimal, true⟩) () .looping 0 Minimal.withDot.opened

theorem Minimal.reachable_withLostDot :
    Reachable (Tracefs.kernel fun _ => ⟨7, 7, some .minimal, true⟩)
      (fun _ => ⟨7, 7, some .minimal, true⟩) Minimal.withLostDot :=
  (reachable_opened Minimal.reachable_withDot).tail (.minimal () .looping 0 rfl rfl)

theorem own_lines_withLostDot :
    (Minimal.withLostDot.kernel.trace ++ Minimal.withLostDot.kernel.discarded).filter
        (fun x => x.program = () ∧ x.task = ()) = List.replicate 3 ⟨(), (), Minimal.line 7⟩ ∧
      ∀ x ∈ Minimal.withLostDot.kernel.trace ++ Minimal.withLostDot.kernel.discarded,
        x.program = () → x.task = () :=
  ⟨(own_lines Tracefs.documented Minimal.reachable_withLostDot rfl).1,
    (own_lines Tracefs.documented Minimal.reachable_withLostDot rfl).2 rfl⟩

end Tracing
end HelloEbpf
