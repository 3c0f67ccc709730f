import HelloEbpf.Tracing.Kernel
import Mathlib.Logic.Relation

/-!
# Loader — `main` of `minimal.c` and of `hello.c`, among other processes

The two mains open their skeleton, load its program, attach it and stay in a loop; where one of the
first three fails they say so, destroy the skeleton and return.  They run beside each other and
beside any other processes, which come and go and make system calls at any time.

* `Main` — the places in `main`, `main` — what it does from each of them,
* `Step` — what can happen next: a process is born, a `main` goes on, libbpf has something to say, a
  process makes a system call (those that the libraries make by themselves as well), a process is
  killed or crashes, the kernel goes about its own business.

What the library calls return is left open: `err` is 0 or the negative number that libbpf gives, and
a skeleton that is not opened is an `err` that is not 0.  So is what libbpf says: the mains hand it
`libbpf_print_fn`, which writes any text to the same `stderr`, under its own name here.  To attach a
program libbpf links it and then enables the link; where that fails it says so, and only then closes
the link again and returns.

What has happened (`log`) and what the library calls have returned (`results`) is kept for the
statements only.
-/

namespace HelloEbpf
namespace Tracing

/-- The places in `main`, named after what comes next; `enabling` and `closed` are within
`minimal_bpf__attach` and `hello_bpf__attach`. -/
inductive Main where
  | opening
  | setting
  | loading (my_pid : BitVec 32)
  | attaching (my_pid : BitVec 32)
  | enabling
  | closed (err : BitVec 32)
  | greeting
  | looping
  | returning (status : BitVec 32)

/-- The calls into the library whose results `main` looks at. -/
inductive Call where
  | open
  | load
  | attach
  deriving DecidableEq

inductive Stage where
  | unborn
  | other
  | main (m : Main)
  | gone (status : Option (BitVec 8))

/-- A process that exists now. -/
def Stage.Live : Stage → Prop
  | .other | .main _ => True
  | _ => False

/-- Who writes to the `stderr` of a process. -/
inductive Writer where
  | main
  | libbpf
  deriving DecidableEq

structure System (ι κ : Type*) where
  kernel : κ
  stage : ι → Stage
  stdout : List (ι × String)
  stderr : List ((ι × Writer) × String)
  log : List (Event ι)
  results : List (ι × Call × BitVec 32)

variable {ι κ : Type*} [DecidableEq ι] (K : Kernel ι κ) (proc : ι → Process)

namespace System

variable (i : ι) (s : System ι κ)

def goto (st : Stage) : System ι κ :=
  { s with stage := Function.update s.stage i st }

/-- A system call of one of the threads of the `i`-th process. -/
def call (tid : BitVec 32) (sc : Syscall) : System ι κ :=
  { s with kernel := K.enter i tid sc s.kernel, log := s.log ++ [.call i tid sc] }

/-- `vfprintf(stderr, ...)`, where the text is already formatted: `stderr` has no buffer. -/
def vfprintf (w : Writer) (text : String) : System ι κ :=
  { s.call K i (proc i).tgid .write with stderr := s.stderr ++ [((i, w), text)] }

def fprintf (text : String) : System ι κ :=
  s.vfprintf K proc i .main text

def libbpf_print_fn (text : String) : System ι κ :=
  s.vfprintf K proc i .libbpf text

/-- `printf(text)` for a text that ends its line.  On a terminal it is written at once; otherwise it
stays in a buffer of some thousand bytes, which is written at the end of `main` and not when the
process is killed. -/
def printf (text : String) : System ι κ :=
  if (proc i).terminal then
    { s.call K i (proc i).tgid .write with stdout := s.stdout ++ [(i, text)] }
  else
    s

/-- The process links its program. -/
def attach (t : Tool) (my_pid : BitVec 32) : System ι κ :=
  { s with kernel := K.attach ⟨i, t, my_pid⟩ s.kernel, log := s.log ++ [.attach i] }

/-- The file descriptor of the process's link is closed. -/
def close : System ι κ :=
  { s with kernel := K.close i s.kernel, log := s.log ++ [.close i] }

/-- A call into the library returns. -/
def returns (c : Call) (err : BitVec 32) : System ι κ :=
  { s with results := s.results ++ [(i, c, err)] }

/-- The process ends, by itself with a status or killed. -/
def exit (status : Option (BitVec 8)) : System ι κ :=
  (s.close K i).goto i (.gone status)

/-- A new process: one of the two tools, or any other. -/
def spawn : System ι κ :=
  s.goto i (if (proc i).tool.isSome then .main .opening else .other)

end System

/-! ## `main` -/

/-- What the mains differ in. -/
structure Source where
  tool : Tool
  setsPid : Bool
  greeting : List String
  dots : Bool

/-- `main` goes on from `m`, where what the library does there gives `err`.  The skeleton is destroyed
at the end, with everything else that the process holds. -/
def main (c : Source) (i : ι) (m : Main) (err : BitVec 32) (s : System ι κ) : System ι κ :=
  match m with
  | .opening =>
      if err ≠ 0 then
        ((s.returns i .open err).fprintf K proc i "Failed to open BPF skeleton\n").goto i
          (.main (.returning 1))
      else if c.setsPid then
        (s.returns i .open 0).goto i (.main .setting)
      else
        (s.returns i .open 0).goto i (.main (.loading 0))
  | .setting => s.goto i (.main (.loading (proc i).getpid))
  | .loading my_pid =>
      if err ≠ 0 then
        ((s.returns i .load err).fprintf K proc i "Failed to load and verify BPF skeleton\n").goto i
          (.main (.returning (-err)))
      else
        (s.returns i .load 0).goto i (.main (.attaching my_pid))
  | .attaching my_pid =>
      if err ≠ 0 then
        s.goto i (.main (.closed err))
      else
        (s.attach K i c.tool my_pid).goto i (.main .enabling)
  | .enabling =>
      if err ≠ 0 then
        (s.close K i).goto i (.main (.closed err))
      else
        (s.returns i .attach 0).goto i (.main .greeting)
  | .closed err =>
      ((s.returns i .attach err).fprintf K proc i "Failed to attach BPF skeleton\n").goto i
        (.main (.returning (-err)))
  | .greeting => (c.greeting.foldl (fun s text => s.printf K proc i text) s).goto i (.main .looping)
  | .looping => if c.dots then s.fprintf K proc i "." else s
  | .returning status => s.exit K i (some (status.setWidth 8))

def Minimal.source : Source where
  tool := .minimal
  setsPid := true
  greeting :=
    ["Successfully started! Please run `sudo cat /sys/kernel/debug/tracing/trace_pipe` to see output of the BPF programs.\n"]
  dots := true

def Hello.source : Source where
  tool := .hello
  setsPid := false
  greeting :=
    ["Hello eBPF started! Check /sys/kernel/debug/tracing/trace_pipe for output.\n",
     "Press Ctrl+C to stop.\n"]
  dots := false

def Tool.source : Tool → Source
  | .minimal => Minimal.source
  | .hello => Hello.source

/-- `main` of `minimal.c` -/
def Minimal.main (i : ι) (m : Main) (err : BitVec 32) (s : System ι κ) : System ι κ :=
  Tracing.main K proc Minimal.source i m err s

/-- `main` of `hello.c` -/
def Hello.main (i : ι) (m : Main) (err : BitVec 32) (s : System ι κ) : System ι κ :=
  Tracing.main K proc Hello.source i m err s

/-! ## Runs -/

inductive Step (s : System ι κ) : System ι κ → Prop where
  | spawn (i : ι) (hnew : s.stage i = .unborn)
      (hid : ∀ j, (s.stage j).Live → (proc j).tgid ≠ (proc i).tgid) : Step s (s.spawn proc i)
  | minimal (i : ι) (m : Main) (err : BitVec 32) (htool : (proc i).tool = some .minimal)
      (hm : s.stage i = .main m) : Step s (Minimal.main K proc i m err s)
  | hello (i : ι) (m : Main) (err : BitVec 32) (htool : (proc i).tool = some .hello)
      (hm : s.stage i = .main m) : Step s (Hello.main K proc i m err s)
  | libbpf_print_fn (i : ι) (m : Main) (text : String) (hm : s.stage i = .main m) :
      Step s (s.libbpf_print_fn K proc i text)
  | call (i : ι) (tid : BitVec 32) (sc : Syscall) (hlive : (s.stage i).Live) :
      Step s (s.call K i tid sc)
  | kill (i : ι) (hlive : (s.stage i).Live) : Step s (s.exit K i none)
  -- The trace is opened, closed, read or overwritten, a program is not run this time, ...
  | kernel (k : κ) (hlinks : K.links k = K.links s.kernel) (hemits : K.Emits s.kernel k []) :
      Step s { s with kernel := k }

/-- Nothing has happened yet. -/
def System.boot (k : κ) : System ι κ where
  kernel := k
  stage := fun _ => .unborn
  stdout := []
  stderr := []
  log := []
  results := []

def Reachable (s : System ι κ) : Prop :=
  ∃ k, K.Fresh k ∧ Relation.ReflTransGen (Step K proc) (.boot k) s

end Tracing
end HelloEbpf
