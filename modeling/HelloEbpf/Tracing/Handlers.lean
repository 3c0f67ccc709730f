import HelloEbpf.Ebpf.Machine
import Mathlib.Data.List.Basic

/-!
# Handlers — the programs on the tracepoints

`handle_tp` of `minimal.bpf.c` and of `hello.bpf.c`, and the bytecode of the former: the object that
`minimal.skel.h` embeds is what the kernel really runs.

* `bpf_printk` — the line that a program adds to the trace,
* `Minimal.handle_tp`, `Hello.handle_tp` — the two programs,
* `Minimal.object` — the section `tp/syscalls/sys_enter_write` of the object and its relocations,
* `Minimal.run_object` — the bytecode does what the program does.

Of `printf`'s conversions only `%d` is modelled, the one that the programs use.
-/

namespace HelloEbpf
namespace Tracing

open Ebpf

/-! ## The kernel's side -/

/-- A thread as the kernel numbers it: `tgid` is the id of its process. -/
structure Task where
  tgid : BitVec 32
  tid : BitVec 32

/-- `bpf_get_current_pid_tgid()` -/
def Task.pidTgid (t : Task) : BitVec 64 :=
  t.tgid ++ t.tid

/-- `%d` takes the low half of its argument. -/
def format : List Char → List (BitVec 64) → Option (List Char)
  | '%' :: 'd' :: fmt, a :: args =>
      (format fmt args).map ((toString (a.setWidth 32).toInt).toList ++ ·)
  | '%' :: _, _ => none
  | c :: fmt, args => (format fmt args).map (c :: ·)
  | [], _ => some []

/-- Arguments are printed by their low halves only. -/
theorem format_congr (fmt : List Char) {args args' : List (BitVec 64)}
    (h : args.map (BitVec.setWidth 32) = args'.map (BitVec.setWidth 32)) :
    format fmt args = format fmt args' := by
  fun_induction format fmt args generalizing args' with
  | case1 fmt a args ih =>
      cases args' with
      | nil => cases h
      | cons a' args' =>
          simp only [List.map_cons, List.cons.injEq] at h
          rw [format, ih h.2, h.1]
  | case2 fmt args hd =>
      refine (format.eq_2 args' fmt fun fmt' a' args'' hargs' hfmt => ?_).symm
      cases args with
      | nil => simp [hargs'] at h
      | cons a args => exact hd fmt' a args rfl hfmt
  | case3 c fmt args _ hc ih =>
      rw [format.eq_3 args' c fmt hc fun _ _ _ _ hc' _ => hc hc', ih h]
  | case4 args => rw [format]

/-- A format prints as it is up to its first `%`. -/
theorem format_append {p : List Char} (hp : '%' ∉ p) (fmt : List Char) (args : List (BitVec 64)) :
    format (p ++ fmt) args = (format fmt args).map (p ++ ·) := by
  induction p with
  | nil => simp
  | cons c p ih =>
      simp only [List.mem_cons, not_or] at hp
      rw [List.cons_append, format.eq_3 _ _ _ (fun h => hp.1 h.symm)
        (fun _ _ _ _ h _ => hp.1 h.symm), ih hp.2]
      simp [Function.comp_def]

theorem format_plain {p : List Char} (hp : '%' ∉ p) (args : List (BitVec 64)) :
    format p args = some p := by
  have h := format_append hp [] args
  simpa [format] using h

/-- The lines that `bpf_printk(fmt, args...)` adds to the trace. -/
def bpf_printk (fmt : String) (args : List (BitVec 64)) : List String :=
  ((format fmt.toList args).map String.ofList).toList

theorem append_ushiftRight {n k : Nat} (x : BitVec n) (y : BitVec k) :
    (x ++ y) >>> k = x.setWidth (n + k) := by
  apply BitVec.eq_of_getLsbD_eq
  intro i hi
  have hle : ¬ k + i < k := by omega
  simp [BitVec.getLsbD_append, hi, hle]

/-- The upper half of the two ids is the process's. -/
theorem pidTgid_shift (t : Task) : t.pidTgid >>> 32 = t.tgid.setWidth 64 :=
  append_ushiftRight t.tgid t.tid

theorem setWidth_signExtend (w : BitVec 32) : (w.signExtend 64).setWidth 32 = w := by
  apply BitVec.eq_of_getLsbD_eq
  intro i hi
  simp [BitVec.getLsbD_signExtend, hi]
  omega

theorem setWidth_setWidth (w : BitVec 32) : (w.setWidth 64).setWidth 32 = w := by
  rw [BitVec.setWidth_setWidth_of_le w (by decide), BitVec.setWidth_eq]

/-- A number of 32 bits is printed alike however it was widened. -/
theorem bpf_printk_widened (fmt : String) (w : BitVec 32) :
    bpf_printk fmt [w.setWidth 64] = bpf_printk fmt [w.signExtend 64] := by
  -- `%d` reads the low 32 bits of its argument, and both widenings leave these as they were
  have harg : [w.setWidth 64].map (BitVec.setWidth 32) =
      [w.signExtend 64].map (BitVec.setWidth 32) := by
    simp only [List.map_cons, List.map_nil, setWidth_setWidth, setWidth_signExtend]
  rw [bpf_printk, format_congr fmt.toList harg]
  rfl

/-! ## The programs -/

/-- `handle_tp` of `minimal.bpf.c`: what it prints, and what it returns. -/
def Minimal.handle_tp (task : Task) (my_pid : BitVec 32) : List String × BitVec 32 :=
  let pid : BitVec 32 := (task.pidTgid >>> 32).setWidth 32
  if pid ≠ my_pid then
    ([], 0)
  else
    (bpf_printk "BPF triggered from PID %d.\n" [pid.signExtend 64], 0)

/-- `handle_tp` of `hello.bpf.c`. -/
def Hello.handle_tp (_task : Task) : List String × BitVec 32 :=
  (bpf_printk "Hello, World!\n" [], 0)

/-! ### Their lines -/

/-- The line of `minimal`, `pid` printed as a C `int`. -/
def Minimal.line (pid : BitVec 32) : String :=
  "BPF triggered from PID " ++ (toString pid.toInt ++ ".\n")

theorem ofList_append_toList (p q r : String) :
    String.ofList (p.toList ++ (q.toList ++ r.toList)) = p ++ (q ++ r) := by
  simp [String.ofList_append]

theorem Minimal.bpf_printk_eq (pid : BitVec 32) :
    bpf_printk "BPF triggered from PID %d.\n" [pid.signExtend 64] = [Minimal.line pid] := by
  have hsplit : "BPF triggered from PID %d.\n".toList =
      "BPF triggered from PID ".toList ++ '%' :: 'd' :: ".\n".toList := by decide
  have hhead : '%' ∉ "BPF triggered from PID ".toList := by decide
  have htail : '%' ∉ ".\n".toList := by decide
  have hformat : format "BPF triggered from PID %d.\n".toList [pid.signExtend 64] =
      some ("BPF triggered from PID ".toList ++
        ((toString pid.toInt).toList ++ ".\n".toList)) := by
    rw [hsplit, format_append hhead, format, format_plain htail, setWidth_signExtend]
    simp only [Option.map_some]
  rw [bpf_printk, hformat]
  exact congrArg (fun text => [text]) (ofList_append_toList _ _ _)

theorem Hello.bpf_printk_eq : bpf_printk "Hello, World!\n" [] = ["Hello, World!\n"] := by
  have hplain : '%' ∉ "Hello, World!\n".toList := by decide
  rw [bpf_printk, format_plain hplain, Option.map_some, String.ofList_toList, Option.toList_some]

/-- `minimal` prints for the threads of the process `my_pid`, whatever their own ids. -/
theorem Minimal.handle_tp_eq (task : Task) (my_pid : BitVec 32) :
    (Minimal.handle_tp task my_pid).1 =
      if task.tgid = my_pid then [Minimal.line task.tgid] else [] := by
  have hpid : (task.pidTgid >>> 32).setWidth 32 = task.tgid := by
    rw [pidTgid_shift, setWidth_setWidth]
  by_cases h : task.tgid = my_pid
  · simp [Minimal.handle_tp, hpid, h, Minimal.bpf_printk_eq]
  · simp [Minimal.handle_tp, hpid, h]

/-! ## The bytecode of `minimal` -/

namespace Minimal

/-- The sections of the object that the program's relocations name. -/
inductive Section where
  | bss
  | rodata
  deriving DecidableEq

/-- The section `tp/syscalls/sys_enter_write` and `.reltp/syscalls/sys_enter_write`.  The relocations
are those of `my_pid` and of the format of `bpf_printk`. -/
def object : Object Section where
  bytes :=
    [0x85, 0x00, 0x00, 0x00, 0x0e, 0x00, 0x00, 0x00,
     0x77, 0x00, 0x00, 0x00, 0x20, 0x00, 0x00, 0x00,
     0x18, 0x01, 0x00, 0x00, 0x00, 0x00, 0x00, 0x00,
     0x00, 0x00, 0x00, 0x00, 0x00, 0x00, 0x00, 0x00,
     0x61, 0x11, 0x00, 0x00, 0x00, 0x00, 0x00, 0x00,
     0x5d, 0x01, 0x05, 0x00, 0x00, 0x00, 0x00, 0x00,
     0x18, 0x01, 0x00, 0x00, 0x00, 0x00, 0x00, 0x00,
     0x00, 0x00, 0x00, 0x00, 0x00, 0x00, 0x00, 0x00,
     0xb7, 0x02, 0x00, 0x00, 0x1c, 0x00, 0x00, 0x00,
     0xbf, 0x03, 0x00, 0x00, 0x00, 0x00, 0x00, 0x00,
     0x85, 0x00, 0x00, 0x00, 0x06, 0x00, 0x00, 0x00,
     0xb7, 0x00, 0x00, 0x00, 0x00, 0x00, 0x00, 0x00,
     0x95, 0x00, 0x00, 0x00, 0x00, 0x00, 0x00, 0x00]
  relocations := [(16, .bss, 0), (48, .rodata, 0)]

/-- The section `.rodata`: the format, with its end marked by a zero byte. -/
def rodata : List Byte :=
  [0x42, 0x50, 0x46, 0x20, 0x74, 0x72, 0x69, 0x67, 0x67, 0x65, 0x72, 0x65, 0x64, 0x20, 0x66, 0x72,
   0x6f, 0x6d, 0x20, 0x50, 0x49, 0x44, 0x20, 0x25, 0x64, 0x2e, 0x0a, 0x00]

/-- The program's instructions, by slot. -/
def listing : List (Nat × Insn Section) :=
  [(0, .call 14),
   (1, .rsh 0 (.imm 32)),
   (2, .lddw 1 (.pointer .bss 0)),
   (4, .ldxw 1 1 0),
   (5, .jne 1 (.reg 0) 5),
   (6, .lddw 1 (.pointer .rodata 0)),
   (8, .mov 2 (.imm 28)),
   (9, .mov 3 (.reg 0)),
   (10, .call 6),
   (11, .mov 0 (.imm 0)),
   (12, .exit)]

theorem fetch_of_mem_listing : ∀ e ∈ listing, object.fetch e.1 = some e.2 := by
  decide

/-- A run of the program: the thread that it runs in, the variable in `.bss` and the trace. -/
structure Moment where
  task : Task
  my_pid : BitVec 32
  trace : List String

def Moment.contents (m : Moment) : Section → List Byte
  | .bss =>
      [m.my_pid.extractLsb' 0 8, m.my_pid.extractLsb' 8 8, m.my_pid.extractLsb' 16 8,
        m.my_pid.extractLsb' 24 8]
  | .rodata => rodata

def memory : Memory Section Moment := fun m sec offset =>
  if 0 ≤ offset then (m.contents sec)[offset.toNat]? else none

/-- `bpf_trace_printk` refuses a format that does not end in its only zero byte with `-EINVAL`. -/
def bpf_trace_printk (printed : BitVec 64) (fmt : List Byte) (args : List (BitVec 64)) (m : Moment) :
    BitVec 64 × Moment :=
  if fmt.getLast? = some 0 then
    match format (fmt.dropLast.map fun b => Char.ofNat b.toNat) args with
    | some text => (printed, { m with trace := m.trace ++ [String.ofList text] })
    | none => (-22, m)
  else
    (-22, m)

/-- The numbers that the registers of a helper's further arguments hold. -/
def numbers (regs : Reg → Option (Value Section)) : List (BitVec 64) :=
  [regs 3#4, regs 4#4, regs 5#4].filterMap fun
    | some (.scalar w) => some w
    | _ => none

/-- The helper functions that the program calls, `bpf_get_current_pid_tgid` and `bpf_trace_printk`.
What the latter returns when it prints is `printed`. -/
def helper (printed : BitVec 64) (id : BitVec 32) (regs : Reg → Option (Value Section))
    (m : Moment) : Option (BitVec 64 × Moment) :=
  match id.toNat with
  | 14 => some (m.task.pidTgid, m)
  | 6 =>
      match regs 1#4, regs 2#4 with
      | some (.pointer sec offset), some (.scalar size) =>
          (memory.bytes m sec offset size.toNat).map fun fmt =>
            bpf_trace_printk printed fmt (numbers regs) m
      | _, _ => none
  | _ => none

def kernel (printed : BitVec 64) : Kernel Section Moment where
  memory := memory
  helper := helper printed

/-! ### What it does -/

variable {m : Moment} {printed : BitVec 64}

theorem word_bytes (x : BitVec 32) :
    word (x.extractLsb' 0 8) (x.extractLsb' 8 8) (x.extractLsb' 16 8) (x.extractLsb' 24 8) = x := by
  rw [word, BitVec.extractLsb'_append_extractLsb'_eq_extractLsb' (by rfl),
    BitVec.extractLsb'_append_extractLsb'_eq_extractLsb' (by rfl),
    BitVec.extractLsb'_append_extractLsb'_eq_extractLsb' (by rfl)]
  exact BitVec.extractLsb'_eq_self

theorem memory_my_pid : memory.word m .bss 0 = some m.my_pid := by
  simp [Memory.word, memory, Moment.contents, word_bytes]

theorem memory_format : memory.bytes m .rodata 0 28 = some rodata := by
  rfl

theorem rodata_eq :
    rodata.dropLast.map (fun b => Char.ofNat b.toNat) = "BPF triggered from PID %d.\n".toList :=
  String.toList_ofList.symm

/-- The kernel refuses programs that may not end; this one has no jump back. -/
theorem forward (k : Nat) (i : Insn Section) (hi : object.fetch k = some i) : i.Forward := by
  have hslots : ∀ k < 13, ∀ i ∈ object.fetch k, i.Forward := by decide
  by_cases hk : k < 13
  · exact hslots k hk i hi
  · rw [object.fetch_eq_none (by simp [object]; omega)] at hi
    cases hi

theorem fetch_at (k : Nat) (i : Insn Section) (h : (k, i) ∈ listing) : object.fetch k = some i :=
  fetch_of_mem_listing (k, i) h

/-- The format asks for one number, and is printed with it. -/
theorem bpf_trace_printk_rodata (w : BitVec 64) (args : List (BitVec 64)) :
    bpf_trace_printk printed rodata (w :: args) m =
      (printed, { m with trace := m.trace ++ bpf_printk "BPF triggered from PID %d.\n" [w] }) := by
  obtain ⟨text, htext⟩ :
      ∃ text, format (rodata.dropLast.map fun b => Char.ofNat b.toNat) [w] = some text :=
    ⟨_, rfl⟩
  have hargs : format (rodata.dropLast.map fun b => Char.ofNat b.toNat) (w :: args) = some text :=
    htext
  have hlast : rodata.getLast? = some 0 := rfl
  simp only [bpf_trace_printk, hlast, if_true, hargs, bpf_printk, ← rodata_eq, htext,
    Option.map_some, Option.toList_some]

theorem helper_printk {regs : Reg → Option (Value Section)} {w : BitVec 64}
    (h1 : regs 1#4 = some (.pointer .rodata 0)) (h2 : regs 2#4 = some (.scalar 28))
    (h3 : regs 3#4 = some (.scalar w)) :
    helper printed 6 regs m =
      some (printed,
        { m with trace := m.trace ++ bpf_printk "BPF triggered from PID %d.\n" [w] }) := by
  -- `r4` and `r5` may hold anything: the format's one `%d` takes the first number only
  have hnumbers : ∃ args, numbers regs = w :: args :=
    ⟨_, by simp only [numbers, List.filterMap_cons, h3]; rfl⟩
  obtain ⟨args, hargs⟩ := hnumbers
  calc helper printed 6 regs m
      = (memory.bytes m .rodata 0 28).map fun fmt =>
          bpf_trace_printk printed fmt (numbers regs) m := by
        simp [helper, h1, h2]
    _ = some (bpf_trace_printk printed rodata (w :: args) m) := by
        rw [memory_format, hargs, Option.map_some]
    _ = _ := by rw [bpf_trace_printk_rodata]

variable {s : State Section Moment} {n : Nat}

/-- Slots 0 to 4: the process's id and `my_pid` are in `r0` and `r1`. -/
theorem run_ids (m : Moment) (printed : BitVec 64) :
    ∃ s, (∀ n, run (kernel printed) object.fetch (n + 4) (.start m) =
        run (kernel printed) object.fetch n s) ∧
      s.pc = 5 ∧ s.world = m ∧ s.regs 0#4 = some (.scalar (m.task.tgid.setWidth 64)) ∧
      s.regs 1#4 = some (.scalar (m.my_pid.setWidth 64)) := by
  let s₁ : State Section Moment := (State.start m).called m.task.pidTgid m
  let s₂ := s₁.set 0 (.scalar (m.task.tgid.setWidth 64))
  let s₃ := { s₂.set 1 (.pointer .bss 0) with pc := s₂.pc + 2 }
  let s₄ := s₃.set 1 (.scalar (m.my_pid.setWidth 64))
  refine ⟨s₄, fun n => ?_, rfl, rfl, rfl, rfl⟩
  have hshift : exec (kernel printed) (.rsh 0 (.imm 32)) s₁ = .next s₂ := by
    simp only [s₂, ← pidTgid_shift]
    rfl
  have hload : exec (kernel printed) (.ldxw 1 1 0) s₃ = .next s₄ := by
    simp [exec, s₃, s₄, s₂, s₁, kernel, memory_my_pid]
  calc run (kernel printed) object.fetch (n + 4) (.start m)
      = run (kernel printed) object.fetch (n + 3) s₁ :=
        run_of_exec_next (fetch_at 0 (.call 14) (by decide)) rfl rfl
    _ = run (kernel printed) object.fetch (n + 2) s₂ :=
        run_of_exec_next (fetch_at 1 (.rsh 0 (.imm 32)) (by decide)) rfl hshift
    _ = run (kernel printed) object.fetch (n + 1) s₃ :=
        run_of_exec_next (fetch_at 2 (.lddw 1 (.pointer .bss 0)) (by decide)) rfl rfl
    _ = run (kernel printed) object.fetch n s₄ :=
        run_of_exec_next (fetch_at 4 (.ldxw 1 1 0) (by decide)) rfl hload

/-- Slots 11 and 12. -/
theorem run_return (hpc : s.pc = 11) :
    run (kernel printed) object.fetch (n + 2) s = .returned 0 s.world := by
  calc run (kernel printed) object.fetch (n + 2) s
      = run (kernel printed) object.fetch (n + 1) (s.set 0 (.scalar 0)) :=
        run_of_exec_next (fetch_at 11 (.mov 0 (.imm 0)) (by decide)) hpc rfl
    _ = .returned 0 s.world :=
        run_of_exec_returned (fetch_at 12 .exit (by decide)) (by simp [hpc]) rfl

/-- Slots 6 to 12. -/
theorem run_print (hpc : s.pc = 6) {w : BitVec 64} (hw : s.regs 0#4 = some (.scalar w)) :
    run (kernel printed) object.fetch (n + 6) s =
      .returned 0
        { s.world with trace := s.world.trace ++ bpf_printk "BPF triggered from PID %d.\n" [w] } := by
  let s₁ : State Section Moment := { s.set 1 (.pointer .rodata 0) with pc := s.pc + 2 }
  let s₂ := s₁.set 2 (.scalar 28)
  let s₃ := s₂.set 3 (.scalar w)
  let m' : Moment :=
    { s.world with trace := s.world.trace ++ bpf_printk "BPF triggered from PID %d.\n" [w] }
  have hmov : exec (kernel printed) (.mov 3 (.reg 0)) s₂ = .next s₃ := by
    simp [exec, State.operand, s₁, s₂, s₃, hw]
  have hcall : exec (kernel printed) (.call 6) s₃ = .next (s₃.called printed m') := by
    have hhelper : helper printed 6 s₃.regs s₃.world = some (printed, m') :=
      helper_printk rfl rfl rfl
    simp only [exec, kernel]
    rw [hhelper]
  calc run (kernel printed) object.fetch (n + 6) s
      = run (kernel printed) object.fetch (n + 5) s₁ :=
        run_of_exec_next (fetch_at 6 (.lddw 1 (.pointer .rodata 0)) (by decide)) hpc rfl
    _ = run (kernel printed) object.fetch (n + 4) s₂ :=
        run_of_exec_next (fetch_at 8 (.mov 2 (.imm 28)) (by decide)) (by simp [s₁, hpc]) rfl
    _ = run (kernel printed) object.fetch (n + 3) s₃ :=
        run_of_exec_next (fetch_at 9 (.mov 3 (.reg 0)) (by decide)) (by simp [s₁, s₂, hpc]) hmov
    _ = run (kernel printed) object.fetch (n + 2) (s₃.called printed m') :=
        run_of_exec_next (fetch_at 10 (.call 6) (by decide)) (by simp [s₁, s₂, s₃, hpc]) hcall
    _ = .returned 0 m' := run_return (by simp [s₁, s₂, s₃, hpc])

/-- Slot 5 compares two 64-bit registers, where the program compares two numbers of 32 bits, and the
line gets the upper half of the ids as it is, where the program extends its sign.  Both come to the
same, for every thread and whatever the printing returns. -/
theorem run_object (m : Moment) (printed : BitVec 64) (hn : 11 ≤ n) :
    run (kernel printed) object.fetch n (.start m) =
      .returned ((handle_tp m.task m.my_pid).2.signExtend 64)
        { m with trace := m.trace ++ (handle_tp m.task m.my_pid).1 } := by
  obtain ⟨k, rfl⟩ : ∃ k, n = k + 11 := ⟨n - 11, by omega⟩
  obtain ⟨s, hrun, hpc, hworld, h0, h1⟩ := run_ids m printed
  have hpid : (m.task.pidTgid >>> 32).setWidth 32 = m.task.tgid := by
    rw [pidTgid_shift, setWidth_setWidth]
  rw [hrun (k + 7)]
  by_cases heq : m.task.tgid = m.my_pid
  · have hcompare : exec (kernel printed) (.jne 1 (.reg 0) 5) s = .next { s with pc := 6 } := by
      simp [exec, State.operand, h0, h1, heq, jump, hpc]
    rw [run_of_exec_next (fetch_at 5 (.jne 1 (.reg 0) 5) (by decide)) hpc hcompare,
      run_print (s := { s with pc := 6 }) rfl h0, hworld]
    simp [handle_tp, hpid, heq, bpf_printk_widened]
  · -- the bytecode compares 64 bits where the C code compares 32, and both operands are widened
    -- with zeros
    have hne : m.my_pid.setWidth 64 ≠ m.task.tgid.setWidth 64 := by
      intro hwide
      have hlow := congrArg (BitVec.setWidth 32) hwide
      rw [setWidth_setWidth, setWidth_setWidth] at hlow
      exact heq hlow.symm
    have hcompare : exec (kernel printed) (.jne 1 (.reg 0) 5) s = .next { s with pc := 11 } := by
      simp [exec, State.operand, h0, h1, hne, jump, hpc]
    rw [run_of_exec_next (fetch_at 5 (.jne 1 (.reg 0) 5) (by decide)) hpc hcompare,
      run_return (s := { s with pc := 11 }) (n := k + 4) rfl, hworld]
    simp [handle_tp, hpid, heq]

theorem run_object_seven :
    run (kernel 28) object.fetch 11 (.start ⟨⟨7, 9⟩, 7, []⟩) =
      .returned 0 ⟨⟨7, 9⟩, 7, [Minimal.line 7]⟩ := by
  have h := run_object ⟨⟨7, 9⟩, 7, []⟩ 28 (Nat.le_refl 11)
  rw [handle_tp_eq] at h
  exact h

/-- Whatever memory and helper functions the kernel has, the bytecode is over after 14 steps. -/
theorem run_object_ends {W : Type*} (K : Kernel Section W) (w : W) (s : State Section W) :
    run K object.fetch 14 (.start w) ≠ .next s :=
  run_ne_next_of_forward forward (fun _ hj => object.fetch_eq_none (by simp [object]; omega))
    (Nat.le_refl 13)

end Minimal

end Tracing
end HelloEbpf
