import Mathlib.Logic.Function.Basic
import Mathlib.Tactic.Common

/-!
# Machine — eBPF bytecode

The part of the eBPF instruction set that straight tracing programs are compiled to.  The machine
looks at a program the way the kernel's verifier does: a register holds nothing, a number or a pointer
into a section of the object, and an instruction that has no meaning for what its registers hold is a
fault.  Memory and helper functions are the kernel's (`Kernel`), over a world of any type.

* `Object.fetch` — the instruction in a slot of an object's bytes,
* `exec`, `step`, `run` — one instruction, one step of a program, a number of steps,
* `run_ne_next_of_forward` — a program whose jumps lead forward comes to an end in every kernel.

The frame pointer `r10` and the instructions not listed in `Insn` are left out: they do not decode.
-/

namespace Ebpf

/-! ## Instructions -/

abbrev Byte := BitVec 8

/-- A register's number; only those of `r0` to `r9` decode. -/
abbrev Reg := BitVec 4

inductive Value (Sec : Type) where
  | scalar (w : BitVec 64)
  | pointer (sec : Sec) (offset : Int)
  | context
  deriving DecidableEq

inductive Operand where
  | imm (n : BitVec 32)
  | reg (r : Reg)
  deriving DecidableEq

inductive Insn (Sec : Type) where
  | mov (dst : Reg) (src : Operand)
  | rsh (dst : Reg) (src : Operand)
  | ldxw (dst src : Reg) (offset : Int)
  | lddw (dst : Reg) (v : Value Sec)
  | jne (dst : Reg) (src : Operand) (offset : Int)
  | call (helper : BitVec 32)
  | exit
  deriving DecidableEq

/-! ## Bytes -/

/-- Eight bytes of a program's section. -/
structure Slot where
  opcode : Byte
  dst : BitVec 4
  src : BitVec 4
  offset : BitVec 16
  imm : BitVec 32

/-- A program's section in an object file and its relocations: at which byte, to which section, and
the symbol's place there. -/
structure Object (Sec : Type) where
  bytes : List Byte
  relocations : List (Nat × Sec × Nat)

def reg? (n : BitVec 4) : Option Reg :=
  if n < 10#4 then some n else none

/-- Numbers are stored with the low byte first. -/
def word (b0 b1 b2 b3 : Byte) : BitVec 32 :=
  b3 ++ b2 ++ b1 ++ b0

namespace Object

variable {Sec : Type}

def slot (o : Object Sec) (k : Nat) : Option Slot :=
  match (o.bytes.drop (8 * k)).take 8 with
  | [opcode, regs, o0, o1, i0, i1, i2, i3] =>
      some
        { opcode := opcode
          dst := regs.extractLsb' 0 4
          src := regs.extractLsb' 4 4
          offset := o1 ++ o0
          imm := word i0 i1 i2 i3 }
  | _ => none

/-- What a 64-bit load puts into its register: a number from its two slots, or where a relocation
patches it, a pointer.  The first slot's number is added to the symbol's place. -/
def constant (o : Object Sec) (k : Nat) (lo hi : BitVec 32) : Value Sec :=
  match o.relocations.lookup (8 * k) with
  | some (sec, place) => .pointer sec (lo.toInt + place)
  | none => .scalar (hi ++ lo)

/-- The instruction that starts in the `k`-th slot. -/
def fetch (o : Object Sec) (k : Nat) : Option (Insn Sec) := do
  let s ← o.slot k
  match s.opcode.toNat with
  | 0x18 =>
      let next ← o.slot (k + 1)
      return .lddw (← reg? s.dst) (o.constant k s.imm next.imm)
  | 0x61 => return .ldxw (← reg? s.dst) (← reg? s.src) s.offset.toInt
  | 0xb7 => return .mov (← reg? s.dst) (.imm s.imm)
  | 0xbf => return .mov (← reg? s.dst) (.reg (← reg? s.src))
  | 0x77 => return .rsh (← reg? s.dst) (.imm s.imm)
  | 0x7f => return .rsh (← reg? s.dst) (.reg (← reg? s.src))
  | 0x55 => return .jne (← reg? s.dst) (.imm s.imm) s.offset.toInt
  | 0x5d => return .jne (← reg? s.dst) (.reg (← reg? s.src)) s.offset.toInt
  | 0x85 => return .call s.imm
  | 0x95 => return .exit
  | _ => none

theorem fetch_eq_none (o : Object Sec) {k : Nat} (hk : o.bytes.length ≤ 8 * k) :
    o.fetch k = none := by
  have hslot : o.slot k = none := by
    simp [slot, List.drop_eq_nil_of_le hk]
  simp [fetch, hslot]

end Object

/-! ## The machine -/

/-- The bytes of the sections. -/
abbrev Memory (Sec : Type) (W : Type*) := W → Sec → Int → Option Byte

/-- What a program finds around it.  A helper function sees the registers and the world, and gives
`r0` and the world after it. -/
structure Kernel (Sec : Type) (W : Type*) where
  memory : Memory Sec W
  helper : BitVec 32 → (Reg → Option (Value Sec)) → W → Option (BitVec 64 × W)

structure State (Sec : Type) (W : Type*) where
  pc : Nat
  regs : Reg → Option (Value Sec)
  world : W

inductive Outcome (Sec : Type) (W : Type*) where
  | next (s : State Sec W)
  | returned (r0 : BitVec 64) (world : W)
  | fault

variable {Sec : Type} {W : Type*}

/-- A program starts with its context in `r1` and nothing in the other registers. -/
def State.start (w : W) : State Sec W :=
  { pc := 0
    regs := Function.update (fun _ => none) 1 (some .context)
    world := w }

namespace State

variable (s : State Sec W) (r r' : Reg) (v : Value Sec) (r0 : BitVec 64) (w : W)

def operand : Operand → Option (Value Sec)
  | .imm n => some (.scalar (n.signExtend 64))
  | .reg r => s.regs r

def set : State Sec W :=
  { s with pc := s.pc + 1, regs := Function.update s.regs r (some v) }

/-- A call leaves its result in `r0` and nothing in the registers of its arguments. -/
def called : State Sec W :=
  { pc := s.pc + 1
    regs := fun r => if r = 0 then some (.scalar r0) else if r ≤ 5 then none else s.regs r
    world := w }

@[simp] theorem set_pc : (s.set r v).pc = s.pc + 1 := rfl

@[simp] theorem set_world : (s.set r v).world = s.world := rfl

@[simp] theorem set_regs_self : (s.set r v).regs r = some v := by
  simp [set]

@[simp] theorem set_regs_of_ne {r r' : Reg} (hne : r' ≠ r) : (s.set r v).regs r' = s.regs r' := by
  simp [set, hne]

@[simp] theorem called_pc : (s.called r0 w).pc = s.pc + 1 := rfl

@[simp] theorem called_world : (s.called r0 w).world = w := rfl

@[simp] theorem called_regs_zero : (s.called r0 w).regs 0#4 = some (.scalar r0) := rfl

end State

namespace Memory

/-- Four bytes of a section as a number. -/
def word (M : Memory Sec W) (w : W) (sec : Sec) (offset : Int) : Option (BitVec 32) := do
  return Ebpf.word (← M w sec offset) (← M w sec (offset + 1)) (← M w sec (offset + 2))
    (← M w sec (offset + 3))

/-- `n` bytes of a section. -/
def bytes (M : Memory Sec W) (w : W) (sec : Sec) (offset : Int) (n : Nat) : Option (List Byte) :=
  (List.range n).mapM fun k : Nat => M w sec (offset + k)

end Memory

def jump (s : State Sec W) (offset : Int) : Outcome Sec W :=
  if 0 ≤ s.pc + 1 + offset then
    .next { s with pc := (s.pc + 1 + offset).toNat }
  else
    .fault

def exec (K : Kernel Sec W) (i : Insn Sec) (s : State Sec W) : Outcome Sec W :=
  match i with
  | .mov dst src =>
      match s.operand src with
      | some v => .next (s.set dst v)
      | none => .fault
  | .rsh dst src =>
      match s.regs dst, s.operand src with
      | some (.scalar a), some (.scalar b) =>
          .next (s.set dst (.scalar (a >>> (b &&& 63#64).toNat)))
      | _, _ => .fault
  | .ldxw dst src offset =>
      match s.regs src with
      | some (.pointer sec base) =>
          match K.memory.word s.world sec (base + offset) with
          | some w => .next (s.set dst (.scalar (w.setWidth 64)))
          | none => .fault
      | _ => .fault
  | .lddw dst v => .next { s.set dst v with pc := s.pc + 2 }
  | .jne dst src offset =>
      match s.regs dst, s.operand src with
      | some (.scalar a), some (.scalar b) => jump s (if a = b then 0 else offset)
      | _, _ => .fault
  | .call helper =>
      match K.helper helper s.regs s.world with
      | some (r0, w) => .next (s.called r0 w)
      | none => .fault
  | .exit =>
      match s.regs 0#4 with
      | some (.scalar r0) => .returned r0 s.world
      | _ => .fault

/-- A program that runs past its last instruction is at fault, as one that meets no instruction. -/
def step (K : Kernel Sec W) (prog : Nat → Option (Insn Sec)) (s : State Sec W) : Outcome Sec W :=
  match prog s.pc with
  | some i => exec K i s
  | none => .fault

/-- At most `n` steps; `next` is left where these are not enough. -/
def run (K : Kernel Sec W) (prog : Nat → Option (Insn Sec)) : Nat → State Sec W → Outcome Sec W
  | 0, s => .next s
  | n + 1, s =>
      match step K prog s with
      | .next s' => run K prog n s'
      | o => o

variable {K : Kernel Sec W} {prog : Nat → Option (Insn Sec)} {s s' : State Sec W} {i : Insn Sec}
  {n : Nat}

theorem run_of_exec_next {k : Nat} (hi : prog k = some i) (hpc : s.pc = k)
    (hexec : exec K i s = .next s') :
    run K prog (n + 1) s = run K prog n s' := by
  simp [run, step, hpc, hi, hexec]

theorem run_of_exec_returned {k : Nat} {r0 : BitVec 64} {w : W} (hi : prog k = some i)
    (hpc : s.pc = k) (hexec : exec K i s = .returned r0 w) :
    run K prog (n + 1) s = .returned r0 w := by
  simp [run, step, hpc, hi, hexec]

/-! ## Programs without loops -/

/-- The instruction leads to a slot further on. -/
def Insn.Forward : Insn Sec → Prop
  | .jne _ _ offset => 0 ≤ offset
  | _ => True

instance : DecidablePred (@Insn.Forward Sec)
  | .jne _ _ offset => inferInstanceAs (Decidable (0 ≤ offset))
  | .mov _ _ | .rsh _ _ | .ldxw _ _ _ | .lddw _ _ | .call _ | .exit => .isTrue trivial

theorem pc_lt_of_jump {offset : Int} (hoffset : 0 ≤ offset) (hjump : jump s offset = .next s') :
    s.pc < s'.pc := by
  simp only [jump] at hjump
  split at hjump
  · cases hjump
    dsimp only
    omega
  · cases hjump

theorem pc_lt_of_exec (hi : i.Forward) (hexec : exec K i s = .next s') : s.pc < s'.pc := by
  cases i with
  | jne dst src offset =>
      -- a jump that is not taken is one of offset 0
      simp only [exec] at hexec
      split at hexec
      · refine pc_lt_of_jump ?_ hexec
        split
        · exact Int.le_refl 0
        · exact hi
      · cases hexec
  | lddw dst v =>
      -- two slots
      cases hexec
      simp
  | _ =>
      -- the others fault, return or go on to the next slot
      simp only [exec] at hexec
      repeat' split at hexec
      all_goals
        cases hexec
        try simp [State.set, State.called]

/-- Without a jump back, a program that has no instruction from slot `k` on is over after a step for
each slot and one more, whatever the kernel answers. -/
theorem run_ne_next_of_forward {k : Nat} (hprog : ∀ j i, prog j = some i → i.Forward)
    (hend : ∀ j, k ≤ j → prog j = none) (hn : k ≤ s.pc + n) :
    run K prog (n + 1) s ≠ .next s' := by
  -- the measure is the distance of the pc from slot `k`, which every step shortens
  induction n generalizing s with
  | zero =>
      have hnone : prog s.pc = none := hend s.pc hn
      simp [run, step, hnone]
  | succ n ih =>
      intro hrun
      rw [run] at hrun
      split at hrun
      · rename_i t hstep
        cases hi : prog s.pc with
        | none => simp [step, hi] at hstep
        | some i =>
            have hexec : exec K i s = .next t := by simpa [step, hi] using hstep
            have hpc : s.pc < t.pc := pc_lt_of_exec (hprog s.pc i hi) hexec
            exact ih (by omega) hrun
      · rename_i hstep
        exact hstep s' hrun

end Ebpf
