import Mathlib.Data.List.DropRight
import Mathlib.Tactic.Common

/-!
# CMemory — a fixed byte array, and pointers into it

A pointer into an array is the index it denotes, an `Int`, so that a pointer value below the start of
the array can be written down.  Whether *forming* such a value is an error depends on who is asked:
a flat machine computes with it, the C standard leaves it undefined.  `Checks` selects the reader.
Each operation is given a `bound`, the end of the part of the array that is meant to be in use:

* with `pointers` on, every pointer value formed has to lie in `[0, bound]`;
* with `accesses` on, every byte touched has to lie in `[0, bound)`, and otherwise in the array.
-/

namespace CMemory

/-- Why a run of a C program stops before its end. -/
inductive Fault where
  | assertion
  | pointer (index : Int)
  | access (index : Int) (len : Nat)
  deriving DecidableEq, Repr

/-- Which rules about the part of an array in use are enforced. -/
structure Checks where
  pointers : Bool
  accesses : Bool
  deriving DecidableEq, Repr

namespace Checks

/-- Pointers are machine integers; only accesses outside the array are stopped. -/
def flat : Checks :=
  { pointers := false, accesses := false }

/-- Every pointer value formed is looked at. -/
def strictPointers : Checks :=
  { pointers := true, accesses := false }

/-- Every byte touched is looked at. -/
def strictAccesses : Checks :=
  { pointers := false, accesses := true }

end Checks

/-! ## Arrays of a fixed size -/

/-- A byte array of `n` elements. -/
structure Buffer (n : Nat) where
  bytes : List UInt8
  length_bytes : bytes.length = n

namespace Buffer

variable {n : Nat}

/-- The contents of an array of static storage duration at program start. -/
def zero (n : Nat) : Buffer n :=
  { bytes := List.replicate n 0
    length_bytes := List.length_replicate }

/-- The `len` bytes from index `i` on. -/
def slice (b : Buffer n) (i len : Nat) : List UInt8 :=
  (b.bytes.drop i).take len

/-- Overwrite the bytes from index `i` on with `data`; what would land behind the end is cut off. -/
def fill (b : Buffer n) (i : Nat) (data : List UInt8) : Buffer n :=
  { bytes := (b.bytes.take i ++ data ++ b.bytes.drop (i + data.length)).take n
    length_bytes := by
      have hlen := b.length_bytes
      simp only [List.length_take, List.length_append, List.length_drop]
      omega }

@[simp] theorem length_slice (b : Buffer n) (i len : Nat) :
    (b.slice i len).length = min len (n - i) := by
  simp [slice, b.length_bytes]

@[simp] theorem slice_zero_len (b : Buffer n) (i : Nat) : b.slice i 0 = [] := by
  simp [slice]

theorem drop_slice_zero (b : Buffer n) (i len : Nat) :
    (b.slice 0 len).drop i = b.slice i (len - i) := by
  simp [slice, List.drop_take]

/-- Nothing is cut off of what fits. -/
theorem bytes_fill {b : Buffer n} {i : Nat} {data : List UInt8} (h : i + data.length ≤ n) :
    (b.fill i data).bytes = b.bytes.take i ++ data ++ b.bytes.drop (i + data.length) := by
  have hlen := b.length_bytes
  apply List.take_of_length_le
  simp only [List.length_append, List.length_take, List.length_drop]
  omega

theorem slice_zero_fill {b : Buffer n} {i : Nat} {data : List UInt8} (h : i + data.length ≤ n) :
    (b.fill i data).slice 0 (i + data.length) = b.slice 0 i ++ data := by
  have hi : (b.bytes.take i).length = i := by
    have hlen := b.length_bytes
    simp only [List.length_take]
    omega
  -- The slice ends where the data ends, so what was behind it does not show.
  have hfront : (b.bytes.take i ++ data).length = i + data.length := by
    rw [List.length_append, hi]
  have htake : min (i + data.length) n = (b.bytes.take i ++ data).length := by
    omega
  simp only [slice, fill, List.drop_zero, List.take_take]
  rw [htake, List.take_left']
  rfl

/-- The last `k` bytes of a full front part are a slice. -/
theorem slice_eq_rtake (b : Buffer n) {k len : Nat} (hk : k ≤ len) (hlen : len ≤ n) :
    b.slice (len - k) k = (b.slice 0 len).rtake k := by
  have hfull : (b.slice 0 len).length = len := by
    simp only [length_slice]
    omega
  -- Both sides drop the first `len - k` bytes of the front part.
  have hrest : len - (len - k) = k := by omega
  rw [List.rtake, hfull, drop_slice_zero, hrest]

end Buffer

/-! ## Checked operations -/

/-- `assert(cond)`. -/
def cAssert (cond : Prop) [Decidable cond] : Except Fault Unit :=
  if cond then .ok () else .error .assertion

/-- Form the pointer value that denotes index `i`. -/
def point (chk : Checks) (bound : Nat) (i : Int) : Except Fault Unit :=
  if chk.pointers = true → 0 ≤ i ∧ i ≤ bound then .ok () else .error (.pointer i)

/-- Touch the `len` bytes from index `i` on of an array of `n` bytes. -/
def touch (chk : Checks) (n bound : Nat) (i : Int) (len : Nat) : Except Fault Unit :=
  -- What lies outside the array cannot be touched, whoever is asked.
  if 0 ≤ i ∧ i + len ≤ n ∧ (chk.accesses = true → i + len ≤ bound) then
    .ok ()
  else
    .error (.access i len)

/-- `memcmp(buffer + i, lit, len) == 0`. -/
def memcmpEq {n : Nat} (chk : Checks) (bound : Nat) (b : Buffer n) (i : Int) (lit : List UInt8)
    (len : Nat) : Except Fault Bool := do
  touch chk n bound i len
  return b.slice i.toNat len == lit.take len

/-- `memmove(buffer + dst, buffer + src, len)`: the source is read before anything is written. -/
def memmove {n : Nat} (chk : Checks) (bound : Nat) (b : Buffer n) (dst src : Int) (len : Nat) :
    Except Fault (Buffer n) := do
  touch chk n bound src len
  touch chk n bound dst len
  return b.fill dst.toNat (b.slice src.toNat len)

section Rules

variable {chk : Checks} {n bound len : Nat} {i : Int}

theorem cAssert_of {cond : Prop} [Decidable cond] (h : cond) : cAssert cond = .ok () := by
  simp [cAssert, h]

theorem point_of_mem (h₀ : 0 ≤ i) (h₁ : i ≤ bound) : point chk bound i = .ok () := by
  simp [point, h₀, h₁]

theorem point_of_unchecked (h : chk.pointers = false) : point chk bound i = .ok () := by
  simp [point, h]

theorem point_of_neg (h : chk.pointers = true) (hi : i < 0) :
    point chk bound i = .error (.pointer i) := by
  have hlow : ¬ 0 ≤ i := by omega
  simp [point, h, hlow]

theorem touch_of_mem (h₀ : 0 ≤ i) (h₁ : i + len ≤ bound) (hn : bound ≤ n) :
    touch chk n bound i len = .ok () := by
  have hcap : i + len ≤ n := by omega
  simp [touch, h₀, h₁, hcap]

theorem memcmpEq_of_mem {b : Buffer n} {lit : List UInt8} {k : Nat} (h : k + len ≤ bound)
    (hn : bound ≤ n) :
    memcmpEq chk bound b k lit len = .ok (b.slice k len == lit.take len) := by
  have htouch : touch chk n bound (k : Int) len = .ok () :=
    touch_of_mem (by omega) (by omega) hn
  simp only [memcmpEq, htouch]
  rfl

theorem memmove_of_mem {b : Buffer n} {dst src : Nat} (hdst : dst + len ≤ bound)
    (hsrc : src + len ≤ bound) (hn : bound ≤ n) :
    memmove chk bound b dst src len = .ok (b.fill dst (b.slice src len)) := by
  have hread : touch chk n bound (src : Int) len = .ok () :=
    touch_of_mem (by omega) (by omega) hn
  have hwrite : touch chk n bound (dst : Int) len = .ok () :=
    touch_of_mem (by omega) (by omega) hn
  simp only [memmove, hread, hwrite]
  rfl

end Rules

end CMemory
