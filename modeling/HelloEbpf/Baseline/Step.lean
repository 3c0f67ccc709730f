import HelloEbpf.Baseline.Program
import HelloEbpf.Words.Stream

/-!
# Step — what one iteration of the outer loop does

`next` is the state after an iteration, written without the loop and without the checks.  `body`
returns it whenever the window fits the buffer and, if pointer values are looked at, holds a whole
pattern (`body_eq_next`); with a shorter window and strict pointers the iteration stops at `limit`
(`body_short`).  No proof behind this module unfolds `body` or `scanLoop`.
-/

namespace HelloEbpf
namespace Baseline

open CMemory Words

namespace Macros

variable (mac : Macros)

theorem pattern_ne_nil : mac.pattern ≠ [] := by
  intro hnil
  have hpos := mac.patternLenBytes_pos
  rw [mac.patternLenBytes_eq, hnil] at hpos
  exact absurd hpos (by simp)

end Macros

variable {chk : Checks} {mac : Macros} {totalLenBytes : Nat}

/-! ## The inner scan -/

theorem limitOf_eq (hptr : chk.pointers = true → mac.patternLenBytes ≤ totalLenBytes) :
    limitOf chk mac totalLenBytes = .ok ((totalLenBytes : Int) - mac.patternLenBytes + 1) := by
  have hpos := mac.patternLenBytes_pos
  have hend : point chk totalLenBytes (totalLenBytes : Int) = .ok () :=
    point_of_mem (by omega) (by omega)
  by_cases hchk : chk.pointers = true
  · have hlen := hptr hchk
    have hsub : point chk totalLenBytes ((totalLenBytes : Int) - mac.patternLenBytes) = .ok () :=
      point_of_mem (by omega) (by omega)
    have hadd : point chk totalLenBytes ((totalLenBytes : Int) - mac.patternLenBytes + 1) = .ok () :=
      point_of_mem (by omega) (by omega)
    simp only [limitOf, hend, hsub, hadd]
    rfl
  · have hoff : chk.pointers = false := by simpa using hchk
    simp only [limitOf, hend, point_of_unchecked hoff]
    rfl

/-- With strict pointers a short window stops at the first subtraction. -/
theorem limitOf_short (hchk : chk.pointers = true) (hlen : totalLenBytes < mac.patternLenBytes) :
    limitOf chk mac totalLenBytes =
      .error (.pointer ((totalLenBytes : Int) - mac.patternLenBytes)) := by
  have hend : point chk totalLenBytes (totalLenBytes : Int) = .ok () :=
    point_of_mem (by omega) (by omega)
  have hsub : point chk totalLenBytes ((totalLenBytes : Int) - mac.patternLenBytes) =
      .error (.pointer ((totalLenBytes : Int) - mac.patternLenBytes)) :=
    point_of_neg hchk (by omega)
  simp only [limitOf, hend, hsub]
  rfl

section ScanLoop

variable {buffer : Buffer mac.chunkSizeBytes} (hcap : totalLenBytes ≤ mac.chunkSizeBytes)
include hcap

/-- `memcmp` at an index below `limit` says whether a copy of the pattern starts there. -/
theorem memcmpEq_pattern {k : Nat} (hk : k + mac.patternLenBytes ≤ totalLenBytes) :
    memcmpEq chk totalLenBytes buffer k mac.pattern mac.patternLenBytes =
      .ok (decide (mac.pattern <+: (buffer.slice 0 totalLenBytes).drop k)) := by
  rw [memcmpEq_of_mem hk hcap]
  congr 1
  have hwindow : (buffer.slice 0 totalLenBytes).drop k =
      buffer.slice k (totalLenBytes - k) := Buffer.drop_slice_zero _ _ _
  have hlong : mac.patternLenBytes ≤ totalLenBytes - k := by omega
  -- The bytes compared are a slice of the buffer, and a prefix of the rest of the window.
  have hslice : buffer.slice k mac.patternLenBytes =
      ((buffer.slice 0 totalLenBytes).drop k).take mac.patternLenBytes := by
    rw [hwindow, Buffer.slice, Buffer.slice, List.take_take, Nat.min_eq_left hlong]
  have hpattern : mac.pattern.take mac.patternLenBytes = mac.pattern := by
    rw [mac.patternLenBytes_eq, List.take_length]
  rw [hslice, hpattern, Bool.eq_iff_iff, beq_iff_eq, decide_eq_true_iff,
    List.prefix_iff_eq_take, ← mac.patternLenBytes_eq]
  exact eq_comm

/-- The inner loop adds what the leftmost non-overlapping scan of the rest of the window counts. -/
theorem scanLoop_eq (k : Nat) (hk : k ≤ totalLenBytes) (totalCount : UInt64) :
    scanLoop chk mac buffer totalLenBytes ((totalLenBytes : Int) - mac.patternLenBytes + 1) k
        totalCount =
      .ok (totalCount +
        UInt64.ofNat (scan mac.pattern ((buffer.slice 0 totalLenBytes).drop k))) := by
  -- Induction on the bytes that are left; the two branches advance by a pattern or by one.
  induction hn : totalLenBytes - k using Nat.strong_induction_on generalizing k totalCount with
  | h n ih =>
      have hpos := mac.patternLenBytes_pos
      have hleft : ((buffer.slice 0 totalLenBytes).drop k).length = totalLenBytes - k := by
        simp only [List.length_drop, Buffer.length_slice]
        omega
      rw [scanLoop]
      by_cases hlt : (k : Int) < (totalLenBytes : Int) - mac.patternLenBytes + 1
      · have hfit : k + mac.patternLenBytes ≤ totalLenBytes := by omega
        simp only [hlt, ↓reduceIte, memcmpEq_pattern hcap hfit]
        by_cases hmatch : mac.pattern <+: (buffer.slice 0 totalLenBytes).drop k
        · -- `ptr += PATTERN_LEN_BYTES`
          have hpoint : point chk totalLenBytes ((k : Int) + mac.patternLenBytes) = .ok () :=
            point_of_mem (by omega) (by omega)
          have hrest := ih (totalLenBytes - (k + mac.patternLenBytes)) (by omega)
            (k + mac.patternLenBytes) (by omega) (totalCount + 1) rfl
          have hscan : scan mac.pattern ((buffer.slice 0 totalLenBytes).drop k) =
              1 + scan mac.pattern
                ((buffer.slice 0 totalLenBytes).drop (k + mac.patternLenBytes)) := by
            rw [scan_of_isPrefix mac.pattern_ne_nil hmatch, List.drop_drop,
              mac.patternLenBytes_eq]
          push_cast at hrest
          rw [hscan, UInt64.ofNat_add, ← UInt64.add_assoc]
          simpa [hmatch, hpoint, bind, Except.bind] using hrest
        · -- `ptr++`
          have hpoint : point chk totalLenBytes ((k : Int) + 1) = .ok () :=
            point_of_mem (by omega) (by omega)
          have hrest := ih (totalLenBytes - (k + 1)) (by omega) (k + 1) (by omega) totalCount rfl
          have hscan : scan mac.pattern ((buffer.slice 0 totalLenBytes).drop k) =
              scan mac.pattern ((buffer.slice 0 totalLenBytes).drop (k + 1)) := by
            cases hrem : (buffer.slice 0 totalLenBytes).drop k with
            | nil =>
                rw [hrem] at hleft
                simp only [List.length_nil] at hleft
                omega
            | cons a t =>
                have hnext : (buffer.slice 0 totalLenBytes).drop (k + 1) = t := by
                  rw [← List.drop_drop, hrem]
                  rfl
                rw [hrem] at hmatch
                rw [hnext, scan_cons_of_not_isPrefix hmatch]
          push_cast at hrest
          rw [hscan]
          simpa [hmatch, hpoint, bind, Except.bind] using hrest
      · -- Behind `limit` a copy of the pattern does not fit.
        have hshort : scan mac.pattern ((buffer.slice 0 totalLenBytes).drop k) = 0 := by
          apply scan_eq_zero_of_length_lt
          rw [hleft, ← mac.patternLenBytes_eq]
          omega
        simp [hlt, hshort, pure, Except.pure]

end ScanLoop

/-! ## One iteration -/

/-- The buffer once `read()` has put `piece` behind the kept bytes. -/
def received (st : LoopState mac) (piece : List UInt8) : Buffer mac.chunkSizeBytes :=
  st.buffer.fill st.offsetBytes piece

/-- The state after an iteration whose `read()` delivered `piece`. -/
def next (st : LoopState mac) (piece : List UInt8) : LoopState mac :=
  let buffer := received st piece
  let totalLenBytes := piece.length + st.offsetBytes
  if totalLenBytes < mac.patternLenBytes then
    { st with buffer := buffer, offsetBytes := totalLenBytes }
  else
    let bytesToKeep := mac.patternLenBytes - 1
    { buffer := buffer.fill 0 (buffer.slice (totalLenBytes - bytesToKeep) bytesToKeep)
      offsetBytes := bytesToKeep
      totalCount := st.totalCount +
        UInt64.ofNat (scan mac.pattern (buffer.slice 0 totalLenBytes)) }

section Body

variable {st : LoopState mac} {piece : List UInt8}

theorem body_eq_next (hcap : piece.length + st.offsetBytes ≤ mac.chunkSizeBytes)
    (hptr : chk.pointers = true → mac.patternLenBytes ≤ piece.length + st.offsetBytes) :
    body chk mac st piece = .ok (next st piece) := by
  have hpos := mac.patternLenBytes_pos
  have hread : point chk mac.chunkSizeBytes (st.offsetBytes : Int) = .ok () :=
    point_of_mem (by omega) (by omega)
  have hassert : cAssert (piece.length + st.offsetBytes ≤ mac.chunkSizeBytes) = .ok () :=
    cAssert_of hcap
  have hlimit := limitOf_eq hptr
  by_cases hshort : piece.length + st.offsetBytes < mac.patternLenBytes
  · simp [body, next, received, hread, hassert, hlimit, hshort, bind, Except.bind, pure,
      Except.pure]
  · -- The guard of `bytes_to_keep` is never taken: a full window is longer than the overlap.
    have hkeep : ¬ piece.length + st.offsetBytes < mac.patternLenBytes - 1 := by omega
    have hscan : scanLoop chk mac (received st piece) (piece.length + st.offsetBytes)
        (((piece.length + st.offsetBytes : Nat) : Int) - mac.patternLenBytes + 1) (0 : Nat)
        st.totalCount =
          .ok (st.totalCount + UInt64.ofNat (scan mac.pattern
            (((received st piece).slice 0 (piece.length + st.offsetBytes)).drop 0))) :=
      scanLoop_eq hcap 0 (Nat.zero_le _) st.totalCount
    have hend : point chk (piece.length + st.offsetBytes)
        ((piece.length + st.offsetBytes : Nat) : Int) = .ok () :=
      point_of_mem (by omega) (by omega)
    have hsource : point chk (piece.length + st.offsetBytes)
        (((piece.length + st.offsetBytes : Nat) : Int) - (mac.patternLenBytes - 1 : Nat)) =
          .ok () :=
      point_of_mem (by omega) (by omega)
    have hcast : ((piece.length + st.offsetBytes : Nat) : Int) - (mac.patternLenBytes - 1 : Nat) =
        ((piece.length + st.offsetBytes - (mac.patternLenBytes - 1) : Nat) : Int) := by
      omega
    have hmove : memmove chk (piece.length + st.offsetBytes) (received st piece) (0 : Nat)
        (piece.length + st.offsetBytes - (mac.patternLenBytes - 1) : Nat)
        (mac.patternLenBytes - 1) =
          .ok ((received st piece).fill 0 ((received st piece).slice
            (piece.length + st.offsetBytes - (mac.patternLenBytes - 1))
            (mac.patternLenBytes - 1))) :=
      memmove_of_mem (by omega) (by omega) hcap
    -- `hmove` speaks of the index as the source computes it, in the integers.
    rw [← hcast] at hmove
    simp only [received, List.drop_zero, Int.natCast_zero] at hscan hmove
    simp only [body, next, received, hread, hassert, hlimit, hshort, hkeep, hscan, hend, hsource,
      hmove, bind, Except.bind, pure, Except.pure, ↓reduceIte]

/-- With strict pointers an iteration with a short window does not get behind `limit`. -/
theorem body_short (hcap : piece.length + st.offsetBytes ≤ mac.chunkSizeBytes)
    (hchk : chk.pointers = true) (hshort : piece.length + st.offsetBytes < mac.patternLenBytes) :
    body chk mac st piece =
      .error (.pointer (((piece.length + st.offsetBytes : Nat) : Int) - mac.patternLenBytes)) := by
  have hread : point chk mac.chunkSizeBytes (st.offsetBytes : Int) = .ok () :=
    point_of_mem (by omega) (by omega)
  have hassert : cAssert (piece.length + st.offsetBytes ≤ mac.chunkSizeBytes) = .ok () :=
    cAssert_of hcap
  have hlimit := limitOf_short hchk hshort
  simp only [body, hread, hassert, hlimit]
  rfl

end Body

end Baseline
end HelloEbpf
