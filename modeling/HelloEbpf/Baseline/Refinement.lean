import HelloEbpf.Baseline.Step
import HelloEbpf.Runs

/-!
# Refinement — the buffer loop is a window counter

The abstract machine is `Words.Window`: the kept letters of the stream and a natural number.  A loop
state refines it when the front of the buffer holds the kept letters and `total_count` is the count
modulo `2 ^ 64`; nothing is said of the rest of the buffer.  One iteration refines one `feed`
(`next_refines`), and a run over the pieces the operating system may deliver refines the run of the
window counter over them (`readLoop_refines`).
-/

namespace HelloEbpf
namespace Baseline

open CMemory Words Runs

variable {mac : Macros} {st st' : LoopState mac} {w : Window UInt8}

/-- The front of the buffer and the count are those of the window counter. -/
structure Refines (st : LoopState mac) (w : Window UInt8) : Prop where
  offset : st.offsetBytes = w.carry.length
  kept : st.buffer.slice 0 st.offsetBytes = w.carry
  count : st.totalCount = UInt64.ofNat w.count

theorem start_refines (mac : Macros) : Refines (start mac) Window.start := by
  refine ⟨rfl, ?_, rfl⟩
  simp [start, Window.start]

/-! ## One iteration -/

theorem Fits.le {piece : Piece} (h : Fits st piece) :
    piece.val.length + st.offsetBytes ≤ mac.chunkSizeBytes := by
  have hpos : 0 < piece.val.length := List.length_pos_iff.2 piece.property
  have hle : piece.val.length ≤ mac.chunkSizeBytes - st.offsetBytes := h
  omega

/-- Behind a `read()` the window is the kept letters followed by the new ones. -/
theorem Refines.received_eq {piece : List UInt8} (h : Refines st w)
    (hcap : piece.length + st.offsetBytes ≤ mac.chunkSizeBytes) :
    (received st piece).slice 0 (piece.length + st.offsetBytes) = w.carry ++ piece := by
  rw [Nat.add_comm, received, Buffer.slice_zero_fill (by omega), h.kept]

theorem next_refines {piece : List UInt8} (h : Refines st w)
    (hcap : piece.length + st.offsetBytes ≤ mac.chunkSizeBytes) :
    Refines (next st piece) (w.feed mac.pattern piece) := by
  have hpos := mac.patternLenBytes_pos
  have hwindow := h.received_eq hcap
  have hlen : (w.carry ++ piece).length = piece.length + st.offsetBytes := by
    rw [List.length_append, h.offset, Nat.add_comm]
  by_cases hshort : piece.length + st.offsetBytes < mac.patternLenBytes
  · -- The `continue` path keeps everything; there is no room for a copy of the pattern.
    have hkeep : (w.carry ++ piece).rtake (mac.pattern.length - 1) = w.carry ++ piece := by
      apply rtake_of_length_le
      rw [hlen, ← mac.patternLenBytes_eq]
      omega
    have hnone : scan mac.pattern (w.carry ++ piece) = 0 := by
      apply scan_eq_zero_of_length_lt
      rw [hlen, ← mac.patternLenBytes_eq]
      exact hshort
    refine ⟨?_, ?_, ?_⟩
    · simp only [next, hshort, ↓reduceIte, Window.feed, hkeep, hlen]
    · simpa only [next, hshort, ↓reduceIte, Window.feed, hkeep] using hwindow
    · simpa only [next, hshort, ↓reduceIte, Window.feed, hnone, Nat.add_zero] using h.count
  · -- A full window: what `memmove` brings to the front is its end.
    have hkeep : mac.patternLenBytes - 1 ≤ piece.length + st.offsetBytes := by omega
    have hsource : (received st piece).slice
        (piece.length + st.offsetBytes - (mac.patternLenBytes - 1)) (mac.patternLenBytes - 1) =
          (w.carry ++ piece).rtake (mac.pattern.length - 1) := by
      rw [Buffer.slice_eq_rtake _ hkeep hcap, hwindow, mac.patternLenBytes_eq]
    have hsize : ((w.carry ++ piece).rtake (mac.pattern.length - 1)).length =
        mac.patternLenBytes - 1 := by
      rw [length_rtake, hlen, ← mac.patternLenBytes_eq]
      omega
    have hmoved : ((received st piece).fill 0
        ((w.carry ++ piece).rtake (mac.pattern.length - 1))).slice 0 (mac.patternLenBytes - 1) =
          (w.carry ++ piece).rtake (mac.pattern.length - 1) := by
      have hroom : 0 + ((w.carry ++ piece).rtake (mac.pattern.length - 1)).length ≤
          mac.chunkSizeBytes := by
        omega
      simpa [hsize] using Buffer.slice_zero_fill (b := received st piece) hroom
    refine ⟨?_, ?_, ?_⟩
    · simp only [next, hshort, ↓reduceIte, Window.feed, hsize]
    · simpa only [next, hshort, ↓reduceIte, Window.feed, hsource] using hmoved
    · simp only [next, hshort, ↓reduceIte, Window.feed, hwindow, h.count, UInt64.ofNat_add]

/-- One iteration on a flat machine, whichever accesses are looked at. -/
theorem body_refines (chk : Checks) (hchk : chk.pointers = false) {piece : Piece}
    (h : Refines st w) (hfits : Fits st piece) :
    ∃ st', body chk mac st piece.val = .ok st' ∧
      Refines st' (w.feed mac.pattern piece.val) := by
  refine ⟨next st piece.val, ?_, next_refines h hfits.le⟩
  refine body_eq_next hfits.le ?_
  intro htrue
  rw [hchk] at htrue
  cases htrue

/-! ## Whole runs -/

theorem readLoop_cons_of_ok {chk : Checks} {piece : Piece} {rest : List Piece}
    (h : body chk mac st piece.val = .ok st') :
    readLoop chk mac st (piece :: rest) = readLoop chk mac st' rest := by
  rw [readLoop, List.foldlM_cons, h]
  rfl

theorem readLoop_cons_of_error {chk : Checks} {piece : Piece} {rest : List Piece} {fault : Fault}
    (h : body chk mac st piece.val = .error fault) :
    readLoop chk mac st (piece :: rest) = .error fault := by
  rw [readLoop, List.foldlM_cons, h]
  rfl

/-- The pieces the operating system may deliver to the program: each `read()` returns at most the
number of bytes asked for in the state the program is in when it calls. -/
def Admissible (mac : Macros) (pieces : List Piece) : Prop :=
  Guarded (fun st piece => body Checks.flat mac st piece.val) Fits (start mac) pieces

/-- The window counter over the pieces. -/
def counter (mac : Macros) (pieces : List Piece) : Window UInt8 :=
  Window.run mac.pattern (pieces.map Subtype.val)

theorem counter_concat (mac : Macros) (pieces : List Piece) (piece : Piece) :
    counter mac (pieces ++ [piece]) = (counter mac pieces).feed mac.pattern piece.val := by
  simp [counter, Window.run_concat]

theorem counter_carry (mac : Macros) (pieces : List Piece) :
    (counter mac pieces).carry = (delivered pieces).rtake (mac.patternLenBytes - 1) := by
  rw [mac.patternLenBytes_eq]
  exact Window.run_carry _ _

@[simp] theorem delivered_nil : delivered [] = [] := rfl

theorem delivered_concat (pieces : List Piece) (piece : Piece) :
    delivered (pieces ++ [piece]) = delivered pieces ++ piece.val := by
  simp [delivered]

/-- The state at the loop head once `pieces` have been consumed. -/
def AtHead (pieces : List Piece) (st : LoopState mac) : Prop :=
  Refines st (counter mac pieces)

theorem atHead_start (mac : Macros) : AtHead [] (start mac) :=
  start_refines mac

theorem AtHead.step {pieces : List Piece} {piece : Piece} (h : AtHead pieces st)
    (hfits : Fits st piece) :
    ∃ st', body Checks.flat mac st piece.val = .ok st' ∧ AtHead (pieces ++ [piece]) st' := by
  rcases body_refines Checks.flat rfl h hfits with ⟨st', hbody, hnext⟩
  refine ⟨st', hbody, ?_⟩
  rw [AtHead, counter_concat]
  exact hnext

/-- The outer loop gets through every admissible sequence of pieces, as the window counter does. -/
theorem readLoop_refines {pieces : List Piece} (h : Admissible mac pieces) :
    ∃ st, readLoop Checks.flat mac (start mac) pieces = .ok st ∧
      Refines st (counter mac pieces) := by
  have hrun := Guarded.invariant (fun pieces st => AtHead pieces st)
    (fun _ _ _ hinv hfits => AtHead.step hinv hfits) [] (atHead_start mac) h
  simpa [readLoop, AtHead] using hrun

theorem AtHead.offset_eq {pieces : List Piece} (h : AtHead pieces st) :
    st.offsetBytes = min (mac.patternLenBytes - 1) (delivered pieces).length := by
  rw [h.offset, counter_carry, length_rtake]

/-- A first piece that fits the buffer, and later ones that leave room for the overlap. -/
theorem admissible_cons {piece : Piece} {pieces : List Piece}
    (hfirst : piece.val.length ≤ mac.chunkSizeBytes)
    (hrest : ∀ later ∈ pieces,
      later.val.length ≤ mac.chunkSizeBytes - (mac.patternLenBytes - 1)) :
    Admissible mac (piece :: pieces) := by
  have hfits : Fits (start mac) piece := hfirst
  refine ⟨hfits, ?_⟩
  intro st hbody
  rcases (atHead_start mac).step hfits with ⟨st₁, hbody₁, hhead⟩
  cases hbody₁.symm.trans hbody
  -- At every later loop head the kept bytes are at most the overlap.
  refine guarded_of_invariant (fun pieces st => AtHead pieces st) ?_ ([] ++ [piece]) hhead ?_
  · intro pre s later s' hinv hlater hbody'
    rcases hinv.step hlater with ⟨s'', hbody'', hnext⟩
    cases hbody''.symm.trans hbody'
    exact hnext
  · intro pre s later hinv hmem
    have hle := hrest later hmem
    have hoffset := hinv.offset_eq
    show later.val.length ≤ mac.chunkSizeBytes - s.offsetBytes
    omega

end Baseline
end HelloEbpf
