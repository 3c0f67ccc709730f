import HelloEbpf.Baseline.Refinement

/-!
# Safety — pointers, accesses and stale bytes

Three readings of the same loop, one for each way in which it could go wrong:

* with every pointer value looked at, a run stops at `limit` exactly when its first `read()` is too
  short for a pattern (`pointersInRange_iff`): `limit` is computed before the length is tested;
* with every access looked at, no run stops, and none reaches the `assert` (`loop_invariant`);
* a run from a loop head does not depend on the bytes behind the kept ones (`Refines.stale`).
-/

namespace HelloEbpf
namespace Baseline

open CMemory Words Runs

variable {mac : Macros} {st : LoopState mac}

/-! ## Pointer values -/

/-- No pointer value outside the window is formed in a run over the pieces. -/
def PointersInRange (mac : Macros) (pieces : List Piece) : Prop :=
  ∀ i, readLoop Checks.strictPointers mac (start mac) pieces ≠ .error (.pointer i)

/-- Once the overlap is full it stays full, so every later window holds a whole pattern. -/
theorem offset_ge_step {st' : LoopState mac} {piece : Piece}
    (hoffset : mac.patternLenBytes - 1 ≤ st.offsetBytes) (hfits : Fits st piece)
    (hbody : body Checks.flat mac st piece.val = .ok st') :
    mac.patternLenBytes - 1 ≤ st'.offsetBytes := by
  have hpos : 0 < piece.val.length := List.length_pos_iff.2 piece.property
  -- The overlap and one more byte are a whole pattern.
  have hlong : ¬ piece.val.length + st.offsetBytes < mac.patternLenBytes := by omega
  have hnext : body Checks.flat mac st piece.val = .ok (next st piece.val) :=
    body_eq_next hfits.le (by simp [Checks.flat])
  cases hnext.symm.trans hbody
  simp [next, hlong]

/-- From a full overlap on the strict machine agrees with the flat one. -/
theorem readLoop_strict_of_offset {pieces : List Piece}
    (hoffset : mac.patternLenBytes - 1 ≤ st.offsetBytes)
    (h : Guarded (fun st piece => body Checks.flat mac st piece.val) Fits st pieces) :
    readLoop Checks.strictPointers mac st pieces = readLoop Checks.flat mac st pieces := by
  refine Guarded.foldlM_congr (fun _ st => mac.patternLenBytes - 1 ≤ st.offsetBytes)
    ?_ ?_ [] hoffset h
  · intro _ s piece s' hinv hfits hbody
    exact offset_ge_step hinv hfits hbody
  · intro _ s piece hinv hfits
    have hpos : 0 < piece.val.length := List.length_pos_iff.2 piece.property
    have hstrict : body Checks.strictPointers mac s piece.val = .ok (next s piece.val) :=
      body_eq_next hfits.le (by intro _; omega)
    have hflat : body Checks.flat mac s piece.val = .ok (next s piece.val) :=
      body_eq_next hfits.le (by simp [Checks.flat])
    exact hstrict.trans hflat.symm

/-- A run whose first window holds a whole pattern forms no pointer value outside a window. -/
theorem readLoop_strict_of_long {first : Piece} {rest : List Piece}
    (h : Admissible mac (first :: rest)) (hlong : mac.patternLenBytes ≤ first.val.length) :
    readLoop Checks.strictPointers mac (start mac) (first :: rest) =
      readLoop Checks.flat mac (start mac) (first :: rest) := by
  rcases h with ⟨hfits, hrest⟩
  have hoffset : (start mac).offsetBytes = 0 := rfl
  have hflat : body Checks.flat mac (start mac) first.val = .ok (next (start mac) first.val) :=
    body_eq_next hfits.le (by simp [Checks.flat])
  have hstrict : body Checks.strictPointers mac (start mac) first.val =
      .ok (next (start mac) first.val) :=
    body_eq_next hfits.le (by intro _; omega)
  have hfull : mac.patternLenBytes - 1 ≤ (next (start mac) first.val).offsetBytes := by
    have hwindow : ¬ first.val.length + (start mac).offsetBytes < mac.patternLenBytes := by omega
    simp [next, hwindow]
  -- From here on every window is long enough for both machines.
  have htail := readLoop_strict_of_offset hfull (hrest _ hflat)
  calc
    readLoop Checks.strictPointers mac (start mac) (first :: rest)
        = readLoop Checks.strictPointers mac (next (start mac) first.val) rest :=
          readLoop_cons_of_ok hstrict
    _ = readLoop Checks.flat mac (next (start mac) first.val) rest := htail
    _ = readLoop Checks.flat mac (start mac) (first :: rest) := (readLoop_cons_of_ok hflat).symm

/-- A run whose first window is shorter than a pattern stops at the first subtraction. -/
theorem readLoop_strict_of_short {first : Piece} {rest : List Piece}
    (hfits : Fits (start mac) first) (hshort : first.val.length < mac.patternLenBytes) :
    readLoop Checks.strictPointers mac (start mac) (first :: rest) =
      .error (.pointer ((first.val.length : Int) - mac.patternLenBytes)) := by
  have hbody : body Checks.strictPointers mac (start mac) first.val =
      .error (.pointer ((first.val.length : Int) - mac.patternLenBytes)) :=
    body_short hfits.le rfl hshort
  exact readLoop_cons_of_error hbody

theorem pointersInRange_iff {pieces : List Piece} (h : Admissible mac pieces) :
    PointersInRange mac pieces ↔
      ∀ first ∈ pieces.head?, mac.patternLenBytes ≤ first.val.length := by
  cases pieces with
  | nil =>
      constructor
      · intro _ first hfirst
        cases hfirst
      · intro _ i hrun
        cases hrun
  | cons first rest =>
      constructor
      · intro hrange piece hpiece
        have hfirst : first = piece := by simpa using hpiece
        subst hfirst
        by_contra hshort
        exact hrange _ (readLoop_strict_of_short h.1 (by omega))
      · intro hlong i hrun
        rcases readLoop_refines h with ⟨st, hflat, _⟩
        rw [readLoop_strict_of_long h (hlong first (by simp)), hflat] at hrun
        cases hrun

/-- The pointers of `baseline.c` stay in the window exactly in the runs whose first `read()` delivers
nothing or at least a whole pattern; such a run is the same for the strict and for the flat machine. -/
theorem limit_in_range_iff (reads : Schedule) (h : Admissible macros reads.pieces) :
    (PointersInRange macros reads.pieces ↔ ∀ first ∈ reads.pieces.head?, 5 ≤ first.val.length) ∧
    (PointersInRange macros reads.pieces →
      readLoop Checks.strictPointers macros (start macros) reads.pieces =
        readLoop Checks.flat macros (start macros) reads.pieces) := by
  have hiff : PointersInRange macros reads.pieces ↔
      ∀ first ∈ reads.pieces.head?, 5 ≤ first.val.length := pointersInRange_iff h
  refine ⟨hiff, ?_⟩
  intro hrange
  have hlong := hiff.1 hrange
  rcases hpieces : reads.pieces with _ | ⟨first, rest⟩
  · rfl
  · rw [hpieces] at h hlong
    exact readLoop_strict_of_long h (hlong first (by simp))

/-- A first `read()` of exactly five bytes. -/
theorem limit_in_range_iff_alpha :
    PointersInRange macros [⟨alpha, by decide⟩, ⟨[0x0a], by decide⟩] := by
  have hadm : Admissible macros [⟨alpha, by decide⟩, ⟨[0x0a], by decide⟩] :=
    admissible_cons (by decide) (by decide)
  refine (limit_in_range_iff { pieces := [⟨alpha, by decide⟩, ⟨[0x0a], by decide⟩], last := .eof }
    hadm).1.2 ?_
  decide

/-- A file of two bytes: `buffer + 2 - 5` denotes index `-3`. -/
theorem limit_below_buffer :
    Admissible macros [⟨[0x48, 0x69], by decide⟩] ∧
    readLoop Checks.strictPointers macros (start macros) [⟨[0x48, 0x69], by decide⟩] =
      .error (.pointer (-3)) ∧
    ¬ PointersInRange macros [⟨[0x48, 0x69], by decide⟩] := by
  have hadm : Admissible macros [⟨[0x48, 0x69], by decide⟩] :=
    admissible_cons (by decide) (by decide)
  have hrun : readLoop Checks.strictPointers macros (start macros) [⟨[0x48, 0x69], by decide⟩] =
      .error (.pointer (-3)) :=
    readLoop_strict_of_short hadm.1 (by decide)
  exact ⟨hadm, hrun, fun hrange => hrange (-3) hrun⟩

/-! ## The loop invariant -/

/-- What holds at the loop head once the bytes `consumed` have been read: the front of the buffer is
the overlap, and the next `read()` asks for a positive number of bytes, so that it can return `0` at
end of file only. -/
structure HeadInv (consumed : List UInt8) (st : LoopState mac) : Prop where
  offset : st.offsetBytes = min (mac.patternLenBytes - 1) consumed.length
  kept : st.buffer.slice 0 st.offsetBytes = consumed.rtake st.offsetBytes
  request : mac.chunkSizeBytes - (mac.patternLenBytes - 1) ≤ requested st
  request_pos : 0 < mac.chunkSizeBytes - (mac.patternLenBytes - 1)

/-- What holds behind a `read()` that delivered `piece`, where `consumed` now includes the piece: the
`assert` passes, the window is the end of the stream so far, and the rest of the iteration touches
nothing outside the window. -/
structure WindowInv (consumed : List UInt8) (st : LoopState mac) (piece : List UInt8) : Prop where
  assertion : piece.length + st.offsetBytes ≤ mac.chunkSizeBytes
  length : piece.length + st.offsetBytes ≤ consumed.length
  window : (received st piece).slice 0 (piece.length + st.offsetBytes) =
    consumed.rtake (piece.length + st.offsetBytes)
  accesses : ∃ st', body Checks.strictAccesses mac st piece = .ok st' ∧
    body Checks.flat mac st piece = .ok st'

theorem rtake_min_length {α : Type*} (k : Nat) (x : List α) :
    x.rtake (min k x.length) = x.rtake k := by
  have hdrop : x.length - min k x.length = x.length - k := by omega
  rw [List.rtake, List.rtake, hdrop]

theorem AtHead.headInv {pieces : List Piece} (h : AtHead pieces st) :
    HeadInv (delivered pieces) st := by
  have hoffset := h.offset_eq
  have hpos := mac.patternLenBytes_pos
  have hge := mac.chunkSizeBytes_ge
  refine ⟨hoffset, ?_, ?_, by omega⟩
  · rw [h.kept, counter_carry, hoffset, rtake_min_length]
  · show mac.chunkSizeBytes - (mac.patternLenBytes - 1) ≤ mac.chunkSizeBytes - st.offsetBytes
    omega

theorem AtHead.windowInv {pieces : List Piece} {piece : Piece} (h : AtHead pieces st)
    (hfits : Fits st piece) :
    WindowInv (delivered (pieces ++ [piece])) st piece.val := by
  have hoffset := h.offset_eq
  have hkept : (delivered pieces).rtake (mac.patternLenBytes - 1) =
      (delivered pieces).drop ((delivered pieces).length - st.offsetBytes) := by
    rw [hoffset, ← rtake_min_length, List.rtake]
  refine ⟨hfits.le, ?_, ?_, next st piece.val, ?_, ?_⟩
  · rw [delivered_concat, List.length_append]
    omega
  · -- The window is the overlap and the piece; both are the end of what has been consumed.
    have hend : (delivered pieces ++ piece.val).length - (piece.val.length + st.offsetBytes) =
        (delivered pieces).length - st.offsetBytes := by
      simp only [List.length_append]
      omega
    rw [h.received_eq hfits.le, counter_carry, hkept, delivered_concat, List.rtake, hend,
      List.drop_append_of_le_length (by omega)]
  · exact body_eq_next hfits.le (by simp [Checks.strictAccesses])
  · exact body_eq_next hfits.le (by simp [Checks.flat])

/-- Bytes behind the kept ones, left over from earlier windows, do not reach the count. -/
theorem Refines.stale {w : Window UInt8} {pieces : List Piece}
    {buffer : Buffer mac.chunkSizeBytes} (h : Refines st w)
    (hkept : buffer.slice 0 st.offsetBytes = st.buffer.slice 0 st.offsetBytes)
    (hadm : Guarded (fun st piece => body Checks.flat mac st piece.val) Fits st pieces) :
    ∃ st₁ st₂, readLoop Checks.flat mac st pieces = .ok st₁ ∧
      readLoop Checks.flat mac { st with buffer := buffer } pieces = .ok st₂ ∧
      st₁.totalCount = st₂.totalCount := by
  -- The relation between two loop states is that they refine the same window counter.
  have hother : Refines { st with buffer := buffer } w :=
    ⟨h.offset, hkept.trans h.kept, h.count⟩
  have hrelated := Guarded.related
    (fun s t : LoopState mac => ∃ w, Refines s w ∧ Refines t w) ?_ ⟨w, h, hother⟩ hadm
  · rcases hrelated with ⟨st₁, st₂, hrun₁, hrun₂, w', href₁, href₂⟩
    exact ⟨st₁, st₂, hrun₁, hrun₂, href₁.count.trans href₂.count.symm⟩
  · rintro s t piece ⟨w', hs, ht⟩ hfits
    have hoffset : t.offsetBytes = s.offsetBytes := ht.offset.trans hs.offset.symm
    have hfits' : Fits t piece := by
      simpa [Fits, requested, hoffset] using hfits
    rcases body_refines Checks.flat rfl hs hfits with ⟨s', hbody, hs'⟩
    rcases body_refines Checks.flat rfl ht hfits' with ⟨t', hbody', ht'⟩
    exact ⟨s', t', hbody, hbody', _, hs', ht'⟩

/-- Every loop head and every iteration of every run of `baseline.c`. -/
theorem loop_invariant (pre post : List Piece) (h : Admissible macros (pre ++ post)) :
    ∃ st, readLoop Checks.flat macros (start macros) pre = .ok st ∧
      HeadInv (delivered pre) st ∧
      (∀ piece rest, post = piece :: rest →
        WindowInv (delivered (pre ++ [piece])) st piece.val) ∧
      (∀ buffer, buffer.slice 0 st.offsetBytes = st.buffer.slice 0 st.offsetBytes →
        ∃ st₁ st₂, readLoop Checks.flat macros st post = .ok st₁ ∧
          readLoop Checks.flat macros { st with buffer := buffer } post = .ok st₂ ∧
          st₁.totalCount = st₂.totalCount) := by
  rcases readLoop_refines h.left with ⟨st, hrun, href⟩
  have hpost := Guarded.right h hrun
  have hhead : AtHead pre st := href
  refine ⟨st, hrun, hhead.headInv, ?_, ?_⟩
  · intro piece rest hsplit
    rw [hsplit] at hpost
    exact hhead.windowInv hpost.1
  · intro buffer hkept
    exact href.stale hkept hpost

/-- The file `xAlpha` delivered as `xA` and `lpha`, seen between the two reads. -/
theorem loop_invariant_split :
    ∃ st, readLoop Checks.flat macros (start macros) [⟨[0x78, 0x41], by decide⟩] = .ok st ∧
      HeadInv [0x78, 0x41] st ∧
      WindowInv [0x78, 0x41, 0x6c, 0x70, 0x68, 0x61] st [0x6c, 0x70, 0x68, 0x61] := by
  have hadm : Admissible macros ([⟨[0x78, 0x41], by decide⟩] ++
      [⟨[0x6c, 0x70, 0x68, 0x61], by decide⟩]) :=
    admissible_cons (by decide) (by decide)
  rcases loop_invariant _ _ hadm with ⟨st, hrun, hhead, hwindow, _⟩
  exact ⟨st, hrun, hhead, hwindow _ [] rfl⟩

end Baseline
end HelloEbpf
