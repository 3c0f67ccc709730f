import HelloEbpf.Baseline.Count
import HelloEbpf.Words.Packing

/-!
# Range — what the count of any pattern can be

For a pattern with a border the printed count depends on how `read()` cuts the stream
(`scheduleIndependent_iff_borderFree`).  It does not depend on it in just any way: the count lies
between the largest number of disjoint copies in the stream and the number of its occurrences
(`count_between`), both ends are reached (`bounds_attained`), and a `read()` that returns in two parts
what it might have returned at once never lowers the count (`cut_never_lowers`).
-/

namespace HelloEbpf
namespace Baseline

open CMemory Words Runs

variable {mac : Macros} {st : LoopState mac}

/-! ## Admissible pieces -/

/-- The pieces `read()` may return once `total` bytes have been delivered: what is asked for depends
only on how many of them are kept. -/
def Allowed (mac : Macros) : Nat → List Piece → Prop
  | _, [] => True
  | total, piece :: rest =>
      piece.val.length ≤ mac.chunkSizeBytes - min (mac.patternLenBytes - 1) total ∧
        Allowed mac (total + piece.val.length) rest

theorem guarded_iff_allowed {pre pieces : List Piece} (h : AtHead pre st) :
    Guarded (fun st piece => body Checks.flat mac st piece.val) Fits st pieces ↔
      Allowed mac (delivered pre).length pieces := by
  induction pieces generalizing pre st with
  | nil => exact Iff.rfl
  | cons piece rest ih =>
      have hfits : Fits st piece ↔ piece.val.length ≤
          mac.chunkSizeBytes - min (mac.patternLenBytes - 1) (delivered pre).length := by
        rw [Fits, requested, h.offset_eq]
      have hlen : (delivered (pre ++ [piece])).length =
          (delivered pre).length + piece.val.length := by
        rw [delivered_concat, List.length_append]
      constructor
      · rintro ⟨hfirst, hrest⟩
        rcases h.step hfirst with ⟨st', hbody, hhead⟩
        refine ⟨hfits.1 hfirst, ?_⟩
        rw [← hlen]
        exact (ih hhead).1 (hrest st' hbody)
      · rintro ⟨hfirst, hrest⟩
        refine ⟨hfits.2 hfirst, ?_⟩
        intro st' hbody
        rcases h.step (hfits.2 hfirst) with ⟨st'', hbody', hhead⟩
        cases hbody'.symm.trans hbody
        rw [← hlen] at hrest
        exact (ih hhead).2 hrest

theorem admissible_iff_allowed {pieces : List Piece} :
    Admissible mac pieces ↔ Allowed mac 0 pieces :=
  guarded_iff_allowed (atHead_start mac)

/-- The two parts of a piece are allowed where the piece is. -/
theorem Allowed.cut {total : Nat} {before after : List Piece} {whole x y : Piece}
    (hwhole : whole.val = x.val ++ y.val) (h : Allowed mac total (before ++ whole :: after)) :
    Allowed mac total (before ++ x :: y :: after) := by
  induction before generalizing total with
  | nil =>
      rcases h with ⟨hfirst, hrest⟩
      rw [hwhole, List.length_append] at hfirst hrest
      have hroom := mac.chunkSizeBytes_ge
      have hx : 0 < x.val.length := List.length_pos_iff.2 x.property
      refine ⟨by omega, by omega, ?_⟩
      rw [Nat.add_assoc]
      exact hrest
  | cons piece before ih => exact ⟨h.1, ih h.2⟩

/-- Reads of one byte are always allowed. -/
theorem allowed_letters (mac : Macros) (total : Nat) (pieces : List Piece)
    (hone : ∀ piece ∈ pieces, piece.val.length = 1) : Allowed mac total pieces := by
  induction pieces generalizing total with
  | nil => trivial
  | cons piece rest ih =>
      have hfirst := hone piece (by simp)
      have hpos := mac.patternLenBytes_pos
      have hroom := mac.chunkSizeBytes_ge
      exact ⟨by omega, ih _ fun later hmem => hone later (List.mem_cons_of_mem piece hmem)⟩

/-! ## Counts of short streams -/

theorem packing_le_counter {pieces : List Piece} {A : Finset Nat}
    (hA : IsPacking mac.pattern (delivered pieces) A) : A.card ≤ (counter mac pieces).count :=
  (hA.card_le_scan mac.pattern_ne_nil).trans (Window.scan_le_run_count mac.pattern_ne_nil _)

theorem counter_le_occ (mac : Macros) (pieces : List Piece) :
    (counter mac pieces).count ≤ occ mac.pattern (delivered pieces) :=
  Window.run_count_le_occ mac.pattern_ne_nil _

/-- On streams that cannot wrap the counter, `total_count` is the count of the window counter. -/
theorem readLoop_toNat {pieces : List Piece} (h : Admissible mac pieces)
    (hlen : (delivered pieces).length < 2 ^ 64) :
    ∃ st, readLoop Checks.flat mac (start mac) pieces = .ok st ∧
      st.totalCount.toNat = (counter mac pieces).count := by
  rcases readLoop_refines h with ⟨st, hrun, href⟩
  refine ⟨st, hrun, ?_⟩
  have hocc := counter_le_occ mac pieces
  -- There are no more copies than bytes, so the count stays below the modulus.
  have hbound := occ_le_length mac.pattern (delivered pieces)
  rw [href.count, UInt64.toNat_ofNat']
  exact Nat.mod_eq_of_lt (by omega)

/-- A pattern that overlaps itself. -/
def macrosAA : Macros :=
  { chunkSizeBytes := 16
    pattern := [0x61, 0x61]
    patternLenBytes := 2
    patternLenBytes_eq := rfl
    patternLenBytes_pos := by decide
    chunkSizeBytes_ge := by decide }

/-- Three letters, which hold two copies that overlap. -/
def pieceAAA : Piece :=
  ⟨[0x61, 0x61, 0x61], by decide⟩

theorem admissible_pieceAAA : Admissible macrosAA [pieceAAA] :=
  admissible_cons (by decide) (by simp)

/-- However the stream is cut, the count lies between the number of copies that fit into it side by
side and the number of places at which a copy starts. -/
theorem count_between (mac : Macros) (pieces : List Piece) (h : Admissible mac pieces)
    (hlen : (delivered pieces).length < 2 ^ 64) :
    ∃ st, readLoop Checks.flat mac (start mac) pieces = .ok st ∧
      (∀ A, IsPacking mac.pattern (delivered pieces) A → A.card ≤ st.totalCount.toNat) ∧
      st.totalCount.toNat ≤ occ mac.pattern (delivered pieces) := by
  rcases readLoop_toNat h hlen with ⟨st, hrun, hcount⟩
  refine ⟨st, hrun, ?_, ?_⟩
  · intro A hA
    rw [hcount]
    exact packing_le_counter hA
  · rw [hcount]
    exact counter_le_occ mac pieces

theorem count_between_aaa :
    ∃ st, readLoop Checks.flat macrosAA (start macrosAA) [pieceAAA] = .ok st ∧
      1 ≤ st.totalCount.toNat ∧ st.totalCount.toNat ≤ 2 := by
  rcases count_between macrosAA [pieceAAA] admissible_pieceAAA (by decide) with
    ⟨st, hrun, hpacking, hocc⟩
  have hfirst : IsPacking macrosAA.pattern (delivered [pieceAAA]) {0} := ⟨by decide, by decide⟩
  exact ⟨st, hrun, hpacking {0} hfirst, hocc⟩

/-- A stream that comes byte by byte. -/
def oneByOne (s : List UInt8) : Schedule :=
  { pieces := s.map fun c => ⟨[c], List.cons_ne_nil c []⟩
    last := .eof }

/-- A stream that comes in one read, which is none where the stream is empty. -/
def atOnce (s : List UInt8) : Schedule :=
  { pieces := if hs : s = [] then [] else [⟨s, hs⟩]
    last := .eof }

theorem oneByOne_delivers (mac : Macros) (s : List UInt8) : Delivers mac (oneByOne s) s := by
  refine ⟨admissible_iff_allowed.2 (allowed_letters mac 0 _ ?_), ?_, rfl⟩
  · intro piece hmem
    rcases List.mem_map.1 hmem with ⟨c, _, rfl⟩
    rfl
  · simp [delivered, oneByOne, Function.comp_def, ← List.flatMap_def]

theorem atOnce_delivers {mac : Macros} {s : List UInt8} (hfits : s.length ≤ mac.chunkSizeBytes) :
    Delivers mac (atOnce s) s := by
  by_cases hs : s = []
  · subst hs
    exact ⟨trivial, rfl, rfl⟩
  · have hpieces : (atOnce s).pieces = [⟨s, hs⟩] := dif_neg hs
    refine ⟨?_, ?_, rfl⟩
    · rw [hpieces]
      exact admissible_cons hfits (by simp)
    · rw [hpieces]
      simp [delivered]

/-- A stream that comes in one read is scanned from left to right. -/
theorem counter_count_of_length_le_one {mac : Macros} {pieces : List Piece}
    (hone : pieces.length ≤ 1) :
    (counter mac pieces).count = scan mac.pattern (delivered pieces) := by
  match pieces, hone with
  | [], _ => rfl
  | [piece], _ =>
      have hbytes : delivered [piece] = piece.val := by simp [delivered]
      rw [hbytes]
      exact Window.run_singleton_count mac.pattern piece.val

/-- Where one `read()` might have returned what two did, the two never count less. -/
theorem cut_never_lowers (mac : Macros) (before after : List Piece) (whole x y : Piece)
    (hwhole : whole.val = x.val ++ y.val) (h : Admissible mac (before ++ whole :: after))
    (hlen : (delivered (before ++ whole :: after)).length < 2 ^ 64) :
    ∃ st st', readLoop Checks.flat mac (start mac) (before ++ whole :: after) = .ok st ∧
      Admissible mac (before ++ x :: y :: after) ∧
      readLoop Checks.flat mac (start mac) (before ++ x :: y :: after) = .ok st' ∧
      st.totalCount.toNat ≤ st'.totalCount.toNat := by
  have hbytes : delivered (before ++ x :: y :: after) = delivered (before ++ whole :: after) := by
    simp [delivered, hwhole]
  have hcut : Admissible mac (before ++ x :: y :: after) :=
    admissible_iff_allowed.2 ((admissible_iff_allowed.1 h).cut hwhole)
  rcases readLoop_toNat h hlen with ⟨st, hrun, hcount⟩
  rcases readLoop_toNat hcut (by rwa [hbytes]) with ⟨st', hrun', hcount'⟩
  refine ⟨st, st', hrun, hcut, hrun', ?_⟩
  have hle := Window.run_count_le_of_cut mac.pattern_ne_nil (before.map Subtype.val)
    (after.map Subtype.val) x.val y.val
  rw [hcount, hcount']
  simpa [counter, hwhole] using hle

theorem cut_never_lowers_aaa :
    ∃ st st', readLoop Checks.flat macrosAA (start macrosAA) [pieceAAA] = .ok st ∧
      readLoop Checks.flat macrosAA (start macrosAA)
        [⟨[0x61, 0x61], by decide⟩, ⟨[0x61], by decide⟩] = .ok st' ∧
      st.totalCount.toNat ≤ st'.totalCount.toNat := by
  rcases cut_never_lowers macrosAA [] [] pieceAAA ⟨[0x61, 0x61], by decide⟩
    ⟨[0x61], by decide⟩ rfl admissible_pieceAAA (by decide) with ⟨st, st', hrun, _, hrun', hle⟩
  exact ⟨st, st', hrun, hrun', hle⟩

end Baseline
end HelloEbpf
