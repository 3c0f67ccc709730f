import HelloEbpf.Words.Scan

/-!
# Stream — counting a word in a text that arrives in pieces

A window counter keeps the last `p.length - 1` letters it has seen, scans them again in front of
the next piece and adds what the scan counts.  The kept letters are a function of the text alone
(`run_carry`).  The count never exceeds the number of occurrences (`run_count_le_occ`), and it is a
function of the text exactly when `p` has no border:

* for a border-free `p` every cutting of a text into pieces gives `occ p` of that text;
* for a border `u` of `p`, the text `p ++ p.drop u.length` is counted once when it arrives whole and
  twice when it is cut behind its first `p`.
-/

namespace Words

variable {α : Type*} {p u : List α} {x y : List α} {k : ℕ}

/-! ## Kept suffixes -/

theorem rtake_of_length_le (h : x.length ≤ k) : x.rtake k = x := by
  have hzero : x.length - k = 0 := by omega
  simp [List.rtake, hzero]

theorem length_rtake (k : ℕ) (x : List α) : (x.rtake k).length = min k x.length := by
  simp only [List.rtake, List.length_drop]
  omega

/-- Cutting a text to its last `k` letters before more arrives does not change its last `k`. -/
theorem rtake_rtake_append (k : ℕ) (x y : List α) :
    (x.rtake k ++ y).rtake k = (x ++ y).rtake k := by
  have hkept : x.rtake k ++ y = (x ++ y).drop (x.length - k) := by
    rw [List.rtake, List.drop_append_of_le_length (by omega)]
  rw [hkept, List.rtake, List.rtake, List.drop_drop]
  congr 1
  simp only [List.length_drop, List.length_append]
  omega

/-- What a window counter remembers between two pieces. -/
structure Window (α : Type*) where
  carry : List α
  count : ℕ

namespace Window

variable [DecidableEq α]

/-- Nothing seen, nothing counted. -/
def start : Window α :=
  { carry := [], count := 0 }

/-- Scan the kept letters together with the next piece. -/
def feed (p : List α) (w : Window α) (piece : List α) : Window α :=
  { carry := (w.carry ++ piece).rtake (p.length - 1)
    count := w.count + scan p (w.carry ++ piece) }

/-- The counter after a sequence of pieces. -/
def run (p : List α) (pieces : List (List α)) : Window α :=
  pieces.foldl (feed p) start

@[simp] theorem run_nil (p : List α) : run p [] = start := rfl

theorem run_concat (p : List α) (pieces : List (List α)) (piece : List α) :
    run p (pieces ++ [piece]) = feed p (run p pieces) piece := by
  simp [run]

theorem run_carry (p : List α) (pieces : List (List α)) :
    (run p pieces).carry = pieces.flatten.rtake (p.length - 1) := by
  induction pieces using List.reverseRecOn with
  | nil => simp [start]
  | append_singleton pieces piece ih =>
      rw [run_concat, feed, ih]
      simpa using rtake_rtake_append (p.length - 1) pieces.flatten piece

/-! ## Counts -/

/-- No cutting makes the counter count what is not there: a copy is new when it is counted. -/
theorem run_count_le_occ (hp : p ≠ []) (pieces : List (List α)) :
    (run p pieces).count ≤ occ p pieces.flatten := by
  induction pieces using List.reverseRecOn with
  | nil => simp [start]
  | append_singleton pieces piece ih =>
      calc
        (run p (pieces ++ [piece])).count
            = (run p pieces).count + scan p ((run p pieces).carry ++ piece) := by
              rw [run_concat, feed]
        _ ≤ occ p pieces.flatten + occ p (pieces.flatten.rtake (p.length - 1) ++ piece) := by
              rw [run_carry]
              exact Nat.add_le_add ih (scan_le_occ hp _)
        _ = occ p (pieces.flatten ++ piece) := (occ_append hp _ _).symm
        _ = occ p (pieces ++ [piece]).flatten := by simp

theorem run_count_of_borderFree (hp : p ≠ []) (hfree : BorderFree p) (pieces : List (List α)) :
    (run p pieces).count = occ p pieces.flatten := by
  induction pieces using List.reverseRecOn with
  | nil => simp [start]
  | append_singleton pieces piece ih =>
      calc
        (run p (pieces ++ [piece])).count
            = (run p pieces).count + scan p ((run p pieces).carry ++ piece) := by
              rw [run_concat, feed]
        _ = occ p pieces.flatten + occ p (pieces.flatten.rtake (p.length - 1) ++ piece) := by
              rw [ih, run_carry, hfree.scan_eq_occ hp]
        _ = occ p (pieces.flatten ++ piece) := (occ_append hp _ _).symm
        _ = occ p (pieces ++ [piece]).flatten := by simp

/-! ## Words with a border -/

section Border

variable (hu : IsBorder u p)
include hu

theorem run_whole_count : (run p [p ++ p.drop u.length]).count = 1 := by
  have hpos := hu.length_pos
  have hlt := hu.length_lt
  have hp : p ≠ [] := List.length_pos_iff.1 (by omega)
  -- Behind the first copy there are fewer letters than `p` has.
  have hrest : scan p (p.drop u.length) = 0 := by
    apply scan_eq_zero_of_length_lt
    simp only [List.length_drop]
    omega
  have hscan : scan p (p ++ p.drop u.length) = 1 := by
    rw [scan_of_isPrefix hp (List.prefix_append _ _)]
    simp [hrest]
  simpa [run, feed, start] using hscan

theorem run_cut_count : (run p [p, p.drop u.length]).count = 2 := by
  have hpos := hu.length_pos
  have hlt := hu.length_lt
  have hp : p ≠ [] := List.length_pos_iff.1 (by omega)
  have hfirst : scan p p = 1 := by
    rw [scan_of_isPrefix hp List.prefix_rfl]
    simp
  -- The second window is the text without its first letter, so the late copy is still in it.
  have hwindow : p.rtake (p.length - 1) ++ p.drop u.length =
      (p ++ p.drop u.length).drop 1 := by
    have hone : p.length - (p.length - 1) = 1 := by omega
    rw [List.rtake, hone, List.drop_append_of_le_length (by omega)]
  have hlate : OccursAt p ((p ++ p.drop u.length).drop 1) (p.length - u.length - 1) := by
    rw [occursAt_drop]
    have hshift : 1 + (p.length - u.length - 1) = p.length - u.length := by omega
    rw [hshift, OccursAt, hu.drop_append_drop]
  have hpositive := scan_pos_of_occursAt hp hlate
  have hbound := scan_mul_length_le hp ((p ++ p.drop u.length).drop 1)
  have hlen : ((p ++ p.drop u.length).drop 1).length = 2 * p.length - u.length - 1 := by
    rw [List.length_drop, hu.length_append_drop]
  -- Two disjoint copies would need more letters than the window has.
  have hsecond : scan p ((p ++ p.drop u.length).drop 1) = 1 := by
    have hsmall : scan p ((p ++ p.drop u.length).drop 1) < 2 := by
      by_contra hge
      have hmul := Nat.mul_le_mul_right p.length (Nat.le_of_not_lt hge)
      omega
    omega
  have hcarry : (run p [p]).carry = p.rtake (p.length - 1) := by
    simpa using run_carry p [p]
  have hcount : (run p [p]).count = 1 := by
    simpa [run, feed, start] using hfirst
  calc
    (run p [p, p.drop u.length]).count
        = (feed p (run p [p]) (p.drop u.length)).count := rfl
    _ = 1 + scan p ((p ++ p.drop u.length).drop 1) := by
          rw [feed, hcarry, hcount, hwindow]
    _ = 2 := by rw [hsecond]

end Border

end Window

end Words
