import HelloEbpf.Words.Borders

/-!
# Scan — the leftmost non-overlapping count

`scan p s` walks `s` once: at a copy of `p` it counts one and steps over the whole copy, anywhere
else it steps over one letter.  The walk is written with the number of letters still to be stepped
over, so that it is structural in the text.

A scan never counts more than the occurrences there are (`scan_le_occ`), finds at least one when there
is one, and counts them all when `p` is border-free (`BorderFree.scan_eq_occ`).
-/

namespace Words

variable {α : Type*} [DecidableEq α] {p s : List α} {i : ℕ}

/-- The scan that still has to step over `skip` letters. -/
def scanFrom (p : List α) : ℕ → List α → ℕ
  | _, [] => 0
  | skip + 1, _ :: s => scanFrom p skip s
  | 0, a :: s =>
      if p <+: a :: s then
        1 + scanFrom p (p.length - 1) s
      else
        scanFrom p 0 s

/-- The number of copies of `p` met by a leftmost non-overlapping walk over `s`. -/
def scan (p s : List α) : ℕ :=
  scanFrom p 0 s

/-! ## Equations -/

theorem scanFrom_eq_scan_drop (p : List α) (skip : ℕ) (s : List α) :
    scanFrom p skip s = scan p (s.drop skip) := by
  induction skip generalizing s with
  | zero => rfl
  | succ skip ih =>
      cases s with
      | nil => rfl
      | cons a s => simpa [scanFrom] using ih s

@[simp] theorem scan_nil (p : List α) : scan p [] = 0 := rfl

theorem scan_of_isPrefix (hp : p ≠ []) (h : p <+: s) :
    scan p s = 1 + scan p (s.drop p.length) := by
  cases s with
  | nil => exact absurd (List.prefix_nil.1 h) hp
  | cons a s =>
      have hpos : 0 < p.length := List.length_pos_iff.2 hp
      have hlen : p.length = p.length - 1 + 1 := by omega
      rw [hlen, List.drop_succ_cons, ← scanFrom_eq_scan_drop]
      simp [scan, scanFrom, h]

theorem scan_cons_of_not_isPrefix {a : α} (h : ¬ p <+: a :: s) : scan p (a :: s) = scan p s := by
  simp [scan, scanFrom, h]

/-- The induction along the walk: over a copy of `p` in one step, over any other letter by itself. -/
@[elab_as_elim]
theorem scan_induction {motive : List α → Prop} (hp : p ≠ []) (nil : motive [])
    (copy : ∀ s, p <+: s → motive (s.drop p.length) → motive s)
    (letter : ∀ a s, ¬ p <+: a :: s → motive s → motive (a :: s)) (s : List α) : motive s := by
  induction hn : s.length using Nat.strong_induction_on generalizing s with
  | h n ih =>
      have hpos : 0 < p.length := List.length_pos_iff.2 hp
      by_cases hpre : p <+: s
      · have hle : p.length ≤ s.length := hpre.length_le
        exact copy s hpre (ih (s.length - p.length) (by omega) (s.drop p.length) (by simp))
      · cases s with
        | nil => exact nil
        | cons a s =>
            refine letter a s hpre (ih s.length ?_ s rfl)
            simp only [List.length_cons] at hn
            omega

theorem scan_eq_zero_of_length_lt (h : s.length < p.length) : scan p s = 0 := by
  induction s with
  | nil => rfl
  | cons a s ih =>
      have hno : ¬ p <+: a :: s := by
        intro hpre
        have hle := hpre.length_le
        omega
      rw [scan_cons_of_not_isPrefix hno]
      exact ih (by simp only [List.length_cons] at h; omega)

/-! ## Bounds -/

/-- The counted copies are disjoint, so they fit into the text side by side. -/
theorem scan_mul_length_le (hp : p ≠ []) (s : List α) : scan p s * p.length ≤ s.length := by
  induction s using scan_induction hp with
  | nil => simp
  | copy s hpre ih =>
      have hle : p.length ≤ s.length := hpre.length_le
      rw [List.length_drop] at ih
      rw [scan_of_isPrefix hp hpre, Nat.add_mul, Nat.one_mul]
      omega
  | letter a s hno ih =>
      rw [scan_cons_of_not_isPrefix hno, List.length_cons]
      omega

/-- The counted copies are copies. -/
theorem scan_le_occ (hp : p ≠ []) (s : List α) : scan p s ≤ occ p s := by
  induction s using scan_induction hp with
  | nil => simp
  | copy s hpre ih =>
      cases s with
      | nil => exact absurd (List.prefix_nil.1 hpre) hp
      | cons a s =>
          have hlen : p.length = p.length - 1 + 1 := by
            have hpos : 0 < p.length := List.length_pos_iff.2 hp
            omega
          -- The scan may lose the copies that start inside the one it steps over.
          have hrest := occ_drop_le p s (p.length - 1)
          rw [scan_of_isPrefix hp hpre, occ_cons, if_pos hpre]
          rw [hlen, List.drop_succ_cons] at ih ⊢
          omega
  | letter a s hno ih =>
      rw [scan_cons_of_not_isPrefix hno, occ_cons, if_neg hno]
      omega

/-- A text with a copy of `p` in it has a scan that counts at least one. -/
theorem scan_pos_of_occursAt (hp : p ≠ []) (h : OccursAt p s i) : 0 < scan p s := by
  induction i generalizing s with
  | zero =>
      have hpre : p <+: s := by simpa [OccursAt] using h
      rw [scan_of_isPrefix hp hpre]
      omega
  | succ i ih =>
      by_cases hpre : p <+: s
      · rw [scan_of_isPrefix hp hpre]
        omega
      · cases s with
        | nil => exact absurd (List.prefix_nil.1 (by simpa [OccursAt] using h)) hp
        | cons a s =>
            rw [scan_cons_of_not_isPrefix hpre]
            exact ih (by simpa [OccursAt] using h)

/-! ## Border-free words -/

/-- After a copy of a border-free `p` no copy starts before the copy ends. -/
theorem BorderFree.occ_of_isPrefix (hfree : BorderFree p) (hp : p ≠ []) (h : p <+: s) :
    occ p s = 1 + occ p (s.drop p.length) := by
  cases s with
  | nil => exact absurd (List.prefix_nil.1 h) hp
  | cons a s =>
      have hpos : 0 < p.length := List.length_pos_iff.2 hp
      have hlen : p.length = p.length - 1 + 1 := by omega
      -- A copy that starts inside the first one would overlap it.
      have hnone : ∀ i < p.length - 1, ¬ OccursAt p s i := by
        intro i hi hocc
        have hfirst : OccursAt p (a :: s) 0 := by simpa [OccursAt] using h
        have hnext : OccursAt p (a :: s) (i + 1) := by simpa [OccursAt] using hocc
        have hle := hfree.add_length_le hfirst hnext (Nat.succ_pos i)
        omega
      rw [occ_cons, if_pos h, hlen, List.drop_succ_cons, occ_drop_of_forall_not hnone]

theorem BorderFree.scan_eq_occ (hfree : BorderFree p) (hp : p ≠ []) (s : List α) :
    scan p s = occ p s := by
  induction s using scan_induction hp with
  | nil => simp
  | copy s hpre ih =>
      rw [scan_of_isPrefix hp hpre, hfree.occ_of_isPrefix hp hpre, ih]
  | letter a s hno ih =>
      rw [scan_cons_of_not_isPrefix hno, occ_cons, if_neg hno, ih, Nat.zero_add]

end Words
