import HelloEbpf.Words.Stream
import Mathlib.Order.Bounds.Basic

/-!
# Packing — how many disjoint copies a text has room for

A packing is a set of positions at which copies of `p` start that do not overlap.  The leftmost walk
finds a largest one (`isGreatest_scan`), and a text that is cut in two has at most the packings of its
two windows (`scan_append_le`).  So a window counter ends between two properties of the text
(`Window.scan_le_run_count`, `Window.run_count_le_occ`), a cut more never lowers its count
(`Window.run_count_le_of_cut`), and pieces of one letter bring it up to all occurrences
(`Window.run_count_of_letters`).
-/

namespace Words

variable {α : Type*} [DecidableEq α] {p s x y : List α} {A : Finset ℕ} {i k : ℕ}

/-- Copies of `p` start at the positions of `A`, and no two of them overlap. -/
structure IsPacking (p s : List α) (A : Finset ℕ) : Prop where
  occurs : ∀ i ∈ A, OccursAt p s i
  apart : ∀ i ∈ A, ∀ j ∈ A, i < j → i + p.length ≤ j

namespace IsPacking

omit [DecidableEq α] in
theorem empty : IsPacking p s ∅ :=
  ⟨nofun, nofun⟩

omit [DecidableEq α] in
theorem filter (h : IsPacking p s A) (P : ℕ → Prop) [DecidablePred P] :
    IsPacking p s (A.filter P) := by
  constructor
  · intro i hi
    exact h.occurs i (Finset.mem_filter.1 hi).1
  · intro i hi j hj
    exact h.apart i (Finset.mem_filter.1 hi).1 j (Finset.mem_filter.1 hj).1

omit [DecidableEq α] in
/-- Copies that start behind the first `k` letters are copies in the rest. -/
theorem shift (h : IsPacking p s A) (hge : ∀ i ∈ A, k ≤ i) :
    IsPacking p (s.drop k) (A.image (· - k)) ∧ (A.image (· - k)).card = A.card := by
  refine ⟨⟨?_, ?_⟩, Finset.card_image_of_injOn ?_⟩
  · intro i hi
    rcases Finset.mem_image.1 hi with ⟨a, ha, rfl⟩
    rw [occursAt_drop, Nat.add_sub_cancel' (hge a ha)]
    exact h.occurs a ha
  · intro i hi j hj hlt
    rcases Finset.mem_image.1 hi with ⟨a, ha, rfl⟩
    rcases Finset.mem_image.1 hj with ⟨b, hb, rfl⟩
    have hgea := hge a ha
    have hgeb := hge b hb
    have hapart := h.apart a ha b hb (by omega)
    omega
  · intro i hi j hj hsame
    have hgei := hge i hi
    have hgej := hge j hj
    have heq : i - k = j - k := hsame
    omega

omit [DecidableEq α] in
/-- Copies in the rest of a text are copies in the text. -/
theorem unshift (h : IsPacking p (s.drop k) A) :
    IsPacking p s (A.image (k + ·)) ∧ (A.image (k + ·)).card = A.card := by
  refine ⟨⟨?_, ?_⟩, Finset.card_image_of_injective _ (add_right_injective k)⟩
  · intro i hi
    rcases Finset.mem_image.1 hi with ⟨a, ha, rfl⟩
    exact occursAt_drop.1 (h.occurs a ha)
  · intro i hi j hj hlt
    rcases Finset.mem_image.1 hi with ⟨a, ha, rfl⟩
    rcases Finset.mem_image.1 hj with ⟨b, hb, rfl⟩
    have hapart := h.apart a ha b hb (by omega)
    omega

omit [DecidableEq α] in
/-- Only one of the copies starts among the first letters, as many as a copy has. -/
theorem card_filter_lt_le_one (h : IsPacking p s A) :
    (A.filter (· < p.length)).card ≤ 1 := by
  rw [Finset.card_le_one]
  intro i hi j hj
  simp only [Finset.mem_filter] at hi hj
  rcases Nat.lt_trichotomy i j with hlt | heq | hgt
  · have hapart := h.apart i hi.1 j hj.1 hlt
    omega
  · exact heq
  · have hapart := h.apart j hj.1 i hi.1 hgt
    omega

/-- The leftmost walk misses nothing by stepping over a whole copy: it steps over at most one. -/
theorem card_le_scan (hp : p ≠ []) (h : IsPacking p s A) : A.card ≤ scan p s := by
  induction s using scan_induction hp generalizing A with
  | nil =>
      have hempty : A = ∅ := by
        rw [Finset.eq_empty_iff_forall_notMem]
        intro i hi
        have hpre : p <+: ([] : List α).drop i := h.occurs i hi
        rw [List.drop_nil] at hpre
        exact hp (List.prefix_nil.1 hpre)
      simp [hempty]
  | copy s hpre ih =>
      have hlate : ∀ i ∈ A.filter (¬ · < p.length), p.length ≤ i := by
        intro i hi
        exact Nat.le_of_not_lt (Finset.mem_filter.1 hi).2
      rcases (h.filter (¬ · < p.length)).shift hlate with ⟨hrest, hcard⟩
      have hfirst := h.card_filter_lt_le_one
      have hsplit := Finset.card_filter_add_card_filter_not (s := A) (· < p.length)
      have hle := ih hrest
      rw [scan_of_isPrefix hp hpre]
      omega
  | letter a s hno ih =>
      have hlate : ∀ i ∈ A, 1 ≤ i := by
        intro i hi
        by_contra hzero
        have hi0 : i = 0 := by omega
        subst hi0
        exact hno (h.occurs 0 hi)
      rcases h.shift hlate with ⟨hrest, hcard⟩
      rw [scan_cons_of_not_isPrefix hno, ← hcard]
      exact ih hrest

end IsPacking

theorem exists_isPacking_scan (hp : p ≠ []) (s : List α) :
    ∃ A, IsPacking p s A ∧ A.card = scan p s := by
  induction s using scan_induction hp with
  | nil => exact ⟨∅, .empty, rfl⟩
  | copy s hpre ih =>
      rcases ih with ⟨A, hA, hcard⟩
      rcases hA.unshift with ⟨hrest, hcard'⟩
      have hpos : 0 < p.length := List.length_pos_iff.2 hp
      have hnew : 0 ∉ A.image (p.length + ·) := by
        intro hmem
        rcases Finset.mem_image.1 hmem with ⟨i, _, hi⟩
        omega
      -- The first copy ends where the rest begins.
      refine ⟨insert 0 (A.image (p.length + ·)), ⟨?_, ?_⟩, ?_⟩
      · intro i hi
        rcases Finset.mem_insert.1 hi with rfl | hi
        · exact hpre
        · exact hrest.occurs i hi
      · intro i hi j hj hlt
        rcases Finset.mem_insert.1 hj with rfl | hj
        · omega
        · rcases Finset.mem_insert.1 hi with rfl | hi
          · rcases Finset.mem_image.1 hj with ⟨j, _, rfl⟩
            omega
          · exact hrest.apart i hi j hj hlt
      · rw [Finset.card_insert_of_notMem hnew, hcard', hcard, scan_of_isPrefix hp hpre,
          Nat.add_comm]
  | letter a s hno ih =>
      rcases ih with ⟨A, hA, hcard⟩
      have hdrop : IsPacking p ((a :: s).drop 1) A := hA
      rcases hdrop.unshift with ⟨hrest, hcard'⟩
      exact ⟨_, hrest, by rw [hcard', hcard, scan_cons_of_not_isPrefix hno]⟩

/-- The scan is the size of a largest packing. -/
theorem isGreatest_scan (hp : p ≠ []) (s : List α) :
    IsGreatest {n | ∃ A, IsPacking p s A ∧ A.card = n} (scan p s) := by
  refine ⟨exists_isPacking_scan hp s, ?_⟩
  rintro n ⟨A, hA, rfl⟩
  exact hA.card_le_scan hp

/-- A text that is cut is scanned in two windows, which lose no copy. -/
theorem scan_append_le (hp : p ≠ []) (x y : List α) :
    scan p (x ++ y) ≤ scan p x + scan p (x.rtake (p.length - 1) ++ y) := by
  rcases exists_isPacking_scan hp (x ++ y) with ⟨A, hA, hcard⟩
  have hpos : 0 < p.length := List.length_pos_iff.2 hp
  -- The copies that end in `x`, and those that end behind it.
  have hleft : IsPacking p x (A.filter (· + p.length ≤ x.length)) := by
    refine ⟨?_, (hA.filter _).apart⟩
    intro i hi
    rcases Finset.mem_filter.1 hi with ⟨hmem, hfits⟩
    exact (occursAt_append_left hfits).1 (hA.occurs i hmem)
  have hlate : ∀ i ∈ A.filter (¬ · + p.length ≤ x.length), x.length - (p.length - 1) ≤ i := by
    intro i hi
    have hover := (Finset.mem_filter.1 hi).2
    omega
  rcases (hA.filter (¬ · + p.length ≤ x.length)).shift hlate with ⟨hright, hcard'⟩
  have hkept : (x ++ y).drop (x.length - (p.length - 1)) = x.rtake (p.length - 1) ++ y := by
    rw [List.rtake, List.drop_append_of_le_length (by omega)]
  rw [hkept] at hright
  have hx := hleft.card_le_scan hp
  have hy := hright.card_le_scan hp
  have hsplit := Finset.card_filter_add_card_filter_not (s := A) (· + p.length ≤ x.length)
  omega

/-! ## Short texts -/

/-- In a text no longer than `p` there is one place for a copy. -/
theorem scan_eq_occ_of_length_le (hp : p ≠ []) (h : s.length ≤ p.length) : scan p s = occ p s := by
  cases s with
  | nil => simp
  | cons a s =>
      have hnone : occ p s = 0 := by
        rw [occ_eq_zero_iff hp]
        intro i hocc
        have hle := hocc.add_length_le hp
        simp only [List.length_cons] at h
        omega
      have hshort : scan p s = 0 := by
        have hle := scan_le_occ hp s
        omega
      by_cases hpre : p <+: a :: s
      · have hlen := hpre.length_le
        have hend : (a :: s).drop p.length = [] := List.drop_eq_nil_of_le h
        rw [scan_of_isPrefix hp hpre, hend, occ_cons, if_pos hpre, hnone]
        rfl
      · rw [scan_cons_of_not_isPrefix hpre, hshort, occ_cons, if_neg hpre, hnone]

/-! ## Window counters -/

namespace Window

/-- However the text is cut, a largest packing is counted. -/
theorem scan_le_run_count (hp : p ≠ []) (pieces : List (List α)) :
    scan p pieces.flatten ≤ (run p pieces).count := by
  induction pieces using List.reverseRecOn with
  | nil => simp
  | append_singleton pieces piece ih =>
      calc
        scan p (pieces ++ [piece]).flatten = scan p (pieces.flatten ++ piece) := by simp
        _ ≤ scan p pieces.flatten + scan p (pieces.flatten.rtake (p.length - 1) ++ piece) :=
            scan_append_le hp _ _
        _ ≤ (run p pieces).count + scan p ((run p pieces).carry ++ piece) := by
              rw [run_carry]
              exact Nat.add_le_add_right ih _
        _ = (run p (pieces ++ [piece])).count := by rw [run_concat, feed]

/-- Two counters that keep the same letters go on in the same way. -/
theorem foldl_feed_le {w w' : Window α} (pieces : List (List α)) (hcarry : w.carry = w'.carry)
    (hcount : w.count ≤ w'.count) :
    (pieces.foldl (feed p) w).count ≤ (pieces.foldl (feed p) w').count := by
  induction pieces generalizing w w' with
  | nil => exact hcount
  | cons piece pieces ih =>
      refine ih ?_ ?_
      · rw [feed, feed, hcarry]
      · rw [feed, feed, hcarry]
        exact Nat.add_le_add_right hcount _

/-- A cut more never lowers the count. -/
theorem run_count_le_of_cut (hp : p ≠ []) (before after : List (List α)) (x y : List α) :
    (run p (before ++ (x ++ y) :: after)).count ≤ (run p (before ++ x :: y :: after)).count := by
  rw [run, run, List.foldl_append, List.foldl_append, List.foldl_cons, List.foldl_cons,
    List.foldl_cons]
  refine foldl_feed_le after ?_ ?_
  · simp only [feed, rtake_rtake_append, List.append_assoc]
  · have hcut := scan_append_le hp ((before.foldl (feed p) start).carry ++ x) y
    simp only [feed, List.append_assoc] at hcut ⊢
    omega

/-- Pieces of one letter leave no room for overlaps: every occurrence is counted. -/
theorem run_count_of_letters (hp : p ≠ []) (pieces : List (List α))
    (hone : ∀ piece ∈ pieces, piece.length ≤ 1) :
    (run p pieces).count = occ p pieces.flatten := by
  induction pieces using List.reverseRecOn with
  | nil => simp [start]
  | append_singleton pieces piece ih =>
      have hpos : 0 < p.length := List.length_pos_iff.2 hp
      have hshort : ((pieces.flatten).rtake (p.length - 1) ++ piece).length ≤ p.length := by
        have hpiece := hone piece (by simp)
        rw [List.length_append, length_rtake]
        omega
      have hold := ih fun piece hmem => hone piece (List.mem_append_left _ hmem)
      calc
        (run p (pieces ++ [piece])).count
            = (run p pieces).count + scan p ((run p pieces).carry ++ piece) := by
              rw [run_concat, feed]
        _ = occ p pieces.flatten + occ p (pieces.flatten.rtake (p.length - 1) ++ piece) := by
              rw [hold, run_carry, scan_eq_occ_of_length_le hp hshort]
        _ = occ p (pieces ++ [piece]).flatten := by
              rw [← occ_append hp]
              simp

theorem run_singleton_count (p s : List α) : (run p [s]).count = scan p s := by
  simp [run, feed, start]

end Window

end Words
