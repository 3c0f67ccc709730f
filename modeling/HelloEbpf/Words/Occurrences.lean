import Mathlib.Data.List.DropRight
import Mathlib.Data.Nat.Count
import Mathlib.Tactic.Common

/-!
# Occurrences — counting where a word occurs in another

Positions are counted with overlaps: `occ p s` is the number of indices of `s` at which a copy of
`p` starts, whatever the other copies do.  The two facts the streaming counters rest on are

* `occ_append`: the occurrences in `x ++ y` are those in `x` together with those in `y` prefixed by
  the last `p.length - 1` letters of `x`;
* `occ_append_of_head_not_mem`: a block without the first letter of `p` contributes nothing.
-/

namespace Words

variable {α : Type*} [DecidableEq α] {p s x y : List α} {i j : ℕ}

/-- A copy of `p` starts at index `i` of `s`. -/
def OccursAt (p s : List α) (i : ℕ) : Prop :=
  p <+: s.drop i

instance (p s : List α) : DecidablePred (OccursAt p s) :=
  fun i => inferInstanceAs (Decidable (p <+: s.drop i))

/-- The number of indices of `s` at which a copy of `p` starts. -/
def occ (p s : List α) : ℕ :=
  Nat.count (OccursAt p s) s.length

/-! ## Single positions -/

omit [DecidableEq α] in
theorem OccursAt.add_length_le (h : OccursAt p s i) (hp : p ≠ []) : i + p.length ≤ s.length := by
  have hlen : p.length ≤ s.length - i := by
    simpa using h.length_le
  have hpos : 0 < p.length := List.length_pos_iff.2 hp
  omega

omit [DecidableEq α] in
theorem occursAt_append_left (h : i + p.length ≤ x.length) :
    OccursAt p (x ++ y) i ↔ OccursAt p x i := by
  have hdrop : (x ++ y).drop i = x.drop i ++ y := List.drop_append_of_le_length (by omega)
  unfold OccursAt
  rw [hdrop]
  constructor
  · intro hpre
    refine List.prefix_of_prefix_length_le hpre (List.prefix_append _ _) ?_
    simp only [List.length_drop]
    omega
  · intro hpre
    exact hpre.trans (List.prefix_append _ _)

omit [DecidableEq α] in
theorem occursAt_drop : OccursAt p (s.drop i) j ↔ OccursAt p s (i + j) := by
  simp [OccursAt, List.drop_drop]

/-! ## Counting -/

private theorem count_congr {P Q : ℕ → Prop} [DecidablePred P] [DecidablePred Q] {n : ℕ}
    (h : ∀ i < n, (P i ↔ Q i)) : Nat.count P n = Nat.count Q n := by
  rw [Nat.count_eq_card_filter_range, Nat.count_eq_card_filter_range]
  congr 1
  apply Finset.filter_congr
  intro i hi
  exact h i (Finset.mem_range.1 hi)

theorem occ_eq_card (p s : List α) :
    occ p s = ((Finset.range s.length).filter (OccursAt p s)).card :=
  Nat.count_eq_card_filter_range _ _

@[simp] theorem occ_nil (p : List α) : occ p [] = 0 := by
  simp [occ]

theorem occ_cons (p : List α) (a : α) (s : List α) :
    occ p (a :: s) = (if p <+: a :: s then 1 else 0) + occ p s := by
  -- Position 0 is decided by the head; the others are those of the tail, shifted by one.
  have htail : Nat.count (fun k => OccursAt p (a :: s) (k + 1)) s.length = occ p s := by
    apply count_congr
    intro i _
    simp [OccursAt]
  have hhead : OccursAt p (a :: s) 0 ↔ p <+: a :: s := by
    simp [OccursAt]
  simp [occ, Nat.count_succ', htail, hhead, Nat.add_comm]

theorem occ_le_length (p s : List α) : occ p s ≤ s.length :=
  Nat.count_le _

theorem occ_eq_zero_iff (hp : p ≠ []) : occ p s = 0 ↔ ∀ i, ¬ OccursAt p s i := by
  rw [occ_eq_card, Finset.card_eq_zero, Finset.filter_eq_empty_iff]
  constructor
  · intro hnone i hocc
    have hpos : 0 < p.length := List.length_pos_iff.2 hp
    have hle := hocc.add_length_le hp
    exact hnone (Finset.mem_range.2 (by omega)) hocc
  · intro hnone i _
    exact hnone i

theorem occ_drop_le (p s : List α) (j : ℕ) : occ p (s.drop j) ≤ occ p s := by
  induction j generalizing s with
  | zero => simp
  | succ j ih =>
      cases s with
      | nil => simp
      | cons a s =>
          have htail := ih s
          rw [List.drop_succ_cons, occ_cons]
          omega

/-- Dropping letters before which no copy of `p` starts keeps the count. -/
theorem occ_drop_of_forall_not (h : ∀ i < j, ¬ OccursAt p s i) : occ p (s.drop j) = occ p s := by
  induction j generalizing s with
  | zero => simp
  | succ j ih =>
      cases s with
      | nil => simp
      | cons a s =>
          have hhead : ¬ p <+: a :: s := h 0 (Nat.succ_pos j)
          have htail : ∀ i < j, ¬ OccursAt p s i := by
            intro i hi hocc
            exact h (i + 1) (by omega) (by simpa [OccursAt] using hocc)
          simpa [occ_cons, hhead] using ih htail

/-- A block in which the first letter of `p` does not appear starts no copy of `p`. -/
theorem occ_append_of_head_not_mem {a : α} {t : List α} (h : a ∉ x) :
    occ (a :: t) (x ++ y) = occ (a :: t) y := by
  induction x with
  | nil => simp
  | cons b x ih =>
      -- No copy starts at the head, because it would start with `a`.
      have hab : a ≠ b := by
        intro hab
        exact h (by simp [hab])
      have hhead : ¬ (a :: t) <+: b :: (x ++ y) := by
        intro hpre
        exact hab (List.cons_prefix_cons.1 hpre).1
      have hx : a ∉ x := by
        intro hmem
        exact h (List.mem_cons_of_mem b hmem)
      simp [occ_cons, hhead, ih hx]

/-- Blocks that end in a word whose first letter appears only there hold one copy each. -/
theorem occ_flatten_replicate {a : α} {t : List α} (hx : a ∉ x) (ht : a ∉ t) (q : ℕ) :
    occ (a :: t) ((List.replicate q (x ++ a :: t)).flatten ++ y) = q + occ (a :: t) y := by
  induction q with
  | zero => simp
  | succ q ih =>
      have hcopy : a :: t <+: a :: (t ++ ((List.replicate q (x ++ a :: t)).flatten ++ y)) := by
        simp
      calc
        occ (a :: t) ((List.replicate (q + 1) (x ++ a :: t)).flatten ++ y)
            = occ (a :: t) (x ++ a :: (t ++ ((List.replicate q (x ++ a :: t)).flatten ++ y))) := by
              simp [List.replicate_succ]
        _ = 1 + occ (a :: t) ((List.replicate q (x ++ a :: t)).flatten ++ y) := by
              rw [occ_append_of_head_not_mem hx, occ_cons, if_pos hcopy,
                occ_append_of_head_not_mem ht]
        _ = q + 1 + occ (a :: t) y := by
              rw [ih]
              omega

/-- The occurrences in `x ++ y` that are not occurrences in `x` lie in the window made of the last
`p.length - 1` letters of `x` and of `y`. -/
theorem occ_append (hp : p ≠ []) (x y : List α) :
    occ p (x ++ y) = occ p x + occ p (x.rtake (p.length - 1) ++ y) := by
  have hpos : 0 < p.length := List.length_pos_iff.2 hp
  -- `c` is where the kept suffix of `x` starts.
  obtain ⟨c, hc⟩ : ∃ c, c = x.length - (p.length - 1) := ⟨_, rfl⟩
  have hkept : x.rtake (p.length - 1) ++ y = (x ++ y).drop c := by
    rw [List.rtake, ← hc, List.drop_append_of_le_length (by omega)]
  have hleft : occ p x = Nat.count (OccursAt p (x ++ y)) c := by
    have hsplit : x.length = c + (x.length - c) := by omega
    -- From `c` on there is no room for a copy in `x`; before `c` the letters of `y` are out of reach.
    have hlate : Nat.count (fun k => OccursAt p x (c + k)) (x.length - c) = 0 := by
      apply Nat.count_of_forall_not
      intro k _ hocc
      have hle := hocc.add_length_le hp
      omega
    have hearly : Nat.count (OccursAt p x) c = Nat.count (OccursAt p (x ++ y)) c := by
      apply count_congr
      intro i hi
      exact (occursAt_append_left (by omega)).symm
    unfold occ
    rw [hsplit, Nat.count_add, hlate, hearly, Nat.add_zero]
  have hright : occ p ((x ++ y).drop c) =
      Nat.count (fun k => OccursAt p (x ++ y) (c + k)) (x.length + y.length - c) := by
    simp only [occ, List.length_drop, List.length_append]
    apply count_congr
    intro i _
    exact occursAt_drop
  have hsplit : x.length + y.length = c + (x.length + y.length - c) := by omega
  rw [hkept, hleft, hright, ← Nat.count_add, ← hsplit]
  simp [occ]

end Words
