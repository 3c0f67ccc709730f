import HelloEbpf.Words.Occurrences

/-!
# Borders — words that overlap themselves

A border of `p` is a non-empty proper prefix of `p` that is also a suffix of `p`.  Two copies of `p`
in one text can overlap exactly when `p` has a border, so in a border-free word the occurrences are
disjoint and the leftmost non-overlapping scan of `Words.Scan` loses none of them.
-/

namespace Words

variable {α : Type*} {p s u : List α} {i j : ℕ}

/-- `u` is a non-empty proper prefix of `p` and a suffix of `p`. -/
structure IsBorder (u p : List α) : Prop where
  ne_nil : u ≠ []
  ne_self : u ≠ p
  isPrefix : u <+: p
  isSuffix : u <:+ p

/-- No non-empty proper prefix of `p` is a suffix of `p`. -/
def BorderFree (p : List α) : Prop :=
  ∀ u, ¬ IsBorder u p

theorem IsBorder.length_pos (h : IsBorder u p) : 0 < u.length :=
  List.length_pos_iff.2 h.ne_nil

theorem IsBorder.length_lt (h : IsBorder u p) : u.length < p.length := by
  have hle : u.length ≤ p.length := h.isPrefix.length_le
  have hne : u.length ≠ p.length := by
    intro heq
    exact h.ne_self (h.isPrefix.eq_of_length heq)
  omega

theorem IsBorder.eq_take (h : IsBorder u p) : u = p.take u.length :=
  List.prefix_iff_eq_take.1 h.isPrefix

theorem IsBorder.eq_drop (h : IsBorder u p) : u = p.drop (p.length - u.length) :=
  List.suffix_iff_eq_drop.1 h.isSuffix

/-- Behind the border of a first copy of `p`, a second copy starts inside the first. -/
theorem IsBorder.drop_append_drop (h : IsBorder u p) :
    (p ++ p.drop u.length).drop (p.length - u.length) = p := by
  have hcover : u ++ p.drop u.length = p := by
    obtain ⟨t, ht⟩ := h.isPrefix
    rw [← ht]
    simp
  rw [List.drop_append_of_le_length (by omega), ← h.eq_drop, hcover]

theorem IsBorder.length_append_drop (h : IsBorder u p) :
    (p ++ p.drop u.length).length = 2 * p.length - u.length := by
  have hlt := h.length_lt
  simp only [List.length_append, List.length_drop]
  omega

/-- A word with a border has one given by a length, which a finite search finds. -/
theorem borderFree_iff_forall_take :
    BorderFree p ↔ ∀ k < p.length, 0 < k → ¬ p.take k <:+ p := by
  constructor
  · intro hfree k hk hpos hsuf
    have hlen : (p.take k).length = k := by
      simp only [List.length_take]
      omega
    refine hfree (p.take k) ⟨?_, ?_, List.take_prefix k p, hsuf⟩
    · intro hnil
      have hzero : (p.take k).length = 0 := by simp [hnil]
      omega
    · intro hself
      have hfull : (p.take k).length = p.length := by rw [hself]
      omega
  · intro hall u hu
    refine hall u.length hu.length_lt hu.length_pos ?_
    rw [← hu.eq_take]
    exact hu.isSuffix

instance [DecidableEq α] (p : List α) : Decidable (BorderFree p) :=
  decidable_of_iff (∀ k < p.length, 0 < k → ¬ p.take k <:+ p) borderFree_iff_forall_take.symm

/-! ## Occurrences of a border-free word -/

/-- The part on which two overlapping copies of `p` agree is a border of `p`. -/
theorem isBorder_of_overlap (hi : OccursAt p s i) (hj : OccursAt p s j) (hij : i < j)
    (hover : j < i + p.length) : IsBorder (p.drop (j - i)) p := by
  -- At index `j` the text shows the rest of the first copy and the start of the second.
  have hshift : p.drop (j - i) <+: s.drop j := by
    obtain ⟨t, ht⟩ := hi
    have hdrop : s.drop j = (s.drop i).drop (j - i) := by
      rw [List.drop_drop]
      congr 1
      omega
    rw [hdrop, ← ht, List.drop_append_of_le_length (by omega)]
    exact List.prefix_append _ _
  refine ⟨?_, ?_, ?_, List.drop_suffix _ _⟩
  · intro hnil
    have hlen : (p.drop (j - i)).length = 0 := by simp [hnil]
    simp only [List.length_drop] at hlen
    omega
  · intro hself
    have hlen : (p.drop (j - i)).length = p.length := by rw [hself]
    simp only [List.length_drop] at hlen
    omega
  · refine List.prefix_of_prefix_length_le hshift hj ?_
    simp

theorem BorderFree.add_length_le (hfree : BorderFree p) (hi : OccursAt p s i)
    (hj : OccursAt p s j) (hij : i < j) : i + p.length ≤ j := by
  by_contra hover
  exact hfree _ (isBorder_of_overlap hi hj hij (by omega))

end Words
