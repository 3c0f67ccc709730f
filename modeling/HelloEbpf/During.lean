import Mathlib.Data.List.TakeWhile

/-!
# During — the part of a history between two events

A history is a list that grows at its end.  `during a b l` is what `l` has from the event `a` on and
up to the event `b`, where `a` comes once and not after `b` (`Ordered`).  One more event makes it
longer exactly where `a` has come and `b` has not (`during_append_singleton`).
-/

namespace During

variable {α : Type*} [DecidableEq α] {a b e : α} {l : List α}

/-- From `a`, which is part of it, up to `b`, which is not. -/
def during (a b : α) (l : List α) : List α :=
  (l.dropWhile (· ≠ a)).takeWhile (· ≠ b)

/-- `a` has come and `b` has not. -/
def Open (a b : α) (l : List α) : Prop :=
  a ∈ l ∧ b ∉ l

instance : Decidable (Open a b l) :=
  inferInstanceAs (Decidable (a ∈ l ∧ b ∉ l))

/-- Where both have come, `b` has come after `a`. -/
def Ordered (a b : α) (l : List α) : Prop :=
  a ∈ l → b ∈ l → b ∈ l.dropWhile (· ≠ a)

theorem ordered_nil : Ordered a b [] := by
  intro ha
  cases ha

omit [DecidableEq α] in
theorem not_open_nil : ¬ Open a b [] := by
  rintro ⟨ha, _⟩
  cases ha

theorem dropWhile_append_of_mem (ha : a ∈ l) (r : List α) :
    (l ++ r).dropWhile (· ≠ a) = l.dropWhile (· ≠ a) ++ r := by
  rw [List.dropWhile_append, if_neg]
  simpa [List.dropWhile_eq_nil_iff] using ha

theorem dropWhile_append_of_not_mem (ha : a ∉ l) (r : List α) :
    (l ++ r).dropWhile (· ≠ a) = r.dropWhile (· ≠ a) := by
  apply List.dropWhile_append_of_pos
  intro x hx
  have hne : x ≠ a := fun h => ha (h ▸ hx)
  simpa using hne

theorem takeWhile_append_of_mem {l : List α} (hb : b ∈ l) (r : List α) :
    (l ++ r).takeWhile (· ≠ b) = l.takeWhile (· ≠ b) := by
  rw [List.takeWhile_append, if_neg]
  intro hlen
  have hall := List.takeWhile_eq_self_iff.mp ((List.takeWhile_prefix _).eq_of_length hlen) b hb
  simp at hall

theorem takeWhile_append_of_not_mem {l : List α} (hb : b ∉ l) (r : List α) :
    (l ++ r).takeWhile (· ≠ b) = l ++ r.takeWhile (· ≠ b) := by
  apply List.takeWhile_append_of_pos
  intro x hx
  have hne : x ≠ b := fun h => hb (h ▸ hx)
  simpa using hne

theorem during_of_not_mem (ha : a ∉ l) : during a b l = [] := by
  have hdrop := dropWhile_append_of_not_mem ha []
  rw [List.append_nil] at hdrop
  rw [during, hdrop]
  rfl

/-! ## One event more -/

section Append

variable (hfresh : e = a → a ∉ l ∧ b ∉ l)

include hfresh

omit [DecidableEq α] in
theorem open_append_singleton (hab : a ≠ b) :
    Open a b (l ++ [e]) ↔ e = a ∨ Open a b l ∧ e ≠ b := by
  simp only [Open, List.mem_append, List.mem_singleton, not_or]
  constructor
  · rintro ⟨ha | rfl, hb, hbe⟩
    · exact .inr ⟨⟨ha, hb⟩, fun h => hbe h.symm⟩
    · exact .inl rfl
  · rintro (rfl | ⟨⟨ha, hb⟩, hbe⟩)
    · exact ⟨.inr rfl, (hfresh rfl).2, fun h => hab h.symm⟩
    · exact ⟨.inl ha, hb, fun h => hbe h.symm⟩

theorem ordered_append_singleton (hord : Ordered a b l) : Ordered a b (l ++ [e]) := by
  intro ha hb
  by_cases hal : a ∈ l
  · rw [dropWhile_append_of_mem hal]
    rcases List.mem_append.mp hb with hbl | hbe
    · exact List.mem_append_left _ (hord hal hbl)
    · exact List.mem_append_right _ hbe
  · -- Here the new event is the `a`, so that no `b` has come before it.
    have hea : e = a := by
      rcases List.mem_append.mp ha with h | h
      · exact absurd h hal
      · exact (List.mem_singleton.mp h).symm
    rcases List.mem_append.mp hb with hbl | hbe
    · exact absurd hbl (hfresh hea).2
    · rw [dropWhile_append_of_not_mem hal]
      simpa [hea] using hbe

theorem during_append_singleton (hab : a ≠ b) (hord : Ordered a b l) :
    during a b (l ++ [e]) =
      during a b l ++ if e = a ∨ Open a b l ∧ e ≠ b then [e] else [] := by
  by_cases hal : a ∈ l
  · have hea : e ≠ a := fun h => (hfresh h).1 hal
    rw [during, during, dropWhile_append_of_mem hal]
    by_cases hbl : b ∈ l
    · -- The part had its end before; `b` comes after `a`, so it is still found there.
      rw [takeWhile_append_of_mem (hord hal hbl)]
      simp [Open, hea, hbl]
    · have hdrop : b ∉ l.dropWhile (· ≠ a) := fun h => hbl ((List.dropWhile_suffix _).mem h)
      have hself := takeWhile_append_of_not_mem hdrop []
      rw [List.append_nil, List.takeWhile_nil, List.append_nil] at hself
      rw [takeWhile_append_of_not_mem hdrop, hself]
      by_cases heb : e = b
      · simp [Open, heb, hab.symm]
      · simp [Open, hal, hbl, heb]
  · -- Nothing yet: the part begins with the new event, or not at all.
    rw [during_of_not_mem hal, during, dropWhile_append_of_not_mem hal]
    by_cases hea : e = a
    · simp [hea, hab]
    · simp [hea, Open, hal]

end Append

end During
