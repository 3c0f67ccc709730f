import HelloEbpf.Generate.Device

/-!
# History — a device that the script has run on before

On a device each run writes over the front of what the runs before it left, and a run for which there
is no room writes over all of it.  A copy of `Alpha` that a run wrote is there until a later run writes
over its first byte; then it is gone, unless that run puts a copy in the same place.  `survives` says
this of one block, and `occ_history` counts the copies behind any number of runs.
-/

namespace HelloEbpf
namespace Generate

open CMemory Words

/-! ## One run -/

/-- The bytes of a device behind a run of `n` bytes, of which only as many count as the device has. -/
def overwrite (s : List UInt8) (n : Nat) : List UInt8 :=
  (content n).take s.length ++ s.drop n

theorem length_overwrite (s : List UInt8) (n : Nat) : (overwrite s n).length = s.length := by
  rw [overwrite, List.length_append, List.length_take, length_content, List.length_drop]
  omega

theorem getElem?_overwrite_of_lt {s : List UInt8} {n i : Nat} (hi : i < n) (hs : i < s.length) :
    (overwrite s n)[i]? = (content n)[i]? := by
  have hfront : i < ((content n).take s.length).length := by
    rw [List.length_take, length_content]
    omega
  rw [overwrite, List.getElem?_append_left hfront, List.getElem?_take_of_lt hs]

/-- In the bytes of a run, `A` is the fifth byte from the end of a block. -/
theorem getElem?_content_eq_head {n i : Nat} (hi : i < n)
    (h : (content n)[i]? = some 0x41) : i % 4096 = 4091 ∧ i < 4096 * (n / 4096) := by
  rw [getElem?_content hi] at h
  by_cases hword : i < 4096 * (n / 4096) ∧ 4091 ≤ i % 4096
  · rw [if_pos hword] at h
    have hmod : i % 4096 < 4096 := Nat.mod_lt _ (by decide)
    -- Of the five letters only the first is an `A`.
    have hfirst : ∀ k < 5, alpha[k]? = some 0x41 → k = 0 := by decide
    have hzero := hfirst (i % 4096 - 4091) (by omega) h
    exact ⟨by omega, hword.1⟩
  · rw [if_neg hword] at h
    exact absurd h (by decide)

/-- A copy of `Alpha` lies within the bytes, and starts with an `A`. -/
theorem head_of_occursAt {s : List UInt8} {i : Nat} (h : OccursAt alpha s i) :
    i + 5 ≤ s.length ∧ s[i]? = some 0x41 := by
  rcases h with ⟨rest, hrest⟩
  have hlen := congrArg List.length hrest
  rw [List.length_append, List.length_drop] at hlen
  have hword : alpha.length = 5 := rfl
  have hzero : (s.drop i)[0]? = some 0x41 := by
    rw [← hrest]
    rfl
  exact ⟨by omega, by simpa using hzero⟩

/-- Behind a run, a copy of `Alpha` is the end of a whole block that the run wrote, or lies in the
bytes that it left alone. -/
theorem occursAt_overwrite {s : List UInt8} {n i : Nat} :
    OccursAt alpha (overwrite s n) i ↔
      (∃ b, i = 4096 * b + 4091 ∧ 4096 * (b + 1) ≤ s.length ∧ 4096 * (b + 1) ≤ n) ∨
        (n ≤ i ∧ OccursAt alpha s i) := by
  by_cases hi : i < n
  · constructor
    · intro hocc
      left
      rcases head_of_occursAt hocc with ⟨hend, hhead⟩
      rw [length_overwrite] at hend
      rw [getElem?_overwrite_of_lt hi (by omega)] at hhead
      rcases getElem?_content_eq_head hi hhead with ⟨hmod, hblock⟩
      exact ⟨i / 4096, by omega, by omega, by omega⟩
    · rintro (⟨b, rfl, hs, hb⟩ | ⟨hge, _⟩)
      · -- The five bytes one after the other.
        refine List.prefix_iff_getElem?.2 ?_
        intro k hk
        have hk5 : k < 5 := hk
        have hin : 4096 * b + 4091 + k < n := by omega
        have hword : 4096 * b + 4091 + k < 4096 * (n / 4096) ∧
            4091 ≤ (4096 * b + 4091 + k) % 4096 := by omega
        have hindex : (4096 * b + 4091 + k) % 4096 - 4091 = k := by omega
        rw [List.getElem?_drop, getElem?_overwrite_of_lt hin (by omega), getElem?_content hin,
          if_pos hword, hindex, List.getElem?_eq_getElem hk]
      · omega
  · have hge : n ≤ i := Nat.le_of_not_lt hi
    have hdrop : OccursAt alpha (overwrite s n) i ↔ OccursAt alpha s i := by
      rw [OccursAt, OccursAt, overwrite]
      by_cases hfits : n ≤ s.length
      · have hsplit : i = (content n).length + (i - n) := by
          rw [length_content]
          omega
        rw [List.take_of_length_le (by rwa [length_content]), hsplit, List.drop_length_add_append,
          List.drop_drop, length_content]
      · -- Behind the end of the device there is nothing, before the run and after it.
        have hnil : s.drop n = [] := List.drop_eq_nil_of_le (by omega)
        have hbehind : s.drop i = [] := List.drop_eq_nil_of_le (by omega)
        rw [hnil, List.append_nil, hbehind, List.drop_eq_nil_of_le]
        rw [List.length_take]
        omega
    rw [hdrop]
    constructor
    · intro hocc
      exact Or.inr ⟨hge, hocc⟩
    · rintro (⟨b, rfl, _, hb⟩ | ⟨_, hocc⟩)
      · omega
      · exact hocc

/-! ## Any number of runs -/

/-- The copy at the end of block `b` is there behind runs of these sizes: of the runs that reach its
first byte, the last one has written the whole block. -/
def survives (b : Nat) (sizes : List Nat) : Bool :=
  sizes.foldl (fun old n => if 4096 * b + 4091 < n then decide (4096 * (b + 1) ≤ n) else old) false

theorem survives_concat (b : Nat) (sizes : List Nat) (n : Nat) :
    survives b (sizes ++ [n]) =
      if 4096 * b + 4091 < n then decide (4096 * (b + 1) ≤ n) else survives b sizes := by
  simp [survives]

/-- A copy that has survived was written by one of the runs. -/
theorem exists_of_survives {b : Nat} {sizes : List Nat} (h : survives b sizes = true) :
    ∃ n ∈ sizes, 4096 * (b + 1) ≤ n := by
  induction sizes using List.reverseRecOn with
  | nil => cases h
  | append_singleton sizes n ih =>
      rw [survives_concat] at h
      by_cases hreach : 4096 * b + 4091 < n
      · rw [if_pos hreach] at h
        exact ⟨n, by simp, of_decide_eq_true h⟩
      · rw [if_neg hreach] at h
        rcases ih h with ⟨m, hm, hle⟩
        exact ⟨m, List.mem_append_left _ hm, hle⟩

theorem length_history (s : List UInt8) (sizes : List Nat) :
    (sizes.foldl overwrite s).length = s.length := by
  induction sizes using List.reverseRecOn with
  | nil => rfl
  | append_singleton sizes n ih =>
      rw [List.foldl_append, List.foldl_cons, List.foldl_nil, length_overwrite, ih]

/-- Behind any number of runs, a copy of `Alpha` is one that has survived on the device, or an old one
that no run has reached. -/
theorem occursAt_history {s : List UInt8} {sizes : List Nat} {i : Nat} :
    OccursAt alpha (sizes.foldl overwrite s) i ↔
      (∃ b, i = 4096 * b + 4091 ∧ 4096 * (b + 1) ≤ s.length ∧ survives b sizes = true) ∨
        ((∀ n ∈ sizes, n ≤ i) ∧ OccursAt alpha s i) := by
  -- the last run decides what lies in front of its end, the runs before it all the rest
  induction sizes using List.reverseRecOn with
  | nil => simp [survives]
  | append_singleton sizes n ih =>
      rw [List.foldl_append, List.foldl_cons, List.foldl_nil, occursAt_overwrite, length_history, ih]
      constructor
      · rintro (⟨b, rfl, hs, hb⟩ | ⟨hge, ⟨b, rfl, hs, hb⟩ | ⟨hall, hocc⟩⟩)
        · refine Or.inl ⟨b, rfl, hs, ?_⟩
          rw [survives_concat, if_pos (by omega)]
          exact decide_eq_true hb
        · refine Or.inl ⟨b, rfl, hs, ?_⟩
          rw [survives_concat, if_neg (by omega)]
          exact hb
        · refine Or.inr ⟨?_, hocc⟩
          intro m hm
          rcases List.mem_append.1 hm with hold | hnew
          · exact hall m hold
          · rw [List.mem_singleton.1 hnew]
            exact hge
      · rintro (⟨b, rfl, hs, hb⟩ | ⟨hall, hocc⟩)
        · rw [survives_concat] at hb
          by_cases hreach : 4096 * b + 4091 < n
          · rw [if_pos hreach] at hb
            exact Or.inl ⟨b, rfl, hs, of_decide_eq_true hb⟩
          · rw [if_neg hreach] at hb
            exact Or.inr ⟨Nat.le_of_not_lt hreach, Or.inl ⟨b, rfl, hs, hb⟩⟩
        · refine Or.inr ⟨hall n (by simp), Or.inr ⟨?_, hocc⟩⟩
          intro m hm
          exact hall m (List.mem_append_left _ hm)

/-- The blocks of a device whose copies have survived. -/
def survivors (capacity : Nat) (sizes : List Nat) : Finset Nat :=
  (Finset.range (capacity / 4096)).filter fun b => survives b sizes = true

/-- Where the old copies are that no run has reached. -/
def untouched (s : List UInt8) (sizes : List Nat) : Finset Nat :=
  (Finset.range s.length).filter fun i => (∀ n ∈ sizes, n ≤ i) ∧ OccursAt alpha s i

theorem filter_occursAt_history (s : List UInt8) (sizes : List Nat) :
    (Finset.range s.length).filter (OccursAt alpha (sizes.foldl overwrite s)) =
      (survivors s.length sizes).image (fun b => 4096 * b + 4091) ∪ untouched s sizes := by
  ext i
  simp only [survivors, untouched, Finset.mem_filter, Finset.mem_range, Finset.mem_union,
    Finset.mem_image, occursAt_history]
  constructor
  · rintro ⟨hi, ⟨b, rfl, hs, hb⟩ | hold⟩
    · exact Or.inl ⟨b, ⟨by omega, hb⟩, rfl⟩
    · exact Or.inr ⟨hi, hold⟩
  · rintro (⟨b, ⟨hb, hsurvives⟩, rfl⟩ | ⟨hi, hold⟩)
    · exact ⟨by omega, Or.inl ⟨b, rfl, by omega, hsurvives⟩⟩
    · exact ⟨hi, Or.inr hold⟩

/-- A surviving copy lies within a run, an untouched one behind all of them. -/
theorem disjoint_survivors_untouched (s : List UInt8) (sizes : List Nat) :
    Disjoint ((survivors s.length sizes).image (fun b => 4096 * b + 4091))
      (untouched s sizes) := by
  rw [Finset.disjoint_left]
  intro i hi hold
  simp only [survivors, untouched, Finset.mem_filter, Finset.mem_image] at hi hold
  rcases hi with ⟨b, ⟨_, hb⟩, rfl⟩
  rcases exists_of_survives hb with ⟨n, hn, hle⟩
  have hbehind := hold.2.1 n hn
  omega

/-- The copies behind any number of runs. -/
theorem occ_history (s : List UInt8) (sizes : List Nat) :
    occ alpha (sizes.foldl overwrite s) =
      (survivors s.length sizes).card + (untouched s sizes).card := by
  have hplace : Function.Injective fun b : Nat => 4096 * b + 4091 := by
    intro b b' hsame
    have heq : 4096 * b + 4091 = 4096 * b' + 4091 := hsame
    omega
  calc
    occ alpha (sizes.foldl overwrite s)
        = ((Finset.range s.length).filter (OccursAt alpha (sizes.foldl overwrite s))).card := by
          rw [occ_eq_card, length_history]
    _ = ((survivors s.length sizes).image (fun b => 4096 * b + 4091)).card +
          (untouched s sizes).card := by
          rw [filter_occursAt_history,
            Finset.card_union_of_disjoint (disjoint_survivors_untouched s sizes)]
    _ = (survivors s.length sizes).card + (untouched s sizes).card := by
          rw [Finset.card_image_of_injective _ hplace]

/-! ## The script, run once for each size -/

section Script

variable {capacity : Nat}

/-- What one run leaves on the device, whether it gets to its end or the device is full before. -/
def generateOver (prior : Buffer capacity) (n : Nat) : Buffer capacity :=
  match generate (Device.sink capacity) (Device.openWb prior) n with
  | .ok (dev, _) => dev.content
  | .error (.noSpace dev) => dev.content

def generateAll (sizes : List Nat) (prior : Buffer capacity) : Buffer capacity :=
  sizes.foldl generateOver prior

theorem bytes_generateOver (prior : Buffer capacity) (n : Nat) :
    (generateOver prior n).bytes = overwrite prior.bytes n := by
  have hlen := prior.length_bytes
  rw [generateOver, overwrite]
  by_cases hn : n ≤ capacity
  · rcases generate_device prior hn with ⟨dev, hrun, hbytes⟩
    rw [hrun]
    have hall : (content n).length ≤ prior.bytes.length := by
      rw [length_content, hlen]
      exact hn
    rw [List.take_of_length_le hall]
    exact hbytes
  · rcases generate_device_full prior (Nat.lt_of_not_le hn) with ⟨dev, hrun, hbytes⟩
    rw [hrun, List.drop_eq_nil_of_le (by omega), List.append_nil, hlen]
    exact hbytes

/-- The runs leave the device as the abstract history says. -/
theorem bytes_generateAll (prior : Buffer capacity) (sizes : List Nat) :
    (generateAll sizes prior).bytes = sizes.foldl overwrite prior.bytes := by
  induction sizes generalizing prior with
  | nil => rfl
  | cons n sizes ih =>
      have hrest := ih (generateOver prior n)
      rw [bytes_generateOver] at hrest
      exact hrest

end Script

end Generate
end HelloEbpf
