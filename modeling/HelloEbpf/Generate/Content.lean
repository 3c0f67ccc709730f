import HelloEbpf.Generate.Program
import HelloEbpf.Words.Occurrences

/-!
# Content — what `generate()` writes

On every file that takes its writes in sequence and has room for `n` bytes, `generate()` returns and
leaves `content n` written: as many whole blocks as fit, then padding (`generate_spec`).  The two
printed numbers are properties of these bytes: their number, and the number of positions at which
`Alpha` occurs in them.
-/

namespace HelloEbpf
namespace Generate

open Words

/-! ## Repeated bytes -/

theorem bytesMul_natCast (b : List UInt8) (n : Nat) :
    bytesMul b n = (List.replicate n b).flatten := by
  simp [bytesMul]

@[simp] theorem bytesMul_zero (b : List UInt8) : bytesMul b 0 = [] := by
  simp [bytesMul]

theorem bytesMul_add (b : List UInt8) (m n : Nat) :
    bytesMul b (m + n : Nat) = bytesMul b m ++ bytesMul b n := by
  simp only [bytesMul_natCast, List.replicate_add, List.flatten_append]

theorem length_bytesMul (b : List UInt8) (n : Nat) : (bytesMul b n).length = n * b.length := by
  simp [bytesMul_natCast]

theorem bytesMul_padding (n : Nat) : bytesMul padding n = List.replicate n 0x78 := by
  simp [bytesMul_natCast, padding]

theorem block_eq : block = List.replicate 4091 0x78 ++ alpha := by
  rw [block, ← bytesMul_padding]
  rfl

theorem length_block : block.length = 4096 := by
  rw [block_eq, List.length_append, List.length_replicate]
  rfl

/-- The bytes of `q` blocks. -/
theorem length_bytesMul_block (q : Nat) : (bytesMul block q).length = 4096 * q := by
  rw [length_bytesMul, length_block, Nat.mul_comm]

/-- The bytes of `r` letters of padding. -/
theorem length_bytesMul_padding (r : Nat) : (bytesMul padding r).length = r := by
  rw [bytesMul_padding, List.length_replicate]

theorem getElem?_bytesMul {b : List UInt8} {n p : Nat} (hp : p < n * b.length) :
    (bytesMul b n)[p]? = b[p % b.length]? := by
  induction n generalizing p with
  | zero => simp at hp
  | succ n ih =>
      have hsplit : bytesMul b (n + 1 : Nat) = b ++ bytesMul b n := by
        rw [bytesMul_natCast, bytesMul_natCast, List.replicate_succ, List.flatten_cons]
      rw [hsplit]
      by_cases hfirst : p < b.length
      · rw [List.getElem?_append_left hfirst, Nat.mod_eq_of_lt hfirst]
      · have hle : b.length ≤ p := by omega
        have hrest : p - b.length < n * b.length := by
          rw [Nat.add_mul, Nat.one_mul] at hp
          omega
        rw [List.getElem?_append_right hle, ih hrest, Nat.mod_eq_sub_mod hle]

/-! ## The bytes of a run -/

/-- The bytes a run with target size `n` writes. -/
def content (n : Nat) : List UInt8 :=
  bytesMul block (n / 4096 : Nat) ++ bytesMul padding (n % 4096 : Nat)

theorem length_content (n : Nat) : (content n).length = n := by
  have hdiv := Nat.div_add_mod n 4096
  rw [content, List.length_append, length_bytesMul_block, length_bytesMul_padding]
  exact hdiv

/-- A run starts with whole blocks. -/
theorem content_eq_append {n blocks : Nat} (h : 4096 * blocks ≤ n) :
    content n = bytesMul block blocks ++ content (n - 4096 * blocks) := by
  have hdiv : n / 4096 = blocks + (n - 4096 * blocks) / 4096 := by omega
  have hmod : n % 4096 = (n - 4096 * blocks) % 4096 := by omega
  rw [content, content, hdiv, hmod, bytesMul_add, List.append_assoc]

/-- Whole blocks written over whole blocks change nothing. -/
theorem content_append_drop {n blocks : Nat} (h : 4096 * blocks ≤ n) :
    content (4096 * blocks) ++ (content n).drop (4096 * blocks) = content n := by
  have hwhole : content (4096 * blocks) = bytesMul block blocks := by
    have hdiv : 4096 * blocks / 4096 = blocks := by omega
    have hmod : 4096 * blocks % 4096 = 0 := by omega
    rw [content, hdiv, hmod, Int.natCast_zero, bytesMul_zero, List.append_nil]
  have hlen := length_bytesMul_block blocks
  rw [hwhole, content_eq_append h, List.drop_left' hlen]

theorem getElem?_content {n p : Nat} (hp : p < n) :
    (content n)[p]? =
      if p < 4096 * (n / 4096) ∧ 4091 ≤ p % 4096 then alpha[p % 4096 - 4091]? else some 0x78 := by
  have hblocks := length_bytesMul_block (n / 4096)
  by_cases hblock : p < 4096 * (n / 4096)
  · have hlt : p < n / 4096 * block.length := by
      rw [length_block]
      omega
    rw [content, List.getElem?_append_left (by omega), getElem?_bytesMul hlt, length_block,
      block_eq]
    have hlen : (List.replicate 4091 (0x78 : UInt8)).length = 4091 := List.length_replicate
    -- Inside a block: the filler, or the word behind it.
    by_cases hfill : p % 4096 < 4091
    · have hno : ¬ (p < 4096 * (n / 4096) ∧ 4091 ≤ p % 4096) := by omega
      rw [List.getElem?_append_left (by omega), if_neg hno, List.getElem?_replicate, if_pos hfill]
    · have hyes : p < 4096 * (n / 4096) ∧ 4091 ≤ p % 4096 := by omega
      rw [List.getElem?_append_right (by omega), if_pos hyes, hlen]
  · -- Behind the blocks there is nothing but padding.
    have hno : ¬ (p < 4096 * (n / 4096) ∧ 4091 ≤ p % 4096) := by omega
    have hpad : p - 4096 * (n / 4096) < n % 4096 := by omega
    rw [content, List.getElem?_append_right (by omega), hblocks, bytesMul_padding, if_neg hno,
      List.getElem?_replicate, if_pos hpad]

/-- `Alpha` occurs in the written bytes once for each block, and anything that follows them adds only
its own occurrences: no copy crosses the seam. -/
theorem occ_content_append (n : Nat) (rest : List UInt8) :
    occ alpha (content n ++ rest) = n / 4096 + occ alpha rest := by
  -- `A` stands at the start of each copy and nowhere else in the script's bytes.
  have hword : alpha = 0x41 :: [0x6c, 0x70, 0x68, 0x61] := rfl
  have hfill : (0x41 : UInt8) ∉ List.replicate 4091 (0x78 : UInt8) := by
    intro hmem
    exact absurd (List.eq_of_mem_replicate hmem) (by decide)
  have hpad : (0x41 : UInt8) ∉ bytesMul padding (n % 4096 : Nat) := by
    intro hmem
    rw [bytesMul_padding] at hmem
    exact absurd (List.eq_of_mem_replicate hmem) (by decide)
  rw [content, List.append_assoc, bytesMul_natCast block, block_eq, hword,
    occ_flatten_replicate hfill (by decide), occ_append_of_head_not_mem hpad]

theorem occ_content (n : Nat) : occ alpha (content n) = n / 4096 := by
  simpa using occ_content_append n []

end Generate
end HelloEbpf
