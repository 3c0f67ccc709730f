import HelloEbpf.Generate.Content

/-!
# Run — the write loop

`Sequential` is what the loop needs of the file it writes: a relation between the bytes written so
far and the state of the file, kept by every `write` that fits.  The loop invariant is that the file
holds `j` whole blocks, with `written` and `count` saying so; the three ways through the loop body
keep it or finish `content n`.
-/

namespace HelloEbpf
namespace Generate

open Words

/-- A file with room for `limit` bytes that takes its writes one behind the other. -/
structure Sequential {φ ε : Type} (sink : Sink φ ε) (limit : Nat) where
  Holds : List UInt8 → φ → Prop
  write_holds : ∀ {out : List UInt8} {file : φ} {data : List UInt8}, Holds out file →
    out.length + data.length ≤ limit →
      ∃ file', sink.write file data = .ok file' ∧ Holds (out ++ data) file'

section Loop

variable {φ ε : Type} {sink : Sink φ ε} {limit : Nat} (seq : Sequential sink limit)

theorem writeBlocks_spec {out : List UInt8} {st : Progress φ} {q : Nat}
    (hout : seq.Holds out st.file) (hroom : out.length + 4096 * q ≤ limit) :
    ∃ st', writeBlocks sink q st = .ok st' ∧ seq.Holds (out ++ bytesMul block q) st'.file ∧
      st'.written = st.written + 4096 * q ∧ st'.count = st.count + q := by
  by_cases hq : (q : Int) > 0
  · have hlen : (bytesMul block q).length = 4096 * q := by
      rw [length_bytesMul, length_block, Nat.mul_comm]
    have hfits : out.length + (bytesMul block q).length ≤ limit := by omega
    rcases seq.write_holds hout hfits with ⟨file, hwrite, hfile⟩
    refine ⟨{ file := file, written := st.written + q * 4096, count := st.count + q }, ?_, hfile,
      ?_, rfl⟩
    · rw [writeBlocks, if_pos hq, hwrite]
      rfl
    · show st.written + (q : Int) * 4096 = st.written + 4096 * q
      omega
  · -- The branch is not taken, and no block is owed.
    have hzero : q = 0 := by omega
    subst hzero
    refine ⟨st, by rw [writeBlocks, if_neg hq]; rfl, by simpa using hout, ?_, ?_⟩ <;> simp

theorem writePadding_spec {out : List UInt8} {st : Progress φ} {r : Nat}
    (hout : seq.Holds out st.file) (hroom : out.length + r ≤ limit) :
    ∃ st', writePadding sink r st = .ok st' ∧ seq.Holds (out ++ bytesMul padding r) st'.file ∧
      st'.written = st.written + r ∧ st'.count = st.count := by
  by_cases hr : (r : Int) > 0
  · have hlen : (bytesMul padding r).length = r := by
      rw [length_bytesMul, padding, List.length_singleton, Nat.mul_one]
    have hfits : out.length + (bytesMul padding r).length ≤ limit := by omega
    rcases seq.write_holds hout hfits with ⟨file, hwrite, hfile⟩
    refine ⟨{ st with file := file, written := st.written + r }, ?_, hfile, rfl, rfl⟩
    rw [writePadding, if_pos hr, hwrite]
    rfl
  · have hzero : r = 0 := by omega
    subst hzero
    refine ⟨st, by rw [writePadding, if_neg hr]; rfl, by simpa using hout, ?_, rfl⟩
    simp

theorem writeRest_natCast (r : Nat) (st : Progress φ) :
    writeRest sink r st = (do
      let st ← writeBlocks sink (r / 4096 : Nat) st
      writePadding sink (r % 4096 : Nat) st) := by
  have hquot : (r : Int) / 4096 = (r / 4096 : Nat) := by omega
  have hmod : (r : Int) % 4096 = (r % 4096 : Nat) := by omega
  rw [writeRest, hquot, hmod]

/-- The last pass: the whole blocks that fit into `r` bytes, then the padding. -/
theorem writeRest_spec {out : List UInt8} {st : Progress φ} {r : Nat}
    (hout : seq.Holds out st.file) (hroom : out.length + r ≤ limit) :
    ∃ st', writeRest sink r st = .ok st' ∧ seq.Holds (out ++ content r) st'.file ∧
      st'.written = st.written + r ∧ st'.count = st.count + (r / 4096 : Nat) := by
  have hdiv := Nat.div_add_mod r 4096
  have hblocks := length_bytesMul_block (r / 4096)
  rcases writeBlocks_spec seq hout (show out.length + 4096 * (r / 4096) ≤ limit by omega) with
    ⟨st₁, hrun₁, hout₁, hwritten₁, hcount₁⟩
  have hroom₁ : (out ++ bytesMul block (r / 4096 : Nat)).length + r % 4096 ≤ limit := by
    rw [List.length_append]
    omega
  rcases writePadding_spec seq hout₁ hroom₁ with ⟨st₂, hrun₂, hout₂, hwritten₂, hcount₂⟩
  refine ⟨st₂, ?_, ?_, by omega, by omega⟩
  · rw [writeRest_natCast, hrun₁]
    exact hrun₂
  · simpa [content] using hout₂

/-- The state at the loop head once `j` blocks are written. -/
structure AtBlock (j : Nat) (st : Progress φ) : Prop where
  holds : seq.Holds (bytesMul block j) st.file
  written : st.written = 4096 * j
  count : st.count = j

/-- A pass through the loop that is not the last leads from one loop head to another. -/
theorem AtBlock.chunk {j : Nat} {st : Progress φ} (h : AtBlock seq j st)
    (hroom : 4096 * (j + 256) ≤ limit) :
    ∃ file, sink.write st.file (bytesMul block blocksPerChunk) = .ok file ∧
      AtBlock seq (j + 256)
        { file := file
          written := st.written + blocksPerChunk * 4096
          count := st.count + blocksPerChunk } := by
  have hfits : (bytesMul block j).length + (bytesMul block (256 : Nat)).length ≤ limit := by
    rw [length_bytesMul_block, length_bytesMul_block, ← Nat.mul_add]
    exact hroom
  rcases seq.write_holds h.holds hfits with ⟨file, hwrite, hfile⟩
  have hwritten := h.written
  have hcount := h.count
  have hchunk : blocksPerChunk = (256 : Nat) := rfl
  rw [hchunk]
  refine ⟨file, hwrite, ?_, ?_, ?_⟩
  · rw [bytesMul_add]
    exact hfile
  · show st.written + ((256 : Nat) : Int) * 4096 = 4096 * ((j + 256 : Nat) : Int)
    omega
  · show st.count + ((256 : Nat) : Int) = ((j + 256 : Nat) : Int)
    omega

/-- The loop from the head at which `j` whole blocks are written. -/
theorem writeLoop_spec {n : Nat} (hn : n ≤ limit) (j : Nat) (hj : 4096 * j ≤ n)
    {st : Progress φ} (h : AtBlock seq j st) :
    ∃ st', writeLoop sink n st = .ok st' ∧ seq.Holds (content n) st'.file ∧
      st'.written = n ∧ st'.count = (n / 4096 : Nat) := by
  have hchunk : blocksPerChunk * 4096 = 1048576 := rfl
  -- Induction on the bytes that are left to write.
  induction hm : n - 4096 * j using Nat.strong_induction_on generalizing j st with
  | h m ih =>
      have hwritten := h.written
      have hcount := h.count
      rw [writeLoop]
      by_cases hmore : st.written < n
      · rw [if_pos hmore]
        by_cases hlast : (n : Int) - st.written < blocksPerChunk * 4096
        · -- The last pass writes `content` of what is left.
          have hrest : (n : Int) - st.written = (n - 4096 * j : Nat) := by omega
          have hroom : (bytesMul block j).length + (n - 4096 * j) ≤ limit := by
            rw [length_bytesMul_block]
            omega
          rcases writeRest_spec seq h.holds hroom with ⟨st', hrun, hfile, hwritten', hcount'⟩
          refine ⟨st', ?_, ?_, by omega, by omega⟩
          · simp only [hlast, ↓reduceIte]
            rw [hrest, hrun]
          · rwa [content_eq_append hj]
        · rcases h.chunk seq (by omega) with ⟨file, hwrite, hnext⟩
          rcases ih (n - 4096 * (j + 256)) (by omega) (j + 256) (by omega) hnext rfl with
            ⟨st', hrun, hspec⟩
          refine ⟨st', ?_, hspec⟩
          simp only [hlast, ↓reduceIte, hwrite]
          exact hrun
      · -- The size is a multiple of the chunk, and the loop condition ends the run.
        have hfull : n = 4096 * j := by omega
        have hdiv : n / 4096 = j := by omega
        have hmod : n % 4096 = 0 := by omega
        have hholds := h.holds
        refine ⟨st, by rw [if_neg hmore]; rfl, ?_, by omega, by omega⟩
        simpa [content, hdiv, hmod] using hholds

/-- On every file with room for `n` bytes the script returns, and has written `content n`. -/
theorem generate_spec {n : Nat} (hn : n ≤ limit) {file : φ} (hfile : seq.Holds [] file) :
    ∃ file', generate sink file n =
        .ok (file', { size := n, expectedCount := (n / 4096 : Nat) }) ∧
      seq.Holds (content n) file' := by
  have hstart : AtBlock seq 0 { file := file, written := 0, count := 0 } := by
    refine ⟨?_, rfl, rfl⟩
    simpa using hfile
  rcases writeLoop_spec seq hn 0 (by omega) hstart with ⟨st', hrun, hholds, hwritten, hcount⟩
  refine ⟨st'.file, ?_, hholds⟩
  rw [generate, hrun, ← hwritten, ← hcount]
  rfl

/-- A size that is not positive is reached before the first pass. -/
theorem generate_of_nonpos {targetBytes : Int} (h : targetBytes ≤ 0) (file : φ) :
    generate sink file targetBytes = .ok (file, { size := 0, expectedCount := 0 }) := by
  have hdone : ¬ (0 : Int) < targetBytes := by omega
  rw [generate, writeLoop, if_neg hdone]
  rfl

end Loop

/-! ## Files that are too small -/

/-- A sequential file on which a write ends in an error where there is no room for all of it; what
fits has been written then. -/
structure Bounded {φ ε : Type} (sink : Sink φ ε) (limit : Nat) extends Sequential sink limit where
  Left : List UInt8 → ε → Prop
  write_full : ∀ {out : List UInt8} {file : φ} {data : List UInt8}, Holds out file →
    out.length ≤ limit → limit < out.length + data.length →
      ∃ e, sink.write file data = .error e ∧ Left ((out ++ data).take limit) e

section Full

variable {φ ε : Type} {sink : Sink φ ε} {limit : Nat} (bdd : Bounded sink limit)

theorem writeBlocks_full {out : List UInt8} {st : Progress φ} {q : Nat}
    (hout : bdd.Holds out st.file) (hle : out.length ≤ limit)
    (hfull : limit < out.length + 4096 * q) :
    ∃ e, writeBlocks sink q st = .error e ∧ bdd.Left ((out ++ bytesMul block q).take limit) e := by
  have hq : (q : Int) > 0 := by omega
  have hlen := length_bytesMul_block q
  have hwide : limit < out.length + (bytesMul block q).length := by omega
  rcases bdd.write_full hout hle hwide with ⟨e, hwrite, hleft⟩
  refine ⟨e, ?_, hleft⟩
  rw [writeBlocks, if_pos hq, hwrite]
  rfl

theorem writePadding_full {out : List UInt8} {st : Progress φ} {r : Nat}
    (hout : bdd.Holds out st.file) (hle : out.length ≤ limit)
    (hfull : limit < out.length + r) :
    ∃ e, writePadding sink r st = .error e ∧
      bdd.Left ((out ++ bytesMul padding r).take limit) e := by
  have hr : (r : Int) > 0 := by omega
  have hlen := length_bytesMul_padding r
  have hwide : limit < out.length + (bytesMul padding r).length := by omega
  rcases bdd.write_full hout hle hwide with ⟨e, hwrite, hleft⟩
  refine ⟨e, ?_, hleft⟩
  rw [writePadding, if_pos hr, hwrite]
  rfl

theorem writeRest_full {out : List UInt8} {st : Progress φ} {r : Nat}
    (hout : bdd.Holds out st.file) (hle : out.length ≤ limit)
    (hfull : limit < out.length + r) :
    ∃ e, writeRest sink r st = .error e ∧ bdd.Left ((out ++ content r).take limit) e := by
  have hdiv := Nat.div_add_mod r 4096
  have hlen := length_bytesMul_block (r / 4096)
  rw [writeRest_natCast, content, ← List.append_assoc]
  by_cases hblocks : limit < out.length + 4096 * (r / 4096)
  · rcases writeBlocks_full bdd hout hle hblocks with ⟨e, hrun, hleft⟩
    refine ⟨e, by rw [hrun]; rfl, ?_⟩
    -- The padding is behind the point at which the file is full.
    rwa [List.take_append_of_le_length]
    rw [List.length_append]
    omega
  · -- The blocks still fit, so it is the padding that does not.
    rcases writeBlocks_spec bdd.toSequential hout (Nat.le_of_not_lt hblocks) with
      ⟨st₁, hrun₁, hout₁, _, _⟩
    have hle₁ : (out ++ bytesMul block (r / 4096 : Nat)).length ≤ limit := by
      rw [List.length_append]
      omega
    have hfull₁ : limit < (out ++ bytesMul block (r / 4096 : Nat)).length + r % 4096 := by
      rw [List.length_append]
      omega
    rcases writePadding_full bdd hout₁ hle₁ hfull₁ with ⟨e, hrun₂, hleft⟩
    refine ⟨e, ?_, hleft⟩
    rw [hrun₁]
    exact hrun₂

/-- A loop that is to write more than there is room for stops at the write that does not fit. -/
theorem writeLoop_full {n : Nat} (hn : limit < n) (j : Nat) (hj : 4096 * j ≤ limit)
    {st : Progress φ} (h : AtBlock bdd.toSequential j st) :
    ∃ e, writeLoop sink n st = .error e ∧ bdd.Left ((content n).take limit) e := by
  have hchunk : blocksPerChunk * 4096 = 1048576 := rfl
  -- Induction on the room that is left.
  induction hm : limit - 4096 * j using Nat.strong_induction_on generalizing j st with
  | h m ih =>
      have hwritten := h.written
      have hmore : st.written < n := by omega
      have hlen := length_bytesMul_block j
      rw [writeLoop, if_pos hmore]
      by_cases hlast : (n : Int) - st.written < blocksPerChunk * 4096
      · have hrest : (n : Int) - st.written = (n - 4096 * j : Nat) := by omega
        have hwide : limit < (bytesMul block j).length + (n - 4096 * j) := by omega
        rcases writeRest_full bdd h.holds (by omega) hwide with ⟨e, hrun, hleft⟩
        refine ⟨e, ?_, ?_⟩
        · simp only [hlast, ↓reduceIte]
          rw [hrest, hrun]
        · rwa [content_eq_append (show 4096 * j ≤ n by omega)]
      · by_cases hroom : 4096 * (j + 256) ≤ limit
        · rcases h.chunk bdd.toSequential hroom with ⟨file, hwrite, hnext⟩
          rcases ih (limit - 4096 * (j + 256)) (by omega) (j + 256) hroom hnext rfl with
            ⟨e, hrun, hleft⟩
          refine ⟨e, ?_, hleft⟩
          simp only [hlast, ↓reduceIte, hwrite]
          exact hrun
        · -- The chunk itself is too long.
          have hbytes : (bytesMul block blocksPerChunk).length = 4096 * 256 :=
            length_bytesMul_block 256
          have hwide : limit < (bytesMul block j).length +
              (bytesMul block blocksPerChunk).length := by omega
          rcases bdd.write_full h.holds (by omega) hwide with ⟨e, hwrite, hleft⟩
          refine ⟨e, ?_, ?_⟩
          · simp only [hlast, ↓reduceIte, hwrite]
            rfl
          · have hblocks : bytesMul block (j + 256 : Nat) =
                bytesMul block j ++ bytesMul block blocksPerChunk := bytesMul_add block j 256
            rw [content_eq_append (show 4096 * (j + 256) ≤ n by omega), hblocks,
              List.take_append_of_le_length]
            · exact hleft
            · rw [List.length_append]
              omega

/-- A run for which there is no room ends in an error, and the file is filled with the front of what
the run was to write. -/
theorem generate_full {n : Nat} (hn : limit < n) {file : φ} (hfile : bdd.Holds [] file) :
    ∃ e, generate sink file n = .error e ∧ bdd.Left ((content n).take limit) e := by
  have hstart : AtBlock bdd.toSequential 0 { file := file, written := 0, count := 0 } := by
    refine ⟨?_, rfl, rfl⟩
    simpa using hfile
  rcases writeLoop_full bdd hn 0 (Nat.zero_le _) hstart with ⟨e, hrun, hleft⟩
  refine ⟨e, ?_, hleft⟩
  rw [generate, hrun]
  rfl

end Full

/-! ## Regular files -/

/-- A regular file has room for every run. -/
def regularSequential (n : Nat) : Sequential regularFile n where
  Holds := fun out file => file = out
  write_holds := by
    intro out file data hout _
    exact ⟨file ++ data, rfl, by rw [hout]⟩

/-- Whatever the size, the script fills an empty regular file with exactly that many bytes, with an
`Alpha` at the end of every whole block and `x` everywhere else, and the count it prints is both the
number of whole blocks and the number of occurrences of `Alpha` in the file. -/
theorem generate_fills_regularFile (n : Nat) :
    ∃ (file : List UInt8) (report : Report), generate regularFile [] n = .ok (file, report) ∧
      file.length = n ∧ report.size = n ∧
      (∀ p < n, file[p]? =
        if p < 4096 * (n / 4096) ∧ 4091 ≤ p % 4096 then alpha[p % 4096 - 4091]? else some 0x78) ∧
      report.expectedCount = (n / 4096 : Nat) ∧
      report.expectedCount = (occ alpha file : Nat) := by
  have hempty : (regularSequential n).Holds [] [] := rfl
  rcases generate_spec (regularSequential n) le_rfl hempty with ⟨file, hrun, hfile⟩
  have hcontent : file = content n := hfile
  subst hcontent
  refine ⟨content n, _, hrun, length_content n, rfl, ?_, rfl, ?_⟩
  · intro p hp
    exact getElem?_content hp
  · rw [occ_content]

end Generate
end HelloEbpf
