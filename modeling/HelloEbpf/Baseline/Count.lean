import HelloEbpf.Baseline.Refinement

/-!
# Count — what the program prints

For the pattern of `baseline.c`, which has no border, the printed count is the number of positions of
the stream at which the pattern occurs, however `read()` cuts the stream (`main_counts_occurrences`).
For other values of the macros the count is a function of the stream exactly when the pattern has no
border (`scheduleIndependent_iff_borderFree`).
-/

namespace HelloEbpf
namespace Baseline

open CMemory Words

/-! ## Runs of `main` that reach the loop -/

/-- The program was given one file name, could open the file and read the clock. -/
structure Env.Ready (env : Env) : Prop where
  argc : env.argv.length = 2
  fd : 0 ≤ env.fd
  clock : env.startRes = 0

/-- The schedule delivers the stream `s` and then end of file. -/
structure Delivers (mac : Macros) (reads : Schedule) (s : List UInt8) : Prop where
  admissible : Admissible mac reads.pieces
  bytes : delivered reads.pieces = s
  last : reads.last = .eof

/-- The numbers printed behind `Count:`. -/
def Result.counts (r : Result) : List UInt64 :=
  r.stdout.filterMap fun
    | .count totalCount => some totalCount
    | .time _ _ => none

section Main

variable {chk : Checks} {mac : Macros} {env : Env} {st : LoopState mac}

/-- Past the arguments, the file and the first clock reading, the loop is what decides. -/
theorem main_of_ready (hready : env.Ready)
    (hrun : readLoop chk mac (start mac) env.reads.pieces = .ok st) :
    main chk mac env =
      if env.reads.last.bytesRead < 0 then
        .ok { stdout := [], stderr := [.perror "Read failed"], closed := true, status := 1 }
      else do
        cAssert (env.endRes = 0)
        return { stdout := [.count st.totalCount, .time env.start env.end]
                 stderr := []
                 closed := true
                 status := 0 } := by
  have hargc : ¬ env.argv.length ≠ 2 := by simp [hready.argc]
  have hfd : ¬ env.fd < 0 := by
    have hge := hready.fd
    omega
  have hstart : cAssert (env.startRes = 0) = .ok () := cAssert_of hready.clock
  simp only [main, hargc, hfd, hstart, hrun, ↓reduceIte]
  rfl

theorem main_of_eof (hready : env.Ready) (hend : env.endRes = 0)
    (hrun : readLoop chk mac (start mac) env.reads.pieces = .ok st)
    (hlast : env.reads.last = .eof) :
    ∃ r, main chk mac env = .ok r ∧ r.status = 0 ∧ r.counts = [st.totalCount] := by
  have hstop : cAssert (env.endRes = 0) = .ok () := cAssert_of hend
  have hread : ¬ env.reads.last.bytesRead < 0 := by simp [hlast, ReadEnd.bytesRead]
  refine ⟨{ stdout := [.count st.totalCount, .time env.start env.end], stderr := [],
            closed := true, status := 0 }, ?_, rfl, rfl⟩
  rw [main_of_ready hready hrun, if_neg hread, hstop]
  rfl

theorem main_of_error {n : Nat} (hready : env.Ready)
    (hrun : readLoop chk mac (start mac) env.reads.pieces = .ok st)
    (hlast : env.reads.last = .error n) :
    ∃ r, main chk mac env = .ok r ∧ r.status = 1 ∧ r.counts = [] := by
  have hread : env.reads.last.bytesRead < 0 := by
    simp only [hlast, ReadEnd.bytesRead]
    exact Int.negSucc_lt_zero n
  refine ⟨{ stdout := [], stderr := [.perror "Read failed"], closed := true, status := 1 },
    ?_, rfl, rfl⟩
  exact (main_of_ready hready hrun).trans (if_pos hread)

end Main

/-! ## The pattern of `baseline.c` -/

theorem borderFree_alpha : BorderFree alpha := by decide

/-- At every loop head `total_count` is the number of occurrences in the consumed bytes. -/
theorem readLoop_count {mac : Macros} (hfree : BorderFree mac.pattern) {pieces : List Piece}
    (h : Admissible mac pieces) :
    ∃ st, readLoop Checks.flat mac (start mac) pieces = .ok st ∧
      st.totalCount = UInt64.ofNat (occ mac.pattern (delivered pieces)) := by
  rcases readLoop_refines h with ⟨st, hrun, href⟩
  refine ⟨st, hrun, ?_⟩
  rw [href.count, counter, Window.run_count_of_borderFree mac.pattern_ne_nil hfree, delivered]

/-- Up to `2 ^ 63` bytes the 64-bit counter does not wrap. -/
theorem toNat_ofNat_occ {p s : List UInt8} (hlen : s.length < 2 ^ 63) :
    (UInt64.ofNat (occ p s)).toNat = occ p s := by
  have hle := occ_le_length p s
  rw [UInt64.toNat_ofNat']
  exact Nat.mod_eq_of_lt (by omega)

/-- The printed count of a run that reads the stream to its end. -/
theorem main_counts {env : Env} {s : List UInt8} (hready : env.Ready) (hend : env.endRes = 0)
    (hreads : Delivers macros env.reads s) :
    ∃ r, main Checks.flat macros env = .ok r ∧ r.status = 0 ∧
      r.counts = [UInt64.ofNat (occ alpha s)] := by
  rcases readLoop_count borderFree_alpha hreads.admissible with ⟨st, hrun, hcount⟩
  rcases main_of_eof hready hend hrun hreads.last with ⟨r, hmain, hstatus, hcounts⟩
  refine ⟨r, hmain, hstatus, ?_⟩
  rw [hcounts, hcount, hreads.bytes]
  rfl

/-- The program prints the number of occurrences in the stream, whatever `read()` makes of it, and
nothing but an error when a `read()` fails. -/
theorem main_counts_occurrences :
    (∀ (env : Env) (s : List UInt8), s.length < 2 ^ 63 → env.Ready → env.endRes = 0 →
      Delivers macros env.reads s →
        ∃ r n, main Checks.flat macros env = .ok r ∧ r.status = 0 ∧ r.counts = [n] ∧
          n.toNat = occ alpha s) ∧
    (∀ (env₁ env₂ : Env) (s : List UInt8), s.length < 2 ^ 63 → env₁.Ready → env₂.Ready →
      env₁.endRes = 0 → env₂.endRes = 0 →
      Delivers macros env₁.reads s → Delivers macros env₂.reads s →
        ∃ r₁ r₂, main Checks.flat macros env₁ = .ok r₁ ∧ main Checks.flat macros env₂ = .ok r₂ ∧
          r₁.counts = r₂.counts) ∧
    (∀ (env : Env) (n : Nat), env.Ready → Admissible macros env.reads.pieces →
      env.reads.last = .error n →
        ∃ r, main Checks.flat macros env = .ok r ∧ r.status = 1 ∧ r.counts = []) := by
  refine ⟨?_, ?_, ?_⟩
  · intro env s hlen hready hend hreads
    rcases main_counts hready hend hreads with ⟨r, hmain, hstatus, hcounts⟩
    exact ⟨r, UInt64.ofNat (occ alpha s), hmain, hstatus, hcounts, toNat_ofNat_occ hlen⟩
  · intro env₁ env₂ s _ hready₁ hready₂ hend₁ hend₂ hreads₁ hreads₂
    rcases main_counts hready₁ hend₁ hreads₁ with ⟨r₁, hmain₁, _, hcounts₁⟩
    rcases main_counts hready₂ hend₂ hreads₂ with ⟨r₂, hmain₂, _, hcounts₂⟩
    exact ⟨r₁, r₂, hmain₁, hmain₂, hcounts₁.trans hcounts₂.symm⟩
  · intro env n hready hadm hlast
    rcases readLoop_refines hadm with ⟨st, hrun, _⟩
    exact main_of_error hready hrun hlast

/-- `test_simple_count`, with the file delivered in three reads that cut two copies. -/
theorem main_counts_occurrences_test :
    ∃ r n, main Checks.flat macros
        { argv := ["benchmarks/baseline", "test_data.txt"], fd := 3
          startRes := 0, start := ⟨0, 0⟩
          reads :=
            { pieces := [⟨"Al".toUTF8.toList, by decide +kernel⟩,
                ⟨"pha beta Alpha\nNo match here.\nAlph".toUTF8.toList, by decide +kernel⟩,
                ⟨"aAlpha".toUTF8.toList, by decide +kernel⟩]
              last := .eof }
          endRes := 0, «end» := ⟨0, 0⟩ } = .ok r ∧
      r.status = 0 ∧ r.counts = [n] ∧ n.toNat = 4 := by
  have hocc : occ alpha "Alpha beta Alpha\nNo match here.\nAlphaAlpha".toUTF8.toList = 4 := by
    decide +kernel
  rw [← hocc]
  refine main_counts_occurrences.1 _ _ (by decide +kernel) ⟨rfl, by decide +kernel, rfl⟩ rfl
    ⟨?_, by decide +kernel, rfl⟩
  exact admissible_cons (by decide +kernel) (by decide +kernel)

/-! ## Other macros -/

/-- Whatever the pattern, nothing is counted that is not in the stream. -/
theorem readLoop_count_le {mac : Macros} {pieces : List Piece} (h : Admissible mac pieces) :
    ∃ st k, readLoop Checks.flat mac (start mac) pieces = .ok st ∧
      st.totalCount = UInt64.ofNat k ∧ k ≤ occ mac.pattern (delivered pieces) := by
  rcases readLoop_refines h with ⟨st, hrun, href⟩
  refine ⟨st, (counter mac pieces).count, hrun, href.count, ?_⟩
  exact Window.run_count_le_occ mac.pattern_ne_nil _

/-- All schedules of a stream end with the same `total_count`. -/
def ScheduleIndependent (mac : Macros) : Prop :=
  ∀ (s : List UInt8) (reads₁ reads₂ : Schedule), Delivers mac reads₁ s → Delivers mac reads₂ s →
    ∃ st₁ st₂, readLoop Checks.flat mac (start mac) reads₁.pieces = .ok st₁ ∧
      readLoop Checks.flat mac (start mac) reads₂.pieces = .ok st₂ ∧
      st₁.totalCount = st₂.totalCount

theorem scheduleIndependent_of_borderFree {mac : Macros} (hfree : BorderFree mac.pattern) :
    ScheduleIndependent mac := by
  intro s reads₁ reads₂ h₁ h₂
  rcases readLoop_count hfree h₁.admissible with ⟨st₁, hrun₁, hcount₁⟩
  rcases readLoop_count hfree h₂.admissible with ⟨st₂, hrun₂, hcount₂⟩
  refine ⟨st₁, st₂, hrun₁, hrun₂, ?_⟩
  rw [hcount₁, hcount₂, h₁.bytes, h₂.bytes]

/-- Two overlapping copies of a pattern with a border: read at once, the scan steps over the second
copy; cut behind the first, the overlap brings the second copy back. -/
theorem exists_schedules_of_border {mac : Macros} {u : List UInt8} (hu : IsBorder u mac.pattern) :
    ∃ s reads₁ reads₂ st₁ st₂, Delivers mac reads₁ s ∧ Delivers mac reads₂ s ∧
      readLoop Checks.flat mac (start mac) reads₁.pieces = .ok st₁ ∧
      readLoop Checks.flat mac (start mac) reads₂.pieces = .ok st₂ ∧
      st₁.totalCount = 1 ∧ st₂.totalCount = 2 := by
  have hpos := hu.length_pos
  have hlt := hu.length_lt
  have hlen := mac.patternLenBytes_eq
  have hroom := mac.chunkSizeBytes_ge
  have htext := hu.length_append_drop
  have hrest : (mac.pattern.drop u.length).length = mac.pattern.length - u.length :=
    List.length_drop
  -- The same text in one piece, and cut behind the first copy.
  let whole : Piece := ⟨mac.pattern ++ mac.pattern.drop u.length,
    List.length_pos_iff.1 (by omega)⟩
  let first : Piece := ⟨mac.pattern, mac.pattern_ne_nil⟩
  let second : Piece := ⟨mac.pattern.drop u.length, List.length_pos_iff.1 (by omega)⟩
  have hwhole : Admissible mac [whole] := by
    refine admissible_cons ?_ (by simp)
    show (mac.pattern ++ mac.pattern.drop u.length).length ≤ mac.chunkSizeBytes
    omega
  have hcut : Admissible mac [first, second] := by
    refine admissible_cons ?_ ?_
    · show mac.pattern.length ≤ mac.chunkSizeBytes
      omega
    · intro later hlater
      have hsecond : later = second := by simpa using hlater
      subst hsecond
      show (mac.pattern.drop u.length).length ≤ mac.chunkSizeBytes - (mac.patternLenBytes - 1)
      omega
  rcases readLoop_refines hwhole with ⟨st₁, hrun₁, href₁⟩
  rcases readLoop_refines hcut with ⟨st₂, hrun₂, href₂⟩
  have hone : (counter mac [whole]).count = 1 := Window.run_whole_count hu
  have htwo : (counter mac [first, second]).count = 2 := Window.run_cut_count hu
  refine ⟨mac.pattern ++ mac.pattern.drop u.length,
    { pieces := [whole], last := .eof }, { pieces := [first, second], last := .eof }, st₁, st₂,
    ⟨hwhole, by simp [delivered, whole], rfl⟩, ⟨hcut, by simp [delivered, first, second], rfl⟩,
    hrun₁, hrun₂, ?_, ?_⟩
  · rw [href₁.count, hone]
    rfl
  · rw [href₂.count, htwo]
    rfl

/-- The count is a function of the stream alone exactly for the patterns without a border. -/
theorem scheduleIndependent_iff_borderFree (mac : Macros) :
    (ScheduleIndependent mac ↔ BorderFree mac.pattern) ∧
    (∀ u, IsBorder u mac.pattern →
      ∃ s reads₁ reads₂ st₁ st₂, Delivers mac reads₁ s ∧ Delivers mac reads₂ s ∧
        readLoop Checks.flat mac (start mac) reads₁.pieces = .ok st₁ ∧
        readLoop Checks.flat mac (start mac) reads₂.pieces = .ok st₂ ∧
        st₁.totalCount ≠ st₂.totalCount) := by
  have hborder : ∀ u, IsBorder u mac.pattern →
      ∃ s reads₁ reads₂ st₁ st₂, Delivers mac reads₁ s ∧ Delivers mac reads₂ s ∧
        readLoop Checks.flat mac (start mac) reads₁.pieces = .ok st₁ ∧
        readLoop Checks.flat mac (start mac) reads₂.pieces = .ok st₂ ∧
        st₁.totalCount ≠ st₂.totalCount := by
    intro u hu
    rcases exists_schedules_of_border hu with
      ⟨s, reads₁, reads₂, st₁, st₂, h₁, h₂, hrun₁, hrun₂, hone, htwo⟩
    refine ⟨s, reads₁, reads₂, st₁, st₂, h₁, h₂, hrun₁, hrun₂, ?_⟩
    rw [hone, htwo]
    decide
  refine ⟨⟨?_, scheduleIndependent_of_borderFree⟩, hborder⟩
  -- A border would give two schedules of one stream that end differently.
  intro hind u hu
  rcases hborder u hu with ⟨s, reads₁, reads₂, st₁, st₂, h₁, h₂, hrun₁, hrun₂, hne⟩
  rcases hind s reads₁ reads₂ h₁ h₂ with ⟨st₁', st₂', hrun₁', hrun₂', heq⟩
  cases hrun₁.symm.trans hrun₁'
  cases hrun₂.symm.trans hrun₂'
  exact hne heq

end Baseline
end HelloEbpf
