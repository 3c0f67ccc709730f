import HelloEbpf.Baseline.Range

/-!
# Exit — how a run of the program ends

Whatever the operating system does, as long as `read()` returns no more than it was asked for, the
loop itself never stops the program: the only `assert` that can fail is one about the clock
(`main_fails_iff`).  A run that returns has closed the file it opened, and has printed either a count
within the bounds of `Range` or a message, as its exit status tells (`main_returns`).
-/

namespace HelloEbpf
namespace Baseline

open CMemory Words

variable {mac : Macros} {env : Env} {r : Result} {fault : Fault}

/-- The branches of `main`, in the order of the source. -/
theorem main_cases (hadm : Admissible mac env.reads.pieces) :
    (env.argv.length ≠ 2 ∧ main Checks.flat mac env =
      .ok { stdout := [], stderr := [.usage env.argv.head?], closed := false, status := 1 }) ∨
    (env.argv.length = 2 ∧ env.fd < 0 ∧ main Checks.flat mac env =
      .ok { stdout := [], stderr := [.perror "Error opening file"], closed := false,
            status := 1 }) ∨
    (env.argv.length = 2 ∧ 0 ≤ env.fd ∧ env.startRes ≠ 0 ∧
      main Checks.flat mac env = .error .assertion) ∨
    (env.Ready ∧ (∃ n, env.reads.last = .error n) ∧ main Checks.flat mac env =
      .ok { stdout := [], stderr := [.perror "Read failed"], closed := true, status := 1 }) ∨
    (env.Ready ∧ env.reads.last = .eof ∧ env.endRes ≠ 0 ∧
      main Checks.flat mac env = .error .assertion) ∨
    (env.Ready ∧ env.reads.last = .eof ∧ env.endRes = 0 ∧ ∃ st,
      readLoop Checks.flat mac (start mac) env.reads.pieces = .ok st ∧ main Checks.flat mac env =
      .ok { stdout := [.count st.totalCount, .time env.start env.end], stderr := [],
            closed := true, status := 0 }) := by
  by_cases hargc : env.argv.length = 2
  · by_cases hfd : env.fd < 0
    · refine Or.inr (Or.inl ⟨hargc, hfd, ?_⟩)
      simp only [main, hargc, hfd, ne_eq, not_true_eq_false, ↓reduceIte]
      rfl
    · have hge : 0 ≤ env.fd := Int.not_lt.1 hfd
      by_cases hclock : env.startRes = 0
      · have hready : env.Ready := ⟨hargc, hge, hclock⟩
        rcases readLoop_refines hadm with ⟨st, hrun, _⟩
        rw [main_of_ready hready hrun]
        cases hlast : env.reads.last with
        | error n =>
            have hneg : (ReadEnd.error n).bytesRead < 0 := Int.negSucc_lt_zero n
            rw [if_pos hneg]
            exact Or.inr (Or.inr (Or.inr (Or.inl ⟨hready, ⟨n, rfl⟩, rfl⟩)))
        | eof =>
            have hzero : ¬ ReadEnd.eof.bytesRead < 0 := by decide
            rw [if_neg hzero]
            by_cases hend : env.endRes = 0
            · rw [cAssert_of hend]
              exact Or.inr (Or.inr (Or.inr (Or.inr (Or.inr
                ⟨hready, rfl, hend, st, hrun, rfl⟩))))
            · have hstop : cAssert (env.endRes = 0) = .error .assertion := if_neg hend
              rw [hstop]
              exact Or.inr (Or.inr (Or.inr (Or.inr (Or.inl ⟨hready, rfl, hend, rfl⟩))))
      · have hstop : cAssert (env.startRes = 0) = .error .assertion := if_neg hclock
        refine Or.inr (Or.inr (Or.inl ⟨hargc, hge, hclock, ?_⟩))
        simp only [main, hargc, hfd, hstop, ne_eq, not_true_eq_false, ↓reduceIte]
        rfl
  · refine Or.inl ⟨hargc, ?_⟩
    simp only [main, ne_eq, hargc, not_false_eq_true, ↓reduceIte]
    rfl

/-- The program is stopped only by a clock that cannot be read: before the loop, or behind it when the
stream has been read to its end. -/
theorem main_fails_iff (mac : Macros) (env : Env) (hadm : Admissible mac env.reads.pieces)
    (fault : Fault) :
    main Checks.flat mac env = .error fault ↔
      fault = .assertion ∧ env.argv.length = 2 ∧ 0 ≤ env.fd ∧
        (env.startRes ≠ 0 ∨ env.reads.last = .eof ∧ env.endRes ≠ 0) := by
  rcases main_cases hadm with ⟨hargc, hmain⟩ | ⟨hargc, hfd, hmain⟩ | ⟨hargc, hfd, hclock, hmain⟩ |
    ⟨hready, ⟨n, hlast⟩, hmain⟩ | ⟨hready, hlast, hend, hmain⟩ | ⟨hready, hlast, hend, st, _, hmain⟩
  · simp [hmain, hargc]
  · simp [hmain, hfd]
  · simp [hmain, hargc, hfd, hclock, eq_comm]
  · simp [hmain, hlast, hready.clock]
  · simp [hmain, hlast, hend, hready.argc, hready.fd, eq_comm]
  · simp [hmain, hend, hready.clock]

/-- A run whose reads fail after two bytes. -/
def failing (startRes : Int) : Env :=
  { argv := ["benchmarks/baseline", "test_data.txt"]
    fd := 3
    startRes := startRes
    start := ⟨0, 0⟩
    reads := { pieces := [⟨[0x41, 0x6c], by decide⟩], last := .error 0 }
    endRes := 0
    «end» := ⟨0, 0⟩ }

theorem admissible_failing (startRes : Int) : Admissible macros (failing startRes).reads.pieces :=
  admissible_cons (by decide) (by simp)

theorem main_fails_iff_clock : main Checks.flat macros (failing (-1)) = .error .assertion :=
  (main_fails_iff macros (failing (-1)) (admissible_failing (-1)) .assertion).2
    ⟨rfl, rfl, by decide, Or.inl (by decide)⟩

/-- A run that returns has exit status 0 or 1.  With 0 nothing has gone wrong and it has printed one
count, which is between the disjoint copies and the occurrences in the whole stream; with 1 something
has, and it has printed a message in place of a count.  It has closed the file if it could open one. -/
theorem main_returns (mac : Macros) (env : Env) (hadm : Admissible mac env.reads.pieces)
    (hlen : (delivered env.reads.pieces).length < 2 ^ 64) (r : Result)
    (hmain : main Checks.flat mac env = .ok r) :
    (r.closed = true ↔ env.argv.length = 2 ∧ 0 ≤ env.fd) ∧
      (r.status = 0 ∧ (env.Ready ∧ env.reads.last = .eof ∧ env.endRes = 0) ∧ r.stderr = [] ∧
          (∃ n, r.counts = [n] ∧
            (∀ A, IsPacking mac.pattern (delivered env.reads.pieces) A → A.card ≤ n.toNat) ∧
            n.toNat ≤ occ mac.pattern (delivered env.reads.pieces)) ∨
        r.status = 1 ∧ ¬ (env.Ready ∧ env.reads.last = .eof ∧ env.endRes = 0) ∧ r.stdout = [] ∧
          ∃ message, r.stderr = [message]) := by
  rcases main_cases hadm with ⟨hargc, hout⟩ | ⟨hargc, hfd, hout⟩ | ⟨_, _, _, hout⟩ |
    ⟨hready, ⟨n, hlast⟩, hout⟩ | ⟨_, _, _, hout⟩ | ⟨hready, hlast, hend, st, hrun, hout⟩
  · cases hout.symm.trans hmain
    have hnot : ¬ env.Ready := fun hready => hargc hready.argc
    simp [hargc, hnot]
  · cases hout.symm.trans hmain
    have hnot : ¬ env.Ready := fun hready => Int.not_lt.2 hready.fd hfd
    simp [hfd, hnot]
  · cases hout.symm.trans hmain
  · cases hout.symm.trans hmain
    simp [hlast, hready.argc, hready.fd]
  · cases hout.symm.trans hmain
  · cases hout.symm.trans hmain
    refine ⟨by simp [hready.argc, hready.fd], .inl ⟨rfl, ⟨hready, hlast, hend⟩, rfl, ?_⟩⟩
    -- The state behind the loop is the one whose count has the bounds.
    rcases readLoop_toNat hadm hlen with ⟨st', hrun', hcount⟩
    cases hrun.symm.trans hrun'
    refine ⟨st.totalCount, rfl, fun A hA => ?_, ?_⟩
    · rw [hcount]
      exact packing_le_counter hA
    · rw [hcount]
      exact counter_le_occ mac _

/-- A run over three letters that come at once. -/
def readingAAA : Env :=
  { argv := ["benchmarks/baseline", "test_data.txt"]
    fd := 3
    startRes := 0
    start := ⟨0, 0⟩
    reads := { pieces := [pieceAAA], last := .eof }
    endRes := 0
    «end» := ⟨0, 0⟩ }

theorem main_returns_aaa :
    ∃ r n, main Checks.flat macrosAA readingAAA = .ok r ∧ r.status = 0 ∧ r.counts = [n] ∧
      1 ≤ n.toNat ∧ n.toNat ≤ 2 := by
  have hready : readingAAA.Ready := ⟨rfl, by decide, rfl⟩
  rcases readLoop_refines admissible_pieceAAA with ⟨st, hrun, _⟩
  rcases main_of_eof hready rfl hrun rfl with ⟨r, hmain, hstatus, _⟩
  rcases main_returns macrosAA readingAAA admissible_pieceAAA (by decide) r hmain with
    ⟨_, ⟨_, _, _, n, hcounts, hpacking, hocc⟩ | ⟨_, hnot, _⟩⟩
  · have hfirst : IsPacking macrosAA.pattern (delivered readingAAA.reads.pieces) {0} :=
      ⟨by decide, by decide⟩
    exact ⟨r, n, hmain, hstatus, hcounts, hpacking {0} hfirst, hocc⟩
  · exact absurd ⟨hready, rfl, rfl⟩ hnot

end Baseline
end HelloEbpf
