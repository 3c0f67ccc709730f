import HelloEbpf.Generate.History
import HelloEbpf.Workflow

/-!
# History — counting on a device with a past

The script promises the count of what it writes, and the program counts what is there.  On a device on
which the script has run any number of times before, what is there depends on all of these runs:
`history_counts` says what the program prints, and `history_verifies_iff` when the last run's promise
is kept.  It is when the last run is the longest, on a device that held no copy at first
(`longest_verifies`).
-/

namespace HelloEbpf
namespace Workflow

open Baseline CMemory Words
open Generate (Report Device content generate generateAll overwrite survives survivors untouched)
open Generate (occursAt_history)

variable {capacity : Nat}

/-- What the program prints behind any number of runs: a count of the blocks that have survived, and
of the old copies behind the longest run. -/
theorem history_counts (prior : Buffer capacity) (sizes : List Nat) (env : Env) (hready : env.Ready)
    (hend : env.endRes = 0) (hreads : Delivers macros env.reads (generateAll sizes prior).bytes) :
    ∃ r, main Checks.flat macros env = .ok r ∧
      r.counts = [UInt64.ofNat
        ((survivors capacity sizes).card + (untouched prior.bytes sizes).card)] := by
  rcases main_counts hready hend hreads with ⟨r, hmain, _, hcounts⟩
  refine ⟨r, hmain, ?_⟩
  rw [hcounts, alpha_eq, Generate.bytes_generateAll, Generate.occ_history, prior.length_bytes]

/-- Three runs: the first is too long for the device, which it fills, the second stops inside the last
word, and the third is shorter.  One block is left. -/
theorem history_counts_three :
    ∃ (hne : (generateAll [9000, 8188, 4096] (Buffer.zero 8192)).bytes ≠ []) (r : Result),
      main Checks.flat macros (undisturbed "/dev/nvme0n1" (oneRead _ hne)) = .ok r ∧
        r.counts = [1] := by
  have hlen := (generateAll [9000, 8188, 4096] (Buffer.zero 8192)).length_bytes
  have hne : (generateAll [9000, 8188, 4096] (Buffer.zero 8192)).bytes ≠ [] :=
    List.ne_nil_of_length_pos (by omega)
  rcases history_counts (Buffer.zero 8192) [9000, 8188, 4096] _
    (undisturbed_ready "/dev/nvme0n1" _) rfl (oneRead_delivers hne (by omega)) with
    ⟨r, hmain, hcount⟩
  refine ⟨hne, r, hmain, ?_⟩
  have hblocks : (survivors 8192 [9000, 8188, 4096]).card = 1 := by decide
  have hold : untouched (Buffer.zero 8192).bytes [9000, 8188, 4096] = ∅ := by
    rw [untouched, Finset.filter_eq_empty_iff]
    rintro i hi ⟨hbehind, _⟩
    have hlt := Finset.mem_range.1 hi
    have hge := hbehind 9000 (by simp)
    rw [(Buffer.zero 8192).length_bytes] at hlt
    omega
  rw [hcount, hblocks, hold]
  rfl

/-- No copy lies behind the run: none that has survived the runs before it, and no old one. -/
def Hidden (prior : List UInt8) (sizes : List Nat) (n : Nat) : Prop :=
  (∀ b, 4096 * (b + 1) ≤ prior.length → survives b sizes = true → 4096 * b + 4091 < n) ∧
    ∀ i, OccursAt alpha prior i → (∀ m ∈ sizes, m ≤ i) → i < n

theorem hidden_iff {prior : List UInt8} {sizes : List Nat} {n : Nat} :
    Hidden prior sizes n ↔ occ alpha ((sizes.foldl overwrite prior).drop n) = 0 := by
  rw [Hidden, alpha_eq, occ_eq_zero_iff (by decide)]
  constructor
  · rintro ⟨hblocks, hold⟩ i hocc
    rw [occursAt_drop, occursAt_history] at hocc
    rcases hocc with ⟨b, hi, hs, hb⟩ | ⟨hbehind, hocc⟩
    · have hlt := hblocks b hs hb
      omega
    · have hlt := hold (n + i) hocc hbehind
      omega
  · intro hnone
    have hfree : ∀ i, n ≤ i → ¬ OccursAt Generate.alpha (sizes.foldl overwrite prior) i := by
      intro i hle hocc
      have hi : i = n + (i - n) := by omega
      rw [hi, ← occursAt_drop] at hocc
      exact hnone (i - n) hocc
    constructor
    · intro b hs hb
      by_contra hle
      exact hfree _ (by omega) (occursAt_history.2 (Or.inl ⟨b, rfl, hs, hb⟩))
    · intro i hocc hbehind
      by_contra hle
      exact hfree i (by omega) (occursAt_history.2 (Or.inr ⟨hbehind, hocc⟩))

/-- A run behind a history, and what the program makes of it. -/
theorem last_run {prior : Buffer capacity} (sizes : List Nat) {n : Nat} (hn : n ≤ capacity)
    (hcapacity : capacity < 2 ^ 63) :
    ∃ dev report,
      generate (Device.sink capacity) (Device.openWb (generateAll sizes prior)) n =
        .ok (dev, report) ∧
      ∀ env : Env, env.Ready → env.endRes = 0 → Delivers macros env.reads dev.content.bytes →
        ∃ r, main Checks.flat macros env = .ok r ∧
          (Verifies report r ↔ Hidden prior.bytes sizes n) := by
  rcases Generate.generate_device (generateAll sizes prior) hn with ⟨dev, hrun, hbytes⟩
  refine ⟨dev, _, hrun, ?_⟩
  intro env hready hend hreads
  rw [hbytes] at hreads
  rcases main_counts_content_append hready hend hreads with ⟨r, hmain, hcounts⟩
  refine ⟨r, hmain, ?_⟩
  -- the counter has 64 bits: it may wrap only behind more copies than the device has bytes
  have hle : occ alpha ((generateAll sizes prior).bytes.drop n) ≤ capacity - n := by
    have hlen := occ_le_length alpha ((generateAll sizes prior).bytes.drop n)
    rwa [List.length_drop, (generateAll sizes prior).length_bytes] at hlen
  rw [verifies_iff hcounts, hidden_iff, ← Generate.bytes_generateAll]
  omega

/-- The promise of the last run is kept exactly when the runs before it and the device's own past have
left no copy behind it. -/
theorem history_verifies_iff (prior : Buffer capacity) (sizes : List Nat) (n : Nat)
    (hn : n ≤ capacity) (hcapacity : capacity < 2 ^ 63) :
    ∃ dev report,
      generate (Device.sink capacity) (Device.openWb (generateAll sizes prior)) n =
        .ok (dev, report) ∧
      ∀ env : Env, env.Ready → env.endRes = 0 → Delivers macros env.reads dev.content.bytes →
        ∃ r, main Checks.flat macros env = .ok r ∧
          (Verifies report r ↔
            (∀ b, 4096 * (b + 1) ≤ capacity → survives b sizes = true → 4096 * b + 4091 < n) ∧
              ∀ i, OccursAt alpha prior.bytes i → (∀ m ∈ sizes, m ≤ i) → i < n) := by
  rcases last_run sizes hn hcapacity with ⟨dev, report, hrun, hverify⟩
  refine ⟨dev, report, hrun, ?_⟩
  intro env hready hend hreads
  rcases hverify env hready hend hreads with ⟨r, hmain, hiff⟩
  rw [Hidden, prior.length_bytes] at hiff
  exact ⟨r, hmain, hiff⟩

/-- A second run over half a device that held nothing, and that the first one has filled: the copy at
the end of the last block is still there. -/
theorem history_verifies_iff_half :
    ∃ (dev : Device 8192) (hne : dev.content.bytes ≠ []) (report : Report) (r : Result),
      main Checks.flat macros (undisturbed "/dev/nvme0n1" (oneRead dev.content.bytes hne)) =
        .ok r ∧ ¬ Verifies report r := by
  rcases history_verifies_iff (Buffer.zero 8192) [9000] 4096 (by decide) (by decide) with
    ⟨dev, report, _, hverify⟩
  have hlen : dev.content.bytes.length = 8192 := dev.content.length_bytes
  have hne : dev.content.bytes ≠ [] := List.ne_nil_of_length_pos (by omega)
  have hreads : Delivers macros (oneRead dev.content.bytes hne) dev.content.bytes :=
    oneRead_delivers hne (by omega)
  rcases hverify _ (undisturbed_ready "/dev/nvme0n1" _) rfl hreads with ⟨r, hmain, hiff⟩
  refine ⟨dev, hne, report, r, hmain, ?_⟩
  rw [hiff]
  rintro ⟨hblocks, _⟩
  have hlate := hblocks 1 (by decide) (by decide)
  omega

/-- On a device that held no copy, a run verifies that is at least as long as every run before it. -/
theorem longest_verifies (prior : Buffer capacity) (sizes : List Nat) (n : Nat)
    (hblank : ∀ i, ¬ OccursAt alpha prior.bytes i) (hlongest : ∀ m ∈ sizes, m ≤ n)
    (hn : n ≤ capacity) (hcapacity : capacity < 2 ^ 63) :
    ∃ dev report,
      generate (Device.sink capacity) (Device.openWb (generateAll sizes prior)) n =
        .ok (dev, report) ∧
      ∀ env : Env, env.Ready → env.endRes = 0 → Delivers macros env.reads dev.content.bytes →
        ∃ r, main Checks.flat macros env = .ok r ∧ Verifies report r := by
  rcases last_run sizes hn hcapacity with ⟨dev, report, hrun, hverify⟩
  refine ⟨dev, report, hrun, ?_⟩
  intro env hready hend hreads
  rcases hverify env hready hend hreads with ⟨r, hmain, hiff⟩
  refine ⟨r, hmain, hiff.2 ⟨?_, fun i hocc => absurd hocc (hblank i)⟩⟩
  intro b _ hb
  -- A copy that is there was written by a run that is not longer than this one.
  rcases Generate.exists_of_survives hb with ⟨m, hm, hle⟩
  have hmn := hlongest m hm
  omega

theorem not_occursAt_zero (capacity i : Nat) : ¬ OccursAt alpha (Buffer.zero capacity).bytes i := by
  intro hocc
  have hmem : (0x41 : UInt8) ∈ (Buffer.zero capacity).bytes := by
    apply List.mem_of_mem_drop
    exact hocc.subset (by decide)
  have hzero : (Buffer.zero capacity).bytes = List.replicate capacity 0 := rfl
  rw [hzero] at hmem
  exact absurd (List.eq_of_mem_replicate hmem) (by decide)

theorem longest_verifies_growing :
    ∃ (dev : Device 8192) (hne : dev.content.bytes ≠ []) (report : Report) (r : Result),
      main Checks.flat macros (undisturbed "/dev/nvme0n1" (oneRead dev.content.bytes hne)) =
        .ok r ∧ Verifies report r := by
  rcases longest_verifies (Buffer.zero 8192) [4096] 8192 (not_occursAt_zero 8192) (by decide)
    (by decide) (by decide) with ⟨dev, report, _, hverify⟩
  have hlen : dev.content.bytes.length = 8192 := dev.content.length_bytes
  have hne : dev.content.bytes ≠ [] := List.ne_nil_of_length_pos (by omega)
  have hreads : Delivers macros (oneRead dev.content.bytes hne) dev.content.bytes :=
    oneRead_delivers hne (by omega)
  rcases hverify _ (undisturbed_ready "/dev/nvme0n1" _) rfl hreads with ⟨r, hmain, hverifies⟩
  exact ⟨dev, hne, report, r, hmain, hverifies⟩

end Workflow
end HelloEbpf
