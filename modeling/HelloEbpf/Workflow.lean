import HelloEbpf.Baseline.Count
import HelloEbpf.Generate.Device

/-!
# Workflow — generate the data, then count it

The two steps of the benchmark: the script fills a file or a device and prints the count to expect,
then the program reads the same path to its end and prints what it found.  The script knows the bytes
it writes; the program reads on to the end of the device.  So the two numbers agree when nothing
stands behind the script's bytes (`regularFile_verifies`), and on a device when the bytes that were
left alone hold no `Alpha` (`device_verifies_iff`).
-/

namespace HelloEbpf
namespace Workflow

open Baseline CMemory Words
open Generate (Report Device content generate)

/-- The program looks for the word that the script writes. -/
theorem alpha_eq : Baseline.alpha = Generate.alpha :=
  rfl

/-- The `Count` of the run is the one the script told to expect. -/
def Verifies (report : Report) (r : Result) : Prop :=
  ∃ count, r.counts = [count] ∧ (count.toNat : Int) = report.expectedCount

/-- What the program prints when it reads the script's bytes and then `rest`. -/
theorem main_counts_content_append {env : Env} {n : Nat} {rest : List UInt8} (hready : env.Ready)
    (hend : env.endRes = 0) (hreads : Delivers macros env.reads (content n ++ rest)) :
    ∃ r, main Checks.flat macros env = .ok r ∧
      r.counts = [UInt64.ofNat (n / 4096 + occ alpha rest)] := by
  rcases main_counts hready hend hreads with ⟨r, hmain, _, hcounts⟩
  rw [alpha_eq, Generate.occ_content_append] at hcounts
  exact ⟨r, hmain, hcounts⟩

/-- A 64-bit count that is too large by `extra` still shows `expected` after whole wraps only. -/
theorem toNat_ofNat_add_eq_iff (expected extra : Nat) :
    (UInt64.ofNat (expected + extra)).toNat = expected ↔
      expected < 2 ^ 64 ∧ 2 ^ 64 ∣ extra := by
  rw [UInt64.toNat_ofNat']
  omega

theorem verifies_iff {n extra : Nat} {r : Result}
    (hcounts : r.counts = [UInt64.ofNat (n / 4096 + extra)]) :
    Verifies { size := n, expectedCount := (n / 4096 : Nat) } r ↔
      n / 4096 < 2 ^ 64 ∧ 2 ^ 64 ∣ extra := by
  rw [← toNat_ofNat_add_eq_iff]
  constructor
  · rintro ⟨count, hcount, hexpected⟩
    cases hcounts.symm.trans hcount
    exact Int.ofNat.inj hexpected
  · intro hsame
    exact ⟨_, hcounts, congrArg Int.ofNat hsame⟩

/-- On a regular file the benchmark verifies itself. -/
theorem regularFile_verifies {n : Nat} (hn : n < 2 ^ 63) :
    ∃ file report, generate Generate.regularFile [] n = .ok (file, report) ∧
      ∀ env : Env, env.Ready → env.endRes = 0 → Delivers macros env.reads file →
        ∃ r, main Checks.flat macros env = .ok r ∧ Verifies report r := by
  have hempty : (Generate.regularSequential n).Holds [] [] := rfl
  rcases Generate.generate_spec (Generate.regularSequential n) le_rfl hempty with
    ⟨file, hrun, hfile⟩
  have hcontent : file = content n ++ [] := by
    rw [List.append_nil]
    exact hfile
  refine ⟨file, _, hrun, ?_⟩
  intro env hready hend hreads
  rw [hcontent] at hreads
  rcases main_counts_content_append hready hend hreads with ⟨r, hmain, hcounts⟩
  refine ⟨r, hmain, (verifies_iff hcounts).2 ⟨by omega, ?_⟩⟩
  rw [occ_nil]
  exact Nat.dvd_zero _

/-! ## A device that was used before -/

/-- A device that an earlier run has filled. -/
def filled (n : Nat) : Buffer n :=
  { bytes := content n
    length_bytes := Generate.length_content n }

/-- After a run over the whole device, a run of fewer blocks prints a count that is too small by the
blocks it did not write. -/
theorem rerun_verifies_iff {n blocks : Nat} (hn : n < 2 ^ 63) (hblocks : 4096 * blocks ≤ n) :
    ∃ dev report,
      generate (Device.sink n) (Device.openWb (filled n)) (4096 * blocks : Nat) =
        .ok (dev, report) ∧
      dev.content.bytes = content n ∧
      ∀ env : Env, env.Ready → env.endRes = 0 → Delivers macros env.reads dev.content.bytes →
        ∃ r, main Checks.flat macros env = .ok r ∧
          r.counts = [UInt64.ofNat (n / 4096)] ∧ report.expectedCount = blocks ∧
          (Verifies report r ↔ blocks = n / 4096) := by
  rcases Generate.generate_device (filled n) hblocks with ⟨dev, hrun, hbytes⟩
  -- The run has overwritten the front of the device with what was there.
  have hsame : dev.content.bytes = content n := hbytes.trans (Generate.content_append_drop hblocks)
  have hexpected : 4096 * blocks / 4096 = blocks := by omega
  refine ⟨dev, _, hrun, hsame, ?_⟩
  intro env hready hend hreads
  rw [hsame, ← List.append_nil (content n)] at hreads
  rcases main_counts_content_append hready hend hreads with ⟨r, hmain, hcounts⟩
  rw [occ_nil, Nat.add_zero] at hcounts
  refine ⟨r, hmain, hcounts, congrArg Nat.cast hexpected, ?_⟩
  have hextra : r.counts = [UInt64.ofNat (4096 * blocks / 4096 + (n / 4096 - blocks))] := by
    rw [hcounts, hexpected, Nat.add_sub_cancel' (by omega)]
  rw [verifies_iff hextra]
  omega

/-! ## Runs in which only the reads vary -/

/-- Everything but the reads is as it should be. -/
def undisturbed (path : String) (reads : Schedule) : Env :=
  { argv := ["benchmarks/baseline", path]
    fd := 3
    startRes := 0
    start := ⟨0, 0⟩
    reads := reads
    endRes := 0
    «end» := ⟨0, 0⟩ }

theorem undisturbed_ready (path : String) (reads : Schedule) : (undisturbed path reads).Ready :=
  ⟨rfl, Int.natCast_nonneg 3, rfl⟩

/-- A file that the first `read()` delivers as a whole. -/
def oneRead (bytes : List UInt8) (hne : bytes ≠ []) : Schedule :=
  { pieces := [⟨bytes, hne⟩]
    last := .eof }

theorem oneRead_delivers {bytes : List UInt8} (hne : bytes ≠ []) (hlen : bytes.length ≤ 65536) :
    Delivers macros (oneRead bytes hne) bytes := by
  refine ⟨admissible_cons hlen (by simp), ?_, rfl⟩
  simp [oneRead, delivered]

theorem content_ne_nil {n : Nat} (hn : 0 < n) : content n ≠ [] := by
  apply List.ne_nil_of_length_pos
  rw [Generate.length_content]
  exact hn

/-! ## Any device -/

/-- On a device that holds `prior` and is larger than the script's run, the counts agree exactly when
the copies of `Alpha` in the bytes the run left alone are lost in the wraps of the counter; on a device
of less than `2 ^ 63` bytes, exactly when there are none. -/
theorem device_verifies_iff {capacity n : Nat} (prior : Buffer capacity) (hn : n ≤ capacity) :
    ∃ dev report, generate (Device.sink capacity) (Device.openWb prior) n = .ok (dev, report) ∧
      ∀ env : Env, env.Ready → env.endRes = 0 → Delivers macros env.reads dev.content.bytes →
        ∃ r, main Checks.flat macros env = .ok r ∧
          (Verifies report r ↔
            n / 4096 < 2 ^ 64 ∧ 2 ^ 64 ∣ occ alpha (prior.bytes.drop n)) ∧
          (capacity < 2 ^ 63 → (Verifies report r ↔ occ alpha (prior.bytes.drop n) = 0)) := by
  rcases Generate.generate_device prior hn with ⟨dev, hrun, hbytes⟩
  refine ⟨dev, _, hrun, ?_⟩
  intro env hready hend hreads
  rw [hbytes] at hreads
  rcases main_counts_content_append hready hend hreads with ⟨r, hmain, hcounts⟩
  refine ⟨r, hmain, verifies_iff hcounts, ?_⟩
  intro hcapacity
  -- Fewer extra copies than bytes: they cannot fill a wrap of the counter.
  have hle : occ alpha (prior.bytes.drop n) ≤ capacity - n := by
    have hlen := occ_le_length alpha (prior.bytes.drop n)
    rw [List.length_drop, prior.length_bytes] at hlen
    exact hlen
  rw [verifies_iff hcounts]
  omega

/-- The same run on a device that holds zeros. -/
theorem device_verifies_iff_zero :
    ∃ dev report r,
      generate (Device.sink 8192) (Device.openWb (Buffer.zero 8192)) (4096 : Nat) =
        .ok (dev, report) ∧
      main Checks.flat macros (undisturbed "/dev/nvme0n1"
        (oneRead (content 4096 ++ List.replicate 4096 0)
          (List.append_ne_nil_of_left_ne_nil (content_ne_nil (by decide)) _))) = .ok r ∧
      Verifies report r := by
  have hfits : 4096 ≤ 8192 := by decide
  rcases device_verifies_iff (Buffer.zero 8192) hfits with ⟨dev, report, hrun, hverify⟩
  rcases Generate.generate_device (Buffer.zero 8192) hfits with ⟨dev', hrun', hbytes⟩
  cases hrun.symm.trans hrun'
  have hrest : (Buffer.zero 8192).bytes.drop 4096 = List.replicate 4096 0 := List.drop_replicate
  have hreads : Delivers macros (oneRead (content 4096 ++ List.replicate 4096 0)
      (List.append_ne_nil_of_left_ne_nil (content_ne_nil (by decide)) _)) dev.content.bytes := by
    rw [hbytes, hrest]
    refine oneRead_delivers _ ?_
    rw [List.length_append, Generate.length_content, List.length_replicate]
    decide
  rcases hverify _ (undisturbed_ready "/dev/nvme0n1" _) rfl hreads with ⟨r, hmain, _, hiff⟩
  refine ⟨dev, _, r, hrun, hmain, (hiff (by decide)).2 ?_⟩
  have hno : (0x41 : UInt8) ∉ List.replicate 4096 (0 : UInt8) := by
    intro hmem
    exact absurd (List.eq_of_mem_replicate hmem) (by decide)
  rw [hrest, ← List.append_nil (List.replicate 4096 (0 : UInt8))]
  exact occ_append_of_head_not_mem hno

/-- A device of 8 KiB that an earlier run has filled, and a run of 4 KiB: the script announces 1, the
program finds 2. -/
theorem device_miscounted :
    ∃ dev report r,
      generate (Device.sink 8192) (Device.openWb (filled 8192)) (4096 * 1 : Nat) =
        .ok (dev, report) ∧
      Delivers macros (oneRead (content 8192) (content_ne_nil (by decide))) dev.content.bytes ∧
      main Checks.flat macros (undisturbed "/dev/nvme0n1"
        (oneRead (content 8192) (content_ne_nil (by decide)))) = .ok r ∧
      report.expectedCount = 1 ∧ r.counts = [2] ∧ ¬ Verifies report r := by
  rcases rerun_verifies_iff (show 8192 < 2 ^ 63 by decide) (show 4096 * 1 ≤ 8192 by decide) with
    ⟨dev, report, hrun, hbytes, hverify⟩
  have hreads : Delivers macros (oneRead (content 8192) (content_ne_nil (by decide)))
      dev.content.bytes := by
    rw [hbytes]
    refine oneRead_delivers _ ?_
    rw [Generate.length_content]
    decide
  rcases hverify _ (undisturbed_ready "/dev/nvme0n1" _) rfl hreads with
    ⟨r, hmain, hcounts, hexpected, hiff⟩
  refine ⟨dev, report, r, hrun, hreads, hmain, hexpected, hcounts, ?_⟩
  rw [hiff]
  decide

end Workflow
end HelloEbpf
