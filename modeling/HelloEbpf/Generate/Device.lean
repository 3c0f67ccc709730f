import HelloEbpf.CMemory
import HelloEbpf.Generate.Run

/-!
# Device — the script on a block device

Mode `"wb"` empties a regular file, but a block device has a fixed size: it keeps every byte that is
not written to.  Behind the bytes of a run there is what the device held before, so the device is a
sequential file for as many bytes as it has (`Device.bounded`).  A run that fits ends with
`content n ++ prior.drop n` on the device; any other ends in an error, with the device full of what the
run was to write first (`generate_device_full`).
-/

namespace HelloEbpf
namespace Generate

open CMemory

/-- An open block device: its bytes, and the position of the next write. -/
structure Device (capacity : Nat) where
  content : Buffer capacity
  pos : Nat

/-- `OSError: [Errno 28] No space left on device`, and the device as the failed write has left it. -/
inductive DeviceError (capacity : Nat) where
  | noSpace (left : Device capacity)

namespace Device

variable {capacity : Nat}

/-- `open(filename, "wb")` on a device: nothing is cleared. -/
def openWb (prior : Buffer capacity) : Device capacity :=
  { content := prior
    pos := 0 }

/-- `f.write`: past the last byte there is no space left, but what is in front of it is written. -/
def sink (capacity : Nat) : Sink (Device capacity) (DeviceError capacity) where
  write := fun dev data =>
    -- A device does not grow.
    if dev.pos + data.length ≤ capacity then
      .ok { content := dev.content.fill dev.pos data, pos := dev.pos + data.length }
    else
      .error (.noSpace
        { content := dev.content.fill dev.pos (data.take (capacity - dev.pos))
          pos := capacity })

/-- The device once the bytes `out` have been written over `prior`. -/
structure Written (prior : Buffer capacity) (out : List UInt8) (dev : Device capacity) : Prop where
  bytes : dev.content.bytes = out ++ prior.bytes.drop out.length
  pos : dev.pos = out.length

theorem written_openWb (prior : Buffer capacity) : Written prior [] (openWb prior) := by
  refine ⟨?_, rfl⟩
  simp [openWb]

/-- Bytes that fit replace the front of what is left of `prior`. -/
theorem Written.fill {prior : Buffer capacity} {out data : List UInt8} {dev : Device capacity}
    (h : Written prior out dev) (hroom : out.length + data.length ≤ capacity) :
    Written prior (out ++ data)
      { content := dev.content.fill dev.pos data, pos := dev.pos + data.length } := by
  have hfits : dev.pos + data.length ≤ capacity := by
    rw [h.pos]
    exact hroom
  constructor
  · calc
      (dev.content.fill dev.pos data).bytes
          = dev.content.bytes.take dev.pos ++ data ++
              dev.content.bytes.drop (dev.pos + data.length) := Buffer.bytes_fill hfits
      _ = out ++ data ++ prior.bytes.drop (out ++ data).length := by
            rw [h.bytes, h.pos, List.take_left, List.drop_length_add_append, List.drop_drop,
              List.length_append]
  · show dev.pos + data.length = (out ++ data).length
    rw [h.pos, List.length_append]

theorem Written.write {prior : Buffer capacity} {out data : List UInt8} {dev : Device capacity}
    (h : Written prior out dev) (hroom : out.length + data.length ≤ capacity) :
    ∃ dev', (sink capacity).write dev data = .ok dev' ∧ Written prior (out ++ data) dev' := by
  have hfits : dev.pos + data.length ≤ capacity := by
    rw [h.pos]
    exact hroom
  exact ⟨_, if_pos hfits, h.fill hroom⟩

/-- The device behind a write that failed. -/
def Left (prior : Buffer capacity) (out : List UInt8) : DeviceError capacity → Prop
  | .noSpace dev => Written prior out dev

theorem Written.write_full {prior : Buffer capacity} {out data : List UInt8}
    {dev : Device capacity} (h : Written prior out dev) (hout : out.length ≤ capacity)
    (hfull : capacity < out.length + data.length) :
    ∃ e, (sink capacity).write dev data = .error e ∧
      Left prior ((out ++ data).take capacity) e := by
  have hwide : ¬ dev.pos + data.length ≤ capacity := by
    rw [h.pos]
    omega
  refine ⟨_, if_neg hwide, ?_⟩
  -- What fits is a write of its own.
  have hlen : (data.take (capacity - dev.pos)).length = capacity - out.length := by
    rw [h.pos, List.length_take]
    omega
  have hfill := h.fill (show out.length + (data.take (capacity - dev.pos)).length ≤ capacity by omega)
  have hend : dev.pos + (data.take (capacity - dev.pos)).length = capacity := by
    rw [hlen, h.pos]
    omega
  have hfront : (out ++ data).take capacity = out ++ data.take (capacity - dev.pos) := by
    rw [List.take_append, List.take_of_length_le hout, h.pos]
  rw [hend] at hfill
  rw [hfront]
  exact hfill

/-- A device takes writes in sequence until it is full. -/
def bounded (prior : Buffer capacity) : Bounded (sink capacity) capacity where
  Holds := Written prior
  write_holds := fun hout hroom => hout.write hroom
  Left := Left prior
  write_full := fun hout hle hfull => hout.write_full hle hfull

end Device

/-- A run that fits leaves the device with the script's bytes in front of its old ones. -/
theorem generate_device {capacity n : Nat} (prior : Buffer capacity) (hn : n ≤ capacity) :
    ∃ dev, generate (Device.sink capacity) (Device.openWb prior) n =
        .ok (dev, { size := n, expectedCount := (n / 4096 : Nat) }) ∧
      dev.content.bytes = content n ++ prior.bytes.drop n := by
  rcases generate_spec (Device.bounded prior).toSequential hn (Device.written_openWb prior) with
    ⟨dev, hrun, hwritten⟩
  have hbytes : dev.content.bytes = content n ++ prior.bytes.drop (content n).length :=
    hwritten.bytes
  rw [length_content] at hbytes
  exact ⟨dev, hrun, hbytes⟩

/-- A run that does not fit leaves the device full of what it was to write first. -/
theorem generate_device_full {capacity n : Nat} (prior : Buffer capacity) (hn : capacity < n) :
    ∃ dev, generate (Device.sink capacity) (Device.openWb prior) n = .error (.noSpace dev) ∧
      dev.content.bytes = (content n).take capacity := by
  rcases generate_full (Device.bounded prior) hn (Device.written_openWb prior) with
    ⟨⟨dev⟩, hrun, hleft⟩
  refine ⟨dev, hrun, ?_⟩
  have hbytes : dev.content.bytes = (content n).take capacity ++
      prior.bytes.drop ((content n).take capacity).length := hleft.bytes
  have hlen : ((content n).take capacity).length = prior.bytes.length := by
    rw [List.length_take, length_content, prior.length_bytes]
    omega
  rw [hbytes, hlen, List.drop_length, List.append_nil]

/-- The script completes on a device exactly when the device has room for what it is asked to write. -/
theorem generate_device_completes_iff {capacity n : Nat} (prior : Buffer capacity) :
    (∃ done, generate (Device.sink capacity) (Device.openWb prior) n = .ok done) ↔
      n ≤ capacity := by
  constructor
  · rintro ⟨done, hrun⟩
    by_contra hwide
    rcases generate_device_full prior (Nat.lt_of_not_le hwide) with ⟨dev, herror, _⟩
    rw [hrun] at herror
    cases herror
  · intro hn
    rcases generate_device prior hn with ⟨dev, hrun, _⟩
    exact ⟨_, hrun⟩

end Generate
end HelloEbpf
