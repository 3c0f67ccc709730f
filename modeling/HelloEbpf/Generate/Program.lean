import Mathlib.Tactic.Common

/-!
# Program — `generate()` of `scripts/generate_data.py`

The script fills a file with blocks of 4096 bytes that end in `Alpha`, 256 blocks to a write, and pads
what is left of the requested size with `x`.  It keeps its own books: `written` and `count` are added
up next to the writes and printed at the end.

Python integers are unbounded, so they are `Int`; `//` and `%` are only used with the divisor 4096,
where they are Lean's.  The file is behind `Sink`: a `write` may fail and end the run.
-/

namespace HelloEbpf
namespace Generate

/-- An open binary file: a `write` gives the next state of the file, or an `OSError`. -/
structure Sink (φ ε : Type) where
  write : φ → List UInt8 → Except ε φ

/-- `b * n` for a bytes object. -/
def bytesMul (b : List UInt8) (n : Int) : List UInt8 :=
  (List.replicate n.toNat b).flatten

/-- `b"x"`. -/
def padding : List UInt8 :=
  [0x78]

/-- `b"Alpha"`. -/
def alpha : List UInt8 :=
  [0x41, 0x6c, 0x70, 0x68, 0x61]

def paddingLen : Int :=
  4096 - 5

def block : List UInt8 :=
  bytesMul padding paddingLen ++ alpha

def blocksPerChunk : Int :=
  256

/-- The file and the two accumulators of the write loop. -/
structure Progress (φ : Type) where
  file : φ
  written : Int
  count : Int

section Loop

variable {φ ε : Type} (sink : Sink φ ε)

/-- `if blocks_to_write > 0`. -/
def writeBlocks (blocksToWrite : Int) (st : Progress φ) : Except ε (Progress φ) :=
  if blocksToWrite > 0 then do
    let file ← sink.write st.file (bytesMul block blocksToWrite)
    return { file := file
             written := st.written + blocksToWrite * 4096
             count := st.count + blocksToWrite }
  else
    return st

/-- `if remainder_padding > 0`. -/
def writePadding (remainderPadding : Int) (st : Progress φ) : Except ε (Progress φ) :=
  if remainderPadding > 0 then do
    let file ← sink.write st.file (bytesMul padding remainderPadding)
    return { st with file := file, written := st.written + remainderPadding }
  else
    return st

/-- The last pass through the loop: the blocks that are left, then the padding. -/
def writeRest (remainingBytes : Int) (st : Progress φ) : Except ε (Progress φ) := do
  let blocksToWrite := remainingBytes / 4096
  let remainderPadding := remainingBytes % 4096
  let st ← writeBlocks sink blocksToWrite st
  writePadding sink remainderPadding st

/-- `while written < target_bytes`. -/
def writeLoop (targetBytes : Int) (st : Progress φ) : Except ε (Progress φ) :=
  if st.written < targetBytes then
    let remainingBytes := targetBytes - st.written
    if remainingBytes < blocksPerChunk * 4096 then
      -- `break`
      writeRest sink remainingBytes st
    else do
      -- A full chunk; the loop goes on.
      let file ← sink.write st.file (bytesMul block blocksPerChunk)
      writeLoop targetBytes
        { file := file
          written := st.written + blocksPerChunk * 4096
          count := st.count + blocksPerChunk }
  else
    return st
termination_by (targetBytes - st.written).toNat
decreasing_by
  simp only [blocksPerChunk]
  omega

/-- The two numbers in `Done. Size: … bytes. Expected 'Alpha' count: …`. -/
structure Report where
  size : Int
  expectedCount : Int
  deriving DecidableEq, Repr

/-- `generate()` on a file that has just been opened with mode `"wb"`. -/
def generate (file : φ) (targetBytes : Int) : Except ε (φ × Report) := do
  let st ← writeLoop sink targetBytes { file := file, written := 0, count := 0 }
  return (st.file, { size := st.written, expectedCount := st.count })

end Loop

/-! ## Regular files -/

/-- A regular file, which mode `"wb"` has emptied: writes extend it. -/
def regularFile : Sink (List UInt8) Empty where
  write := fun file data => .ok (file ++ data)

end Generate
end HelloEbpf
