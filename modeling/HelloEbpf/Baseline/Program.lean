import HelloEbpf.CMemory

/-!
# Program — `benchmarks/baseline.c`

The program reads a file in chunks into one static buffer and counts the pattern in it.  The
translation keeps the statements of `main` in order:

* `scanLoop` is the inner `while (ptr < limit)`;
* `body` is one iteration of the outer loop, started by a `read()` that returned a piece;
* `readLoop` is the outer loop, and `main` everything around it.

Lengths and offsets are natural numbers: each of them is at most `CHUNK_SIZE_BYTES`, so no `size_t`
operation wraps.  `total_count` is a `uint64_t`.  What the operating system does (the results of
`open`, `clock_gettime` and of every `read`) is an input.
-/

namespace HelloEbpf
namespace Baseline

open CMemory

/-! ## Macros -/

/-- `CHUNK_SIZE_BYTES`, `PATTERN` and `PATTERN_LEN_BYTES`, for a pattern that fits: two patterns
that share one byte have room in the buffer. -/
structure Macros where
  chunkSizeBytes : Nat
  pattern : List UInt8
  patternLenBytes : Nat
  patternLenBytes_eq : patternLenBytes = pattern.length
  patternLenBytes_pos : 0 < patternLenBytes
  chunkSizeBytes_ge : 2 * patternLenBytes - 1 ≤ chunkSizeBytes

/-- `"Alpha"`. -/
def alpha : List UInt8 :=
  [0x41, 0x6c, 0x70, 0x68, 0x61]

/-- The macros as `baseline.c` defines them. -/
def macros : Macros :=
  { chunkSizeBytes := 64 * 1024
    pattern := alpha
    patternLenBytes := 5
    patternLenBytes_eq := rfl
    patternLenBytes_pos := by decide
    chunkSizeBytes_ge := by decide }

/-! ## Results of `read()` -/

/-- The bytes one `read()` delivered; a `read()` that delivers none returns `0`. -/
abbrev Piece : Type :=
  {bytes : List UInt8 // bytes ≠ []}

/-- The first result of `read()` that is not positive. -/
inductive ReadEnd where
  | eof
  | error (n : Nat)
  deriving DecidableEq, Repr

/-- The value of `bytes_read` behind the loop. -/
def ReadEnd.bytesRead : ReadEnd → Int
  | .eof => 0
  | .error n => Int.negSucc n

/-- The results of all `read()` calls of one run. -/
structure Schedule where
  pieces : List Piece
  last : ReadEnd

/-- The bytes a sequence of pieces delivers. -/
def delivered (pieces : List Piece) : List UInt8 :=
  (pieces.map Subtype.val).flatten

/-! ## The loops -/

/-- The variables that live across iterations of the outer loop. -/
structure LoopState (mac : Macros) where
  buffer : Buffer mac.chunkSizeBytes
  offsetBytes : Nat
  totalCount : UInt64

/-- The state in which the outer loop is first entered. -/
def start (mac : Macros) : LoopState mac :=
  { buffer := Buffer.zero mac.chunkSizeBytes
    offsetBytes := 0
    totalCount := 0 }

/-- The number of bytes the next `read()` asks for. -/
def requested {mac : Macros} (st : LoopState mac) : Nat :=
  mac.chunkSizeBytes - st.offsetBytes

/-- `buffer + total_len_bytes - PATTERN_LEN_BYTES + 1`, evaluated from left to right. -/
def limitOf (chk : Checks) (mac : Macros) (totalLenBytes : Nat) : Except Fault Int := do
  point chk totalLenBytes totalLenBytes
  point chk totalLenBytes (totalLenBytes - mac.patternLenBytes)
  point chk totalLenBytes (totalLenBytes - mac.patternLenBytes + 1)
  return totalLenBytes - mac.patternLenBytes + 1

/-- `while (ptr < limit) { … }`, returning `total_count`. -/
def scanLoop (chk : Checks) (mac : Macros) (buffer : Buffer mac.chunkSizeBytes)
    (totalLenBytes : Nat) (limit ptr : Int) (totalCount : UInt64) : Except Fault UInt64 :=
  if ptr < limit then do
    let equal ← memcmpEq chk totalLenBytes buffer ptr mac.pattern mac.patternLenBytes
    if equal then do
      point chk totalLenBytes (ptr + mac.patternLenBytes)
      scanLoop chk mac buffer totalLenBytes limit (ptr + mac.patternLenBytes) (totalCount + 1)
    else do
      point chk totalLenBytes (ptr + 1)
      scanLoop chk mac buffer totalLenBytes limit (ptr + 1) totalCount
  else
    return totalCount
termination_by (limit - ptr).toNat
decreasing_by
  · have hpos := mac.patternLenBytes_pos
    omega
  · omega

/-- One iteration of the outer loop, from the `read()` that returned `piece` on. -/
def body (chk : Checks) (mac : Macros) (st : LoopState mac) (piece : List UInt8) :
    Except Fault (LoopState mac) := do
  -- `read(fd, buffer + offset_bytes, …)` has put the piece behind the kept bytes.
  point chk mac.chunkSizeBytes st.offsetBytes
  let buffer := st.buffer.fill st.offsetBytes piece
  let totalLenBytes := piece.length + st.offsetBytes
  cAssert (totalLenBytes ≤ mac.chunkSizeBytes)
  -- `limit` is computed before the length is looked at.
  let limit ← limitOf chk mac totalLenBytes
  if totalLenBytes < mac.patternLenBytes then
    -- `continue`
    return { st with buffer := buffer, offsetBytes := totalLenBytes }
  else do
    let totalCount ← scanLoop chk mac buffer totalLenBytes limit 0 st.totalCount
    -- The end of the window goes to the front of the buffer.
    let overlapLenBytes := mac.patternLenBytes - 1
    let bytesToKeep := if totalLenBytes < overlapLenBytes then totalLenBytes else overlapLenBytes
    point chk totalLenBytes totalLenBytes
    point chk totalLenBytes (totalLenBytes - bytesToKeep)
    let buffer ← memmove chk totalLenBytes buffer 0 (totalLenBytes - bytesToKeep) bytesToKeep
    return { buffer := buffer, offsetBytes := bytesToKeep, totalCount := totalCount }

/-- The outer loop over the results of `read()` that are positive. -/
def readLoop (chk : Checks) (mac : Macros) (st : LoopState mac) (pieces : List Piece) :
    Except Fault (LoopState mac) :=
  pieces.foldlM (fun st piece => body chk mac st piece.val) st

/-- The promise of the operating system about one `read()`: no more bytes than were asked for. -/
def Fits {mac : Macros} (st : LoopState mac) (piece : Piece) : Prop :=
  piece.val.length ≤ requested st

/-! ## `main` -/

/-- `struct timespec`. -/
structure Timespec where
  tvSec : Int
  tvNsec : Int
  deriving DecidableEq, Repr

/-- What the program is given: its arguments, and the results of its system calls. -/
structure Env where
  argv : List String
  fd : Int
  startRes : Int
  start : Timespec
  reads : Schedule
  endRes : Int
  «end» : Timespec

/-- A line on standard output. The elapsed time is printed as the quotient of two clock readings. -/
inductive Line where
  | count (totalCount : UInt64)
  | time (start «end» : Timespec)
  deriving DecidableEq, Repr

/-- A line on standard error. `perror` appends the text of `errno`. -/
inductive Message where
  | usage (argv0 : Option String)
  | perror (text : String)
  deriving DecidableEq, Repr

/-- A run that returned from `main`. -/
structure Result where
  stdout : List Line
  stderr : List Message
  closed : Bool
  status : Nat
  deriving DecidableEq, Repr

def main (chk : Checks) (mac : Macros) (env : Env) : Except Fault Result :=
  if env.argv.length ≠ 2 then
    return { stdout := [], stderr := [.usage env.argv.head?], closed := false, status := 1 }
  else if env.fd < 0 then
    return { stdout := [], stderr := [.perror "Error opening file"], closed := false, status := 1 }
  else do
    cAssert (env.startRes = 0)
    let st ← readLoop chk mac (start mac) env.reads.pieces
    -- `bytes_read` is now the first result that was not positive.
    if env.reads.last.bytesRead < 0 then
      return { stdout := [], stderr := [.perror "Read failed"], closed := true, status := 1 }
    else do
      cAssert (env.endRes = 0)
      return { stdout := [.count st.totalCount, .time env.start env.end]
               stderr := []
               closed := true
               status := 0 }

end Baseline
end HelloEbpf
