import Mathlib.Data.PNat.Defs
import Throned.Library.Runs

/-!
# The log buffer (LogBuffer.cpp, LogBuffer.hpp)

The newest lines of the user log, held for the API's readers.  A call takes the buffer's lock
for all it does.  A text is its UTF-16 units.  Line numbers are counted without a bound: 2^64
lines are never logged.
-/

set_option autoImplicit false

namespace Throned.Logging

open Throned.Library

/-- A `QString` as its units. -/
abbrev Units := List UInt16

def isHighSurrogate (c : UInt16) : Bool := 0xd800 ≤ c && c < 0xdc00

/-! ## The ring (LogBuffer.cpp:12-59) -/

def kMaxLines : ℕ := 5000

def kMaxBytes : Int := 4 * 1024 * 1024

def kMaxLineLength : ℕ := 8192

structure BufferedLine where
  seq : ℕ
  time : Int
  text : Units
  deriving DecidableEq, Repr

structure BufferedSlice where
  lines : List BufferedLine
  newestSeq : ℕ
  oldestSeq : ℕ
  more : Bool
  deriving DecidableEq, Repr

structure Ring where
  lines : List BufferedLine
  bytes : Int
  lastSeq : ℕ
  deriving DecidableEq, Repr

def Ring.empty : Ring := ⟨[], 0, 0⟩

def textBytes (text : Units) : Int := text.length * 2

def clipped (line : Units) : Units :=
  if line.length ≤ kMaxLineLength then line
  else
    let keep := kMaxLineLength - 1
    let keep := if ((line)[keep - 1]?).any isHighSurrogate then keep - 1 else keep
    line.take keep ++ [0x2026]

/-- The lines from index `first` on, at most `limit`. -/
def slice (ring : Ring) (first : ℕ) (limit : Int) : BufferedSlice :=
  let last := min ring.lines.length (first + (max limit 0).toNat)
  { lines := (ring.lines.take last).drop first
    newestSeq := ring.lastSeq
    oldestSeq := (ring.lines.head?.map (·.seq)).getD 0
    more := decide (last < ring.lines.length) }

/-! ## Writing (LogBuffer.cpp:62-80) -/

/-- The texts of a chunk. -/
def lineTexts (chunk : Units) : List Units :=
  ((chunk.splitOn 0x0a).map fun line => if line.getLast? = some 0x0d then line.dropLast else line)
    |>.filter (· ≠ []) |>.map clipped

/-- The inner loop, which drops lines from the front. -/
def evict : List BufferedLine → Int → List BufferedLine × Int
  | [], bytes => ([], bytes)
  | line :: rest, bytes =>
    if kMaxLines < (line :: rest).length ∨ kMaxBytes < bytes then
      evict rest (bytes - textBytes line.text)
    else (line :: rest, bytes)

/-- One line more. -/
def Ring.push (now : Int) (ring : Ring) (text : Units) : Ring :=
  let line : BufferedLine := ⟨ring.lastSeq + 1, now, text⟩
  let (lines, bytes) := evict (ring.lines ++ [line]) (ring.bytes + textBytes text)
  { lines, bytes, lastSeq := ring.lastSeq + 1 }

def BufferUserLog (ring : Ring) (chunk : Units) (now : Int) : Ring :=
  (lineTexts chunk).foldl (Ring.push now) ring

/-! ## Reading (LogBuffer.cpp:82-101) -/

def BufferedLinesAfter (ring : Ring) (after : ℕ) (limit : Int) : BufferedSlice :=
  match ring.lines with
  | [] => slice ring ring.lines.length limit
  | oldest :: _ =>
    if ring.lastSeq ≤ after then slice ring ring.lines.length limit
    else slice ring (if after < oldest.seq then 0 else after - oldest.seq + 1) limit

def BufferedTail (ring : Ring) (limit : Int) : BufferedSlice :=
  let count := min ring.lines.length (max limit 0).toNat
  slice ring (ring.lines.length - count) limit

def BufferedNewestSeq (ring : Ring) : ℕ := ring.lastSeq

/-- How many lines the API reports as lost to a reader (RouterFeeds.cpp:172-176). -/
def droppedBefore (after : ℕ) (slice : BufferedSlice) : ℕ :=
  let firstHeld := if 0 < slice.oldestSeq then slice.oldestSeq else slice.newestSeq + 1
  if after + 1 < firstHeld then firstHeld - after - 1 else 0

/-! ## Readers -/

/-- A reader that asks for what follows the last line it has received, and takes from
`oldestSeq` which lines it will never see. -/
structure Reader where
  after : ℕ
  received : List BufferedLine
  missed : List ℕ
  deriving Repr

/-- The numbers after `after` that are no longer held. -/
def lostBefore (after : ℕ) (slice : BufferedSlice) : List ℕ :=
  List.range' (after + 1) (slice.oldestSeq - (after + 1))

/-- The last sequence number received. -/
def lastReceived (after : ℕ) (lines : List BufferedLine) : ℕ :=
  (lines.getLast?.map (·.seq)).getD after

def Reader.take (reader : Reader) (slice : BufferedSlice) : Reader :=
  { after := lastReceived reader.after slice.lines
    received := reader.received ++ slice.lines
    missed := reader.missed ++ lostBefore reader.after slice }

/-- The buffer with its readers, and every line that was ever logged. -/
structure LogState where
  ring : Ring
  history : List BufferedLine
  readers : ℕ → Reader

inductive LogEvent where
  | log (chunk : Units) (now : Int)
  | read (reader : ℕ) (limit : ℕ+)

/-- The lines of a chunk, numbered on from `last`. -/
def numbered (last : ℕ) (now : Int) (texts : List Units) : List BufferedLine :=
  texts.zipIdx.map fun (text, i) => ⟨last + 1 + i, now, text⟩

def LogState.step (s : LogState) : LogEvent → LogState
  | .log chunk now =>
    { s with
      ring := BufferUserLog s.ring chunk now
      history := s.history ++ numbered s.ring.lastSeq now (lineTexts chunk) }
  | .read i limit =>
    let reader := s.readers i
    { s with
      readers := Function.update s.readers i
        (reader.take (BufferedLinesAfter s.ring reader.after limit)) }

def LogState.initial : LogState := ⟨.empty, [], fun _ => ⟨0, [], []⟩⟩

end Throned.Logging
