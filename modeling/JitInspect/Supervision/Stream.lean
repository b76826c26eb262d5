import JitInspect.Text.Utf8

/-!
# Streams of lines

What a command writes arrives in pieces, each of which may end within a line. A stream keeps the
unfinished line until the rest of it arrives. It gives up when an unfinished line becomes too long.
-/

namespace JitInspect

namespace Supervision

/-- The byte that ends a line. -/
def lineFeed : UInt8 := 10

/-- The greatest length of a line in bytes. -/
def maxLineBytes : Nat := 4 * 1024 * 1024

/-- How far the reading of a stream has come. -/
inductive Reading where
  | going
  | closed
  | failed
  deriving DecidableEq, Repr

/-- A stream that is read line by line. -/
structure Stream where
  /-- The bytes of the unfinished line, last first. -/
  unfinished : Bytes := []
  /-- How many bytes the unfinished line has. -/
  length : Nat := 0
  reading : Reading := .going
  deriving DecidableEq, Repr

/-- Why the reading of a stream failed. -/
inductive StreamFault where
  /-- A line has become too long and is still unfinished. -/
  | endless
  /-- A line that was finished is too long. -/
  | tooLong
  /-- The receiver of the lines failed. -/
  | receiver
  deriving DecidableEq, Repr

/-- What is said of the fault. -/
def StreamFault.message : StreamFault → Text
  | endless => "Separator is not found, and chunk exceed the limit"
  | tooLong => "Separator is found, but chunk is longer than limit"
  | receiver => "callback failed"

/-- A piece that is being split into lines. -/
structure Splitting where
  unfinished : Bytes
  length : Nat
  /-- The lines, last first, each without the byte that ends it. -/
  lines : List Bytes := []
  fault : Option StreamFault := none

/-- Reads the next byte of a piece. -/
def Splitting.next (s : Splitting) (b : UInt8) : Splitting :=
  if s.fault.isSome then s
  else if b = lineFeed then
    if maxLineBytes < s.length then { s with fault := some .tooLong }
    else { s with unfinished := [], length := 0, lines := s.unfinished.reverse :: s.lines }
  else { s with unfinished := b :: s.unfinished, length := s.length + 1 }

namespace Stream

/-- Reads a piece: the lines that it finishes, and the fault that stops the reading. -/
def feed (s : Stream) (piece : Bytes) : Stream × List Bytes × Option StreamFault :=
  let r := piece.foldl Splitting.next { unfinished := s.unfinished, length := s.length }
  let fault := r.fault <|> if maxLineBytes < r.length then some StreamFault.endless else none
  ({ s with unfinished := r.unfinished, length := r.length }, r.lines.reverse, fault)

/-- Reads to the end: an unfinished line counts as a line. -/
def close (s : Stream) : Stream × List Bytes :=
  ({ reading := .closed }, if s.unfinished.isEmpty then [] else [s.unfinished.reverse])

end Stream

end Supervision

end JitInspect
