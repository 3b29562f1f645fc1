import SourceChunks.Chunk.Basic
import SourceChunks.Files.FileSystem
import SourceChunks.Json.Records

/-!
# Sinks

Where chunks go.  A sink takes one chunk at a time and may refuse it; the JSON-lines sink writes
each chunk as one line to a writer of bytes and flushes it, so that what has been written is always
a number of whole lines and at most a part of one more.
-/

namespace SourceChunks

/-- Why bytes or chunks are refused. -/
inductive WriteError where
  /-- The reader at the other end is gone. -/
  | brokenPipe
  /-- Not a single byte was taken. -/
  | nothingWritten
  /-- Another reason. -/
  | other (reason : String)
deriving DecidableEq, Repr

/-- The text of an error. -/
def WriteError.message : WriteError → String
  | .brokenPipe => "broken pipe"
  | .nothingWritten => "failed to write whole buffer"
  | .other reason => reason

/-- **A sink** with states of type `σ`. -/
structure Sink (σ : Type) where
  /-- Offers a chunk; the answer says why it was refused, if it was. -/
  write : σ → Chunk → Option WriteError × σ
  /-- The files as they are in a state; a sink may itself write files. -/
  files : σ → FileSystem

namespace Sink

/-- A sink that keeps the chunks in a list, last first. -/
def list (fs : FileSystem) : Sink (List Chunk) where
  write kept c := (none, c :: kept)
  files _ := fs

/-- A sink that takes `limit` chunks and refuses all others. -/
def limited (fs : FileSystem) (limit : Nat) (refusal : WriteError) : Sink (List Chunk) where
  write kept c := if kept.length < limit then (none, c :: kept) else (some refusal, kept)
  files _ := fs

end Sink

/-! ### Writers of bytes -/

/-- **A writer of bytes** with states of type `ω`. -/
structure ByteWriter (ω : Type) where
  /-- Offers bytes; the answer says how many from the front were taken. -/
  write : ω → Bytes → Except WriteError Nat × ω
  /-- Asks that everything taken be passed on. -/
  flush : ω → Option WriteError × ω

namespace ByteWriter

/-- Offers bytes until all are taken.  Each answer takes at least one byte, so their number is fuel
enough.  An offer that is interrupted is made again, so an answer is always that of an offer that
was not. -/
def writeAllWith (w : ByteWriter ω) : Nat → ω → Bytes → Option WriteError × ω
  | _, s, [] => (none, s)
  | 0, s, _ :: _ => (some .nothingWritten, s)
  | fuel + 1, s, bytes =>
    match w.write s bytes with
    | (.error e, s) => (some e, s)
    | (.ok 0, s) => (some .nothingWritten, s)
    | (.ok n, s) => writeAllWith w fuel s (bytes.drop n)

/-- **Writes all of some bytes.** -/
def writeAll (w : ByteWriter ω) (s : ω) (bytes : Bytes) : Option WriteError × ω :=
  w.writeAllWith bytes.length s bytes

end ByteWriter

/-! ### JSON lines -/

namespace JsonLines

/-- The state of a JSON-lines sink. -/
structure State (ω : Type) where
  /-- The state of its writer. -/
  writer : ω
  /-- Chunks written so far. -/
  written : Nat := 0

/-- Writes a chunk as one line and flushes it. -/
def write (w : ByteWriter ω) (s : State ω) (c : Chunk) : Option WriteError × State ω :=
  match w.writeAll s.writer (Json.chunkLine c) with
  | (some e, out) => (some e, { s with writer := out })
  | (none, out) =>
    match w.flush out with
    | (some e, out) => (some e, { s with writer := out })
    | (none, out) => (none, ⟨out, s.written + 1⟩)

/-- **The JSON-lines sink** over a writer. -/
def sink (w : ByteWriter ω) (files : ω → FileSystem) : Sink (State ω) where
  write := write w
  files s := files s.writer

end JsonLines

/-! ### Bounded buffers -/

/-- **A buffer with bounds**, on its size and on what it takes at once. -/
structure BoundedBuffer where
  /-- What it holds, in pieces, last first. -/
  pieces : List Bytes := []
  /-- The number of bytes it holds. -/
  size : Nat := 0
  /-- Bytes that it has room for, if there is a bound. -/
  capacity : Option Nat := none
  /-- Bytes that it takes at once, if there is a bound. -/
  maxWrite : Option Nat := none
  /-- The answer of a full buffer. -/
  whenFull : Except WriteError Nat := .error (.other "disk full")
  /-- The answer to a flush. -/
  whenFlushed : Option WriteError := none

namespace BoundedBuffer

/-- What a buffer holds. -/
def contents (b : BoundedBuffer) : Bytes := b.pieces.reverse.flatten

/-- The beginning of some bytes within a bound. -/
def cut (bound : Option Nat) (bytes : Bytes) : Bytes :=
  match bound with
  | some n => bytes.take n
  | none => bytes

/-- Takes bytes from the front of those offered. -/
def write (b : BoundedBuffer) (bytes : Bytes) : Except WriteError Nat × BoundedBuffer :=
  let room := b.capacity.map (· - b.size)
  if room = some 0 then (b.whenFull, b)
  else
    let taken := cut room (cut b.maxWrite bytes)
    (.ok taken.length, { b with pieces := taken :: b.pieces, size := b.size + taken.length })

/-- A bounded buffer as a writer. -/
def writer : ByteWriter BoundedBuffer where
  write := write
  flush b := (b.whenFlushed, b)

end BoundedBuffer

end SourceChunks
