import SourceChunks.Extraction
import SourceChunks.SourceFile

/-!
# The chunker

One file in, a non-empty list of chunks out: one chunk for each unit, or one for the whole file if
extraction finds none.
-/

namespace SourceChunks

/-- The chunks of a file, given what extraction found in it. -/
def SourceFile.chunks (f : SourceFile) : Extraction → List Chunk
  | .matched units => units.map f.chunkOf
  | .unmatched => [f.wholeChunk]

namespace Chunker

/-- A file cut into chunks, with what the log says about it. -/
structure Outcome where
  chunks : List Chunk
  log : List LogLine

/-- Cuts a file and reports on it.  The path is recorded as given and decides the language. -/
def run (r : Registry) (config : ChunkerConfig) (path content : String) : Outcome :=
  let loaded? := r.resolve? (Path.ofString path)
  let attempt := loaded?.map (Extraction.run config · content)
  let file := SourceFile.ofText path content loaded? config.importScanLines
  ⟨file.chunks (Extraction.ofAttempt attempt), Extraction.logOfAttempt path attempt⟩

/-- **The chunks of a file.** -/
def chunkFile (r : Registry) (config : ChunkerConfig) (path content : String) : List Chunk :=
  (run r config path content).chunks

end Chunker

end SourceChunks
