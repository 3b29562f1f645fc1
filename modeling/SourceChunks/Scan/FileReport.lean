import SourceChunks.Chunker
import SourceChunks.PathFilter
import SourceChunks.Scan.Stats

/-!
# What becomes of one path

A candidate path is skipped, or cannot be read, or is cut into chunks.  The report on a path
depends on nothing but the files, the filter and the settings, so paths do not influence each
other.
-/

namespace SourceChunks

/-- The part of a scan's options that a single path depends on. -/
structure ScanScope where
  /-- The root of the repository. -/
  root : Path
  /-- Which paths are read. -/
  filter : PathFilter
  /-- Settings of the chunker. -/
  chunker : ChunkerConfig

/-- **What became of a path.** -/
inductive FileReport where
  /-- The filter rejected it. -/
  | skipped (verdict : PathFilter.Verdict)
  /-- It could not be read. -/
  | unreadable (error : FileError)
  /-- It was cut into chunks.  `name` is its path below the root. -/
  | chunked (name : String) (lines : Nat) (outcome : Chunker.Outcome)

namespace FileReport

/-- The report on a file with the given contents. -/
def ofContents (scope : ScanScope) (p : Path) (contents : Bytes) : FileReport :=
  let name := Path.relativeTo scope.root p
  let text := Bytes.decode contents
  .chunked name (linesOf text).length (Chunker.run Registry.builtin scope.chunker name text)

/-- **The report on a path.** -/
def ofPath (fs : FileSystem) (scope : ScanScope) (p : Path) : FileReport :=
  match scope.filter.judge fs p with
  | .eligible =>
    match fs.read p with
    | .ok contents => ofContents scope p contents
    | .error e => .unreadable e
  | verdict => .skipped verdict

/-- The chunks of a path. -/
def chunks : FileReport → List Chunk
  | .chunked _ _ outcome => outcome.chunks
  | .skipped _ | .unreadable _ => []

/-- Is a list of chunks a single whole file? -/
def isFallback : List Chunk → Bool
  | [c] => c.isWholeFile
  | _ => false

/-- Counts a path. -/
def count (s : ScanStats) : FileReport → ScanStats
  | .skipped _ => s.addSkipped
  | .unreadable _ => s.addReadError
  | .chunked _ lines outcome =>
    match outcome.chunks with
    | [] => s
    | c :: cs => s.addFile c.language lines (isFallback (c :: cs))

/-- What the log says about a path. -/
def log (scope : ScanScope) (p : Path) : FileReport → List LogLine
  | .skipped verdict => verdict.log scope.filter p
  | .unreadable e => [⟨.error, "Failed to process " ++ p.display ++ ": " ++ e.message⟩]
  | .chunked name _ outcome =>
    outcome.log ++
      [⟨.debug, "Processed " ++ name ++ ": " ++ toString outcome.chunks.length ++ " chunks"⟩]

end FileReport

end SourceChunks
