import SourceChunks.Scan.FileReport

/-!
# Lazy streams of chunks

A stream holds the paths that are still to come and the chunks of at most one file.  A pull hands
out a pending chunk, or works through paths until one of them has chunks.  Beside it stands the
eager reading of a scan, which goes through all paths at once.
-/

namespace SourceChunks

/-- Where candidate paths come from. -/
inductive PathSource where
  /-- The paths that version control tracks. -/
  | tracked
  /-- A walk through the whole root. -/
  | traversal
deriving DecidableEq, Repr

/-- The name of a source. -/
def PathSource.name : PathSource → String
  | .tracked => "tracked"
  | .traversal => "traversal"

/-- **A stream of chunks.** -/
structure ChunkStream where
  /-- What a path's report depends on. -/
  scope : ScanScope
  /-- Where the paths come from. -/
  source : PathSource
  /-- Candidate paths still to come. -/
  paths : List Path
  /-- Chunks of the last file that have not been handed out. -/
  pending : List Chunk := []
  /-- Counters for everything so far. -/
  stats : ScanStats := {}

namespace ChunkStream

/-- The state of a stream after some paths, with what the log says about them. -/
structure Advance where
  paths : List Path
  pending : List Chunk
  stats : ScanStats
  log : List LogLine

/-- **Works through paths** until one of them has chunks. -/
def advance (fs : FileSystem) (scope : ScanScope) (stats : ScanStats) : List Path → Advance
  | [] => ⟨[], [], stats, []⟩
  | p :: rest =>
    let report := FileReport.ofPath fs scope p
    match report.chunks with
    | [] =>
      let later := advance fs scope (report.count stats) rest
      { later with log := report.log scope p ++ later.log }
    | cs => ⟨rest, cs, report.count stats, report.log scope p⟩

/-- Makes sure that a chunk is pending, if there is one at all. -/
def refill (fs : FileSystem) (s : ChunkStream) : ChunkStream × List LogLine :=
  match s.pending with
  | [] =>
    let a := advance fs s.scope s.stats s.paths
    ({ s with paths := a.paths, pending := a.pending, stats := a.stats }, a.log)
  | _ => (s, [])

/-- What a pull gives. -/
structure Pull where
  /-- The chunk, or `none` at the end of the stream. -/
  chunk? : Option Chunk
  /-- The stream afterwards. -/
  stream : ChunkStream
  /-- What the log says. -/
  log : List LogLine

/-- **Pulls a chunk** out of a stream, as the files are now. -/
def next (fs : FileSystem) (s : ChunkStream) : Pull :=
  let (s, log) := s.refill fs
  match s.pending with
  | [] => ⟨none, s, log⟩
  | c :: cs => ⟨some c, { s with pending := cs, stats := s.stats.addChunk }, log⟩

/-- Chunks that are found cost at least one path. -/
theorem advance_paths_lt (fs : FileSystem) (scope : ScanScope) (stats : ScanStats)
    (paths : List Path) (h : (advance fs scope stats paths).pending ≠ []) :
    (advance fs scope stats paths).paths.length < paths.length := by
  induction paths generalizing stats with
  | nil => simp [advance] at h
  | cons p rest ih =>
    simp only [advance] at h ⊢
    split at h
    · exact Nat.lt_succ_of_lt (ih _ h)
    · exact Nat.lt_succ_self _

/-- **A pull that gives a chunk leaves less to pull**: a path less, or a pending chunk less. -/
theorem next_remaining_lt {fs : FileSystem} {s after : ChunkStream} {c : Chunk} {log : List LogLine}
    (h : s.next fs = ⟨some c, after, log⟩) :
    Prod.Lex (· < ·) (· < ·)
      (after.paths.length, after.pending.length) (s.paths.length, s.pending.length) := by
  obtain ⟨scope, source, paths, pending, stats⟩ := s
  cases pending with
  | nil =>
    simp only [next, refill] at h
    split at h
    · simp at h
    · next hp =>
      obtain ⟨-, rfl, -⟩ := Pull.mk.inj h
      exact Prod.Lex.left _ _ (advance_paths_lt fs scope stats paths (by simp [hp]))
  | cons d ds =>
    simp only [next, refill, Pull.mk.injEq] at h
    obtain ⟨-, rfl, -⟩ := h
    exact Prod.Lex.right _ (Nat.lt_succ_self _)

/-- Everything that is left in a stream, and the stream afterwards. -/
structure Rest where
  chunks : List Chunk
  stream : ChunkStream

/-- **Pulls until the end** from files that do not change. -/
def rest (fs : FileSystem) (s : ChunkStream) : Rest :=
  match _h : s.next fs with
  | ⟨none, after, _⟩ => ⟨[], after⟩
  | ⟨some c, after, _⟩ =>
    let later := rest fs after
    { later with chunks := c :: later.chunks }
termination_by (s.paths.length, s.pending.length)
decreasing_by exact next_remaining_lt _h

end ChunkStream

end SourceChunks
