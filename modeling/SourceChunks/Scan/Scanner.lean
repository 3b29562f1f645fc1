import SourceChunks.Files.Walk
import SourceChunks.Scan.Options
import SourceChunks.Scan.Stream
import SourceChunks.Scan.Tracked

/-!
# The scanner

A scanner has checked options.  Each scan starts afresh: it lists the candidate paths, tracked ones
if there are any to ask for and else all files below the root, and hands out a stream.
-/

namespace SourceChunks

/-- **A scanner** of one repository. -/
structure Scanner where
  /-- The options, checked. -/
  options : ScanOptions
  /-- The filter of the options. -/
  filter : PathFilter
  /-- Who is asked for tracked paths. -/
  tracked : Tracked.Provider := Tracked.ofIndex

namespace Scanner

/-- **Checks options** before any file is read: the root, the other options, the patterns. -/
def ofOptions (fs : FileSystem) (o : ScanOptions) : Except ScanError Scanner :=
  if !fs.isDirectory o.root then .error (.invalidRoot o.root)
  else match o.problem? fs with
    | some p => .error (.invalidOptions p)
    | none =>
      match PathFilter.ofPatterns o.root o.ignore o.maxFileSize with
      | .error f => .error (.invalidPattern f)
      | .ok filter => .ok { options := o, filter }

/-- What the reports of a scan depend on. -/
def scope (s : Scanner) : ScanScope := ⟨s.options.root, s.filter, s.options.chunker⟩

/-- The candidate paths of a scan, where they come from, and what the log says. -/
structure Candidates where
  source : PathSource
  paths : List Path
  log : List LogLine

/-- All files below the root that are not ignored. -/
def traversal (s : Scanner) (fs : FileSystem) : List Path :=
  fs.walk s.filter.isIgnored s.options.root

/-- **The candidate paths of a scan.** -/
def candidates (s : Scanner) (fs : FileSystem) : Candidates :=
  let root := s.options.root
  if s.options.useTracked then
    let listing := s.tracked fs root
    match listing.answer with
    | .ok (some paths) => {
        source := .tracked
        paths := paths.map root.join
        log := listing.log ++ [⟨.info,
          "Scanning " ++ toString paths.length ++ " tracked paths in " ++ root.display⟩] }
    | .ok none => {
        source := .traversal
        paths := s.traversal fs
        log := listing.log ++ [⟨.warn,
          "Not a version-controlled directory: " ++ root.display ++ ". Scanning all files."⟩] }
    | .error e => {
        source := .traversal
        paths := s.traversal fs
        log := listing.log ++ [⟨.warn,
          "Cannot read tracked paths in " ++ root.display ++ ": " ++ e.message ++
          ". Scanning all files."⟩] }
  else { source := .traversal, paths := s.traversal fs, log := [] }

/-- **Starts a scan**: a fresh stream, and what the log says.  The chunker looks at its settings
once more and may refuse them. -/
def scan (s : Scanner) (fs : FileSystem) :
    Except ChunkerConfig.Problem (ChunkStream × List LogLine) :=
  match s.options.chunker.problem? with
  | some p => .error p
  | none =>
    let c := s.candidates fs
    .ok ({ scope := s.scope, source := c.source, paths := c.paths }, c.log)

/-- **All chunks of a scan at once**: those of each candidate path, one path after the other. -/
def chunks (s : Scanner) (fs : FileSystem) : List Chunk :=
  (s.candidates fs).paths.flatMap fun p => (FileReport.ofPath fs s.scope p).chunks

end Scanner

end SourceChunks
