import SourceChunks.Text.Bytes

/-!
# Statistics of a scan

Counters for what has been pulled from a scan so far, and the number of files of each language,
sorted by the name of the language.
-/

namespace SourceChunks

/-- **Counts by name**, sorted by name. -/
abbrev Tally := List (String × Nat)

namespace Tally

/-- Changes the count of a name; a new name starts from zero. -/
def update (name : String) (f : Nat → Nat) : Tally → Tally
  | [] => [(name, f 0)]
  | (n, k) :: rest =>
    if name = n then (n, f k) :: rest
    else if name < n then (name, f 0) :: (n, k) :: rest
    else (n, k) :: update name f rest

/-- Counts a name once more. -/
def bump (t : Tally) (name : String) : Tally := t.update name (· + 1)

/-- Gives a name a count, whatever it had before. -/
def set (t : Tally) (name : String) (count : Nat) : Tally := t.update name fun _ => count

/-- The sum of all counts. -/
def total (t : Tally) : Nat := t.foldr (fun entry sum => entry.2 + sum) 0

end Tally

/-- **Statistics of a scan.** -/
structure ScanStats where
  /-- Files read and cut into chunks. -/
  files : Nat := 0
  /-- Chunks handed out. -/
  chunks : Nat := 0
  /-- Files that are one whole-file chunk. -/
  fallbackFiles : Nat := 0
  /-- Paths that the filter rejected. -/
  skipped : Nat := 0
  /-- Lines of all files. -/
  totalLines : Nat := 0
  /-- Files of each language. -/
  languages : Tally := []
  /-- Files that could not be read. -/
  readErrors : Nat := 0
deriving DecidableEq, Repr

namespace ScanStats

/-- Counts a file. -/
def addFile (s : ScanStats) (language : String) (lines : Nat) (fallback : Bool) : ScanStats :=
  { s with
    files := s.files + 1
    totalLines := s.totalLines + lines
    fallbackFiles := s.fallbackFiles + fallback.toNat
    languages := s.languages.bump language }

/-- Counts a chunk. -/
def addChunk (s : ScanStats) : ScanStats := { s with chunks := s.chunks + 1 }

/-- Counts a path that was rejected. -/
def addSkipped (s : ScanStats) : ScanStats := { s with skipped := s.skipped + 1 }

/-- Counts a file that could not be read. -/
def addReadError (s : ScanStats) : ScanStats := { s with readErrors := s.readErrors + 1 }

end ScanStats

end SourceChunks
