import SourceChunks.Extraction
import SourceChunks.PathFilter
import SourceChunks.Text.Blank

/-!
# Options of a scan

What is scanned and how, and the checks that come before anything is read.
-/

namespace SourceChunks

/-- **Options of one scan.** -/
structure ScanOptions where
  /-- The root of the repository. -/
  root : Path
  /-- Ignore patterns besides the default ones. -/
  ignore : List String := []
  /-- Files with more bytes than this are not read. -/
  maxFileSize : Nat := PathFilter.defaultMaxFileSize
  /-- Are the tracked paths scanned if the root is a repository? -/
  useTracked : Bool := true
  /-- Settings of the chunker. -/
  chunker : ChunkerConfig := {}

namespace ScanOptions

/-- What is wrong with some options. -/
inductive Problem where
  /-- The root is no directory. -/
  | rootNotADirectory (root : Path)
  /-- No file could be small enough. -/
  | zeroFileSize
  /-- A pattern has nothing but blanks. -/
  | blankPattern
  /-- The settings of the chunker are at fault. -/
  | chunker (problem : ChunkerConfig.Problem)
deriving DecidableEq, Repr

/-- The text of a problem. -/
def Problem.message : Problem → String
  | .rootNotADirectory root => "repository root " ++ root.display ++ " is not a directory"
  | .zeroFileSize => "max_file_size must be > 0"
  | .blankPattern => "ignore patterns must not be empty"
  | .chunker p => p.message

/-- Is a text empty once it is trimmed? -/
def isBlankText (s : String) : Bool := (trimChars s.toList).isEmpty

/-- **The first problem of some options**, in the order of the checks. -/
def problem? (o : ScanOptions) (fs : FileSystem) : Option Problem :=
  if !fs.isDirectory o.root then some (.rootNotADirectory o.root)
  else if o.maxFileSize = 0 then some .zeroFileSize
  else if o.ignore.any isBlankText then some .blankPattern
  else o.chunker.problem?.map .chunker

end ScanOptions

/-- Why a scan cannot start. -/
inductive ScanError where
  /-- The root is no directory. -/
  | invalidRoot (root : Path)
  /-- The options are at fault. -/
  | invalidOptions (problem : ScanOptions.Problem)
  /-- An ignore pattern cannot be read. -/
  | invalidPattern (failure : IgnorePattern.Failure)
deriving DecidableEq, Repr

/-- The text of an error. -/
def ScanError.message : ScanError → String
  | .invalidRoot root => "Invalid repository path: " ++ root.display
  | .invalidOptions p => "Invalid configuration: " ++ p.message
  | .invalidPattern f => f.message

end SourceChunks
