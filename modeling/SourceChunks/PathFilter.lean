import SourceChunks.Files.FileSystem
import SourceChunks.Ignore
import SourceChunks.Log
import SourceChunks.Registry

/-!
# The path filter

Which paths are worth reading.  Ignore patterns and the extension are checked on the path alone,
then the status of the file, and the contents never.
-/

namespace SourceChunks

/-- **A filter** for the paths of one repository. -/
structure PathFilter where
  /-- The root of the repository; names above it do not count. -/
  root : Path
  /-- What is ignored. -/
  patterns : List IgnorePattern
  /-- Files with more bytes than this are not read. -/
  maxFileSize : Nat

namespace PathFilter

/-- Files with more bytes than this are not read unless options say otherwise. -/
def defaultMaxFileSize : Nat := 1048576

/-- The filter with the default patterns and some more. -/
def ofPatterns (root : Path) (extra : List String) (maxFileSize : Nat) :
    Except IgnorePattern.Failure PathFilter :=
  (IgnorePattern.withDefaults extra).map fun patterns => ⟨root, patterns, maxFileSize⟩

/-- Is a name ignored? -/
def ignoresName (f : PathFilter) (name : Bytes) : Bool := f.patterns.any (·.ignores name)

/-- **Is a path ignored?**  It is if one of its names below the root is. -/
def isIgnored (f : PathFilter) (p : Path) : Bool :=
  (Path.names (Path.below f.root p)).any f.ignoresName

/-- What the filter makes of a path. -/
inductive Verdict where
  /-- One of its names is ignored. -/
  | ignored
  /-- No language has its extension. -/
  | noLanguage
  /-- The system refuses to say what it is. -/
  | unknown (error : FileError)
  /-- It is no regular file. -/
  | notAFile
  /-- The file has too many bytes. -/
  | tooLarge (size : Nat)
  /-- It is to be read. -/
  | eligible
deriving DecidableEq, Repr

/-- **Judges a path.** -/
def judge (f : PathFilter) (fs : FileSystem) (p : Path) : Verdict :=
  if f.isIgnored p then .ignored
  else if (Registry.builtin.resolve? p).isNone then .noLanguage
  else match fs.status p with
    | .error e => .unknown e
    | .ok .directory => .notAFile
    | .ok (.file size) => if size > f.maxFileSize then .tooLarge size else .eligible

/-- Is a path to be read? -/
def isEligible (f : PathFilter) (fs : FileSystem) (p : Path) : Bool := f.judge fs p == .eligible

/-- What the log says about a verdict. -/
def Verdict.log (f : PathFilter) (p : Path) : Verdict → List LogLine
  | .ignored => [⟨.trace, "Skipping ignored path " ++ p.display⟩]
  | .tooLarge size =>
    [⟨.debug, "Skipping large file " ++ p.display ++ " (" ++ toString size ++ " bytes > " ++
      toString f.maxFileSize ++ ")"⟩]
  | .unknown e => [⟨.debug, "Cannot stat " ++ p.display ++ ": " ++ e.message⟩]
  | .noLanguage | .notAFile | .eligible => []

end PathFilter

end SourceChunks
