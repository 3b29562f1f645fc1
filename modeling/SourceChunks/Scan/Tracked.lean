import SourceChunks.Files.FileSystem
import SourceChunks.Log

/-!
# Tracked paths

The paths that version control knows below a root.  An index lists a path once for each of its
stages; entries are ordered by path and stage, shown as text, and neighbours that name the same
path are listed once.
-/

namespace SourceChunks

namespace TrackedEntry

/-- Order of an index: by the bytes of the path, then by stage. -/
def le (a b : TrackedEntry) : Bool :=
  if a.path = b.path then decide (a.stage ≤ b.stage) else Bytes.le a.path b.path

end TrackedEntry

namespace Tracked

/-- Why tracked paths cannot be listed. -/
inductive Failure where
  /-- The index is damaged. -/
  | damagedIndex
  /-- Version control gives a reason of its own. -/
  | other (reason : String)
deriving DecidableEq, Repr

/-- The text of a failure. -/
def Failure.message : Failure → String
  | .damagedIndex => "Version control error: failed to parse index; class=Index (10)"
  | .other reason => "Version control error: " ++ reason

/-- **An answer to the question for tracked paths**: a list, `none` outside version control, or a
failure, with what the log says about it. -/
structure Listing where
  answer : Except Failure (Option (List Path))
  log : List LogLine := []

/-- **Who is asked for tracked paths** below a root. -/
abbrev Provider := FileSystem → Path → Listing

/-- Some paths without those that name the same as the one before, the first being after `last`. -/
def dropRepeatsAfter (last : Path) : List Path → List Path
  | [] => []
  | p :: rest =>
    if p.components = last.components then dropRepeatsAfter last rest
    else p :: dropRepeatsAfter p rest

/-- Some paths without those that name the same as the one before. -/
def dropRepeats : List Path → List Path
  | [] => []
  | p :: rest => p :: dropRepeatsAfter p rest

/-- **The paths of an index**, in order and once each. -/
def pathsOf (entries : List TrackedEntry) : List Path :=
  dropRepeats ((entries.mergeSort TrackedEntry.le).map fun e => Path.ofString (Bytes.decode e.path))

/-- The name of a repository's own directory. -/
def repositoryName : Bytes := Bytes.encode ".git"

/-- The name of the index in a repository's own directory. -/
def indexName : Bytes := Bytes.encode "index"

/-- The repository's own directory in a root. -/
def repositoryIn? (fs : FileSystem) (root : Path) : Option Directory :=
  match fs.lookup (root.join ⟨repositoryName⟩) with
  | .ok (.directory d) => some d
  | _ => none

/-- **Asks the index of the repository at the root**; repositories further up do not count. -/
def ofIndex : Provider := fun fs root =>
  match repositoryIn? fs root with
  | none => {
      answer := .ok none
      log := [⟨.debug, "No git repository at " ++ root.display ++
        ": could not find repository at '" ++
        root.display ++ "'; class=Repository (6); code=NotFound (-3)"⟩] }
  | some d =>
    match d.find? indexName with
    | some (.index (some entries)) => { answer := .ok (some (pathsOf entries)) }
    | none => { answer := .ok (some []) }
    | some _ => { answer := .error .damagedIndex }

/-- A fixed list. -/
def ofList (paths : List Path) : Provider := fun _ _ => { answer := .ok (some paths) }

end Tracked

end SourceChunks
