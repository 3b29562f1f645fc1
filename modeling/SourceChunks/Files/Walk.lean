import SourceChunks.Files.FileSystem

/-!
# Walking a directory

The regular files below a directory, depth first.  The entries of each directory come in the order
of the bytes of their names, links are not followed, and a skipped entry is not entered.
-/

namespace SourceChunks

mutual

/-- The regular files at or below an entry that has the given path. -/
def Entry.filesAt (skip : Path → Bool) (p : Path) : Entry → List Path
  | .file _ | .sealed .. | .index _ => [p]
  | .directory d => ((d.branches skip p).mergeSort fun a b => Bytes.le a.1 b.1).flatMap (·.2)
  | .link _ | .outside _ => []

/-- The regular files below each name of a directory that has the given path. -/
def Directory.branches (skip : Path → Bool) (p : Path) : Directory → List (Bytes × List Path)
  | .nil => []
  | .cons name e rest =>
    let here := p.join ⟨name⟩
    if skip here then rest.branches skip p
    else (name, e.filesAt skip here) :: rest.branches skip p

end

/-- **The regular files below a directory**, in order. -/
def Directory.filesBelow (skip : Path → Bool) (p : Path) (d : Directory) : List Path :=
  (Entry.directory d).filesAt skip p

namespace FileSystem

/-- Is a path spelled `-`, which stands for the standard input? -/
def isStandardInput (p : Path) : Bool := p.components == [.name [0x2D]]

/-- **The files below a root**, under paths that begin with the root as it is spelled.  There are
none below the standard input. -/
def walk (fs : FileSystem) (skip : Path → Bool) (root : Path) : List Path :=
  if isStandardInput root then []
  else match fs.lookup root with
    | .ok (.directory d) => d.filesBelow skip root
    | _ => []

end FileSystem

end SourceChunks
