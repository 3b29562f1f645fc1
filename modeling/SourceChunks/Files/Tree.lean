import SourceChunks.Path

/-!
# File trees

A tree of directories as a plain value: files with their bytes, links with their targets, and the
index in which version control keeps the tracked paths.  A `Location` names an entry by the real
directories above it; links are followed elsewhere, when paths are resolved.

A file may refuse to be opened, and a file outside the tree to be read; directories can always be
listed.  No two names stand for one file.
-/

namespace SourceChunks

/-- Why the system refuses an operation on a file. -/
inductive FileError where
  /-- Nothing has this name. -/
  | notFound
  /-- Reading fails. -/
  | inputOutput
  /-- The file may not be opened. -/
  | permissionDenied
  /-- A step of the path leads through something that is no directory. -/
  | notADirectory
  /-- A directory stands where a file is needed. -/
  | isADirectory
  /-- The path leads through too many links. -/
  | tooManyLinks
deriving DecidableEq, Repr

/-- The text of an error. -/
def FileError.message : FileError → String
  | .notFound => "No such file or directory (os error 2)"
  | .inputOutput => "Input/output error (os error 5)"
  | .permissionDenied => "Permission denied (os error 13)"
  | .notADirectory => "Not a directory (os error 20)"
  | .isADirectory => "Is a directory (os error 21)"
  | .tooManyLinks => "Too many levels of symbolic links (os error 40)"

/-- **A tracked path** in an index: stage 0, or one of the three stages of a conflict. -/
structure TrackedEntry where
  path : Bytes
  stage : Nat
deriving DecidableEq, Repr

/-- Names from the top of a tree down to an entry. -/
abbrev Location := List Bytes

mutual

/-- **What a name stands for.** -/
inductive Entry where
  /-- A regular file. -/
  | file (contents : Bytes)
  /-- A regular file that shows its size and cannot be opened, with what opening it fails for. -/
  | sealed (size : Nat) (refusal : FileError)
  /-- A link to a path. -/
  | link (target : Path)
  /-- A link to a regular file outside the tree, with what reading that file gives. -/
  | outside (reading : Except FileError Bytes)
  /-- The index of a repository: its entries in no particular order, or `none` if it is damaged. -/
  | index (tracked : Option (List TrackedEntry))
  /-- A directory. -/
  | directory (entries : Directory)

/-- **A directory**: names and what they stand for. -/
inductive Directory where
  | nil
  | cons (name : Bytes) (entry : Entry) (rest : Directory)

end

instance : Inhabited Directory := ⟨.nil⟩

namespace Directory

/-- What a name stands for. -/
def find? (name : Bytes) : Directory → Option Entry
  | .nil => none
  | .cons n e rest => if n = name then some e else find? name rest

/-- Lets a name stand for an entry, in the place of what it stood for before. -/
def set (name : Bytes) (e : Entry) : Directory → Directory
  | .nil => .cons name e .nil
  | .cons n old rest => if n = name then .cons n e rest else .cons n old (set name e rest)

end Directory

/-- The entry at a location below another entry. -/
def Entry.get? : Entry → Location → Option Entry
  | e, [] => some e
  | .directory d, n :: rest => (d.find? n).bind (·.get? rest)
  | _, _ :: _ => none

/-- The entries of a directory, if the entry is one. -/
def Entry.entries? : Entry → Option Directory
  | .directory d => some d
  | _ => none

theorem Entry.eq_directory_of_entries? {e : Entry} {d : Directory} (h : e.entries? = some d) :
    e = .directory d := by
  cases e with
  | directory d' => rw [Option.some.inj h]
  | _ => cases h

/-- Nothing lies below an entry that is no directory. -/
theorem Entry.get?_cons_of_leaf {e : Entry} (h : e.entries? = none) (n : Bytes) (l : Location) :
    e.get? (n :: l) = none := by
  cases e with
  | directory d => cases h
  | _ => rfl

/-- **Puts an entry at a location** below a directory.  Directories on the way are made as needed,
and take the place of anything else. -/
def Directory.put (e : Entry) : Location → Directory → Directory
  | [], d => d
  | [n], d => d.set n e
  | n :: rest, d =>
    let below := ((d.find? n).bind Entry.entries?).getD .nil
    d.set n (.directory (put e rest below))

end SourceChunks
