import SourceChunks.Files.Tree

/-!
# File systems

A tree with a working directory.  Paths are resolved one segment at a time: `..` leads to the
parent of the real directory reached so far, and links are followed, but not more than forty of
them.  A trailing slash asks for a directory.
-/

namespace SourceChunks

/-- **A file system.** -/
structure FileSystem where
  /-- The directory above all others. -/
  top : Directory
  /-- The directory from which relative paths start. -/
  workingDirectory : Location := []

namespace FileSystem

/-- What a path leads to. -/
inductive Target where
  /-- An entry that is no link. -/
  | existing (location : Location)
  /-- A name that nothing has in an existing directory.  `asDirectory` tells whether the path ends
  in a slash. -/
  | absent (directory : Location) (name : Bytes) (asDirectory : Bool)
deriving DecidableEq, Repr

/-- The entry at a location. -/
def get? (fs : FileSystem) (l : Location) : Option Entry := (Entry.directory fs.top).get? l

/-- The directory at a location. -/
def directoryAt? (fs : FileSystem) (l : Location) : Option Directory :=
  (fs.get? l).bind Entry.entries?

/-! ### Resolving paths -/

/-- Where the segments of a path start, seen from `dir`. -/
def base (dir : Location) (p : Path) : Location := if p.isAbsolute then [] else dir

/-- Resolves segments from a location on, with `follow` for the rest of the way after a link. -/
def resolveWith (fs : FileSystem) (follow : Location → List Bytes → Except FileError Target) :
    Location → List Bytes → Except FileError Target
  | dir, [] => .ok (.existing dir)
  | dir, s :: rest =>
    match fs.directoryAt? dir with
    | none => .error .notADirectory
    | some d =>
      if s = [] ∨ s = [Path.dot] then resolveWith fs follow dir rest
      else if s = [Path.dot, Path.dot] then resolveWith fs follow dir.dropLast rest
      else match d.find? s with
        | none =>
          if rest.all (· = []) then .ok (.absent dir s !rest.isEmpty) else .error .notFound
        | some (.link target) =>
          if target.bytes = [] then .error .notFound
          else follow (base dir target) (splitAt Path.slash target.bytes ++ rest)
        | some _ => resolveWith fs follow (dir ++ [s]) rest

/-- Resolves segments and follows up to `links` links. -/
def resolveFrom (fs : FileSystem) : Nat → Location → List Bytes → Except FileError Target
  | 0 => fs.resolveWith fun _ _ => .error .tooManyLinks
  | links + 1 => fs.resolveWith (resolveFrom fs links)

/-- Links that a path may lead through. -/
def linkLimit : Nat := 40

/-- **What a path leads to.**  The empty path leads nowhere. -/
def resolve (fs : FileSystem) (p : Path) : Except FileError Target :=
  if p.bytes = [] then .error .notFound
  else fs.resolveFrom linkLimit (base fs.workingDirectory p) (splitAt Path.slash p.bytes)

/-- The location of the entry that a path leads to. -/
def locate (fs : FileSystem) (p : Path) : Except FileError Location := do
  match ← fs.resolve p with
  | .existing l => .ok l
  | .absent .. => .error .notFound

/-- The entry that a path leads to. -/
def lookup (fs : FileSystem) (p : Path) : Except FileError Entry := do
  match fs.get? (← fs.locate p) with
  | some e => .ok e
  | none => .error .notFound

/-! ### Asking about files -/

/-- What is known about an entry without reading it. -/
inductive Status where
  | file (size : Nat)
  | directory
deriving DecidableEq, Repr

/-- The status of an entry. -/
def statusOf : Entry → Status
  | .file contents => .file contents.length
  | .sealed size _ => .file size
  | .outside (.ok contents) => .file contents.length
  | .directory _ => .directory
  | .outside (.error _) | .index _ | .link _ => .file 0

/-- **The status of a path.** -/
def status (fs : FileSystem) (p : Path) : Except FileError Status :=
  (fs.lookup p).map statusOf

/-- Does a path lead to a directory? -/
def isDirectory (fs : FileSystem) (p : Path) : Bool :=
  match fs.status p with
  | .ok .directory => true
  | _ => false

/-- The contents of an entry. -/
def contentsOf : Entry → Except FileError Bytes
  | .file contents => .ok contents
  | .sealed _ refusal => .error refusal
  | .outside reading => reading
  | .directory _ => .error .isADirectory
  | .index _ => .ok []
  | .link _ => .error .notFound

/-- **The contents of the file at a path.** -/
def read (fs : FileSystem) (p : Path) : Except FileError Bytes := do
  contentsOf (← fs.lookup p)

/-! ### Changing files -/

/-- Puts an entry at a location. -/
def put (fs : FileSystem) (l : Location) (e : Entry) : FileSystem :=
  { fs with top := fs.top.put e l }

/-- Why an entry cannot be opened for writing, if it cannot. -/
def refusalOf : Entry → Option FileError
  | .directory _ => some .isADirectory
  | .sealed _ refusal | .outside (.error refusal) => some refusal
  | .file _ | .index _ | .link _ | .outside (.ok _) => none

/-- An entry with other contents: a file outside the tree stays there, and anything else becomes a
file. -/
def refilled (contents : Bytes) : Option Entry → Entry
  | some (.outside _) => .outside (.ok contents)
  | _ => .file contents

/-- **Gives the file at a location other contents**, or makes the file. -/
def fill (fs : FileSystem) (l : Location) (contents : Bytes) : FileSystem :=
  fs.put l (refilled contents (fs.get? l))

/-- **Opens a file for writing** and empties it.  The file is made if its directory exists; a link
to a file outside the tree is followed. -/
def create (fs : FileSystem) (p : Path) : Except FileError (FileSystem × Location) := do
  match ← fs.resolve p with
  | .absent dir name false => .ok (fs.fill (dir ++ [name]) [], dir ++ [name])
  | .absent _ _ true => .error .isADirectory
  | .existing l =>
    match (fs.get? l).bind refusalOf with
    | some e => .error e
    | none => .ok (fs.fill l [], l)

/-- Adds bytes at the end of the file at a location. -/
def append (fs : FileSystem) (l : Location) (more : Bytes) : FileSystem :=
  match (fs.get? l).map contentsOf with
  | some (.ok contents) => fs.fill l (contents ++ more)
  | some (.error _) | none => fs

/-! ### Building a tree -/

/-- The directory that some names lead to from `dir`, made as needed. -/
def makeDirectories (fs : FileSystem) (dir : Location) :
    List Bytes → Except FileError (FileSystem × Location)
  | [] => .ok (fs, dir)
  | n :: rest => do
    match ← fs.resolveFrom linkLimit dir [n] with
    | .existing l => makeDirectories fs l rest
    | .absent parent name _ =>
      makeDirectories (fs.put (parent ++ [name]) (.directory .nil)) (parent ++ [name]) rest

/-- **Adds an entry** under a path from the working directory, with the directories above it. -/
def add (fs : FileSystem) (p : Path) (e : Entry) : Except FileError FileSystem :=
  match (Path.names p.components).reverse with
  | [] => .ok fs
  | name :: above => do
    let (fs, dir) ← fs.makeDirectories fs.workingDirectory above.reverse
    match e, ← fs.resolveFrom linkLimit dir [name] with
    | .file _, .existing l => .ok (fs.put l e)
    | .file _, .absent parent n _ => .ok (fs.put (parent ++ [n]) e)
    | .directory _, .existing _ => .ok fs
    | _, _ => .ok (fs.put (dir ++ [name]) e)

end FileSystem

end SourceChunks
