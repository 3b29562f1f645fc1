import SourceChunks.CommandLine.Session
import SourceChunks.Scan.IndexFile

/-!
# The command

Loads the files that a session may look at, runs the session, and carries out what it decided.
-/

namespace SourceChunks

/-- The bytes of a byte array. -/
def bytesOf (a : ByteArray) : Bytes := a.toList

/-- What reading a file gives. -/
def readFile (path : String) : IO (Except FileError Bytes) := do
  try return .ok (bytesOf (← IO.FS.readBinFile path))
  catch
    | .permissionDenied .. => return .error .permissionDenied
    | _ => return .error .inputOutput

/-- The number of bytes that a file shows without being read. -/
def sizeAt (path : String) : IO Nat := do
  try return (← ((← IO.currentDir) / path).metadata).byteSize.toNat
  catch _ => return 0

/-- The names in a directory. -/
def namesIn (path : String) : IO (List String) := do
  try
    let dir ← IO.FS.realPath path
    return (← dir.readDir).toList.map (·.fileName)
  catch _ => return []

/-- What kind of thing is at a path, links followed or not. -/
def kindAt? (follow : Bool) (path : String) : IO (Option IO.FS.FileType) := do
  try
    let parts := (← IO.currentDir) / path
    return some (← if follow then parts.metadata else parts.symlinkMetadata).type
  catch _ => return none

mutual

/-- Loads what is at a path. -/
partial def loadEntry (path : String) (isIndex : Bool) : IO (Option Entry) := do
  match ← kindAt? false path with
  | some .dir => return some (.directory (← loadDirectory path))
  | some .file =>
    match ← readFile path with
    | .ok contents =>
      return some (if isIndex then .index (IndexFile.entries? contents) else .file contents)
    | .error e => return some (.sealed (← sizeAt path) e)
  | some .symlink =>
    match ← kindAt? true path with
    | some .file => return some (.outside (← readFile path))
    | _ => return some (.link ⟨[]⟩)
  | _ => return none

/-- Loads a directory; of a repository's own directory only the index. -/
partial def loadDirectory (path : String) : IO Directory := do
  let inRepository := path.endsWith "/.git"
  let mut d := Directory.nil
  for name in ← namesIn path do
    let isIndex := inRepository && name == "index"
    if !inRepository || isIndex then
      match ← loadEntry (path ++ "/" ++ name) isIndex with
      | some e => d := d.set (Bytes.encode name) e
      | none => pure ()
  return d

end

/-- The location that a path spells, seen from a directory. -/
def locationOf (dir : Location) (p : Path) : Location :=
  p.components.foldl (fun l c => match c with
    | .root => []
    | .here => l
    | .parent => l.dropLast
    | .name n => l ++ [n]) dir

/-- Puts what is really at a location into a file system, the way down to it included.  What the
file system has there already stays if `keep` holds. -/
def mount (fs : FileSystem) (l : Location) (keep : Bool) (load : String → IO (Option Entry)) :
    IO FileSystem := do
  if l.isEmpty || (keep && (fs.get? l).isSome) then return fs
  match ← load (String.join (l.map fun n => "/" ++ Bytes.decode n)) with
  | some e => return fs.put l e
  | none => return fs

/-- Loads the files that a run with some settings may look at. -/
def loadFor (s : CommandLine.Settings) : IO FileSystem := do
  let cwd := Path.ofString (← IO.currentDir).toString
  let here := Path.names cwd.components
  let fs : FileSystem := ⟨Directory.nil.put (.directory .nil) here, here⟩
  let output := locationOf here s.output
  let fs ← mount fs output.dropLast true fun path => do
    match ← kindAt? true path with
    | some .dir => return some (.directory .nil)
    | _ => return none
  let fs ← mount fs output true fun path => do
    match ← kindAt? true path with
    | some .dir => return some (.directory .nil)
    | some _ => return some (.file [])
    | none => return none
  mount fs (locationOf here s.repoPath) false fun path => do
    match ← kindAt? true path with
    | some .dir => return some (.directory (← loadDirectory path))
    | some _ => loadEntry path false
    | none => return none

/-- Carries out what a session decided. -/
def carryOut (output? : Option Path) (o : CommandLine.Outcome) : IO UInt32 := do
  let stdout ← IO.getStdout
  stdout.write ⟨o.standardOutput.toArray⟩
  stdout.flush
  for line in o.log do IO.eprintln line.render
  match o.report? with
  | some report => IO.eprintln report
  | none => pure ()
  match output? with
  | some p =>
    if !CommandLine.isStandardOutput p then
      match o.files.read p with
      | .ok contents => IO.FS.writeBinFile p.display ⟨contents.toArray⟩
      | .error _ => pure ()
  | none => pure ()
  return o.exitCode.toUInt32

end SourceChunks

/-- The command. -/
def main (args : List String) : IO UInt32 := do
  let level? ← IO.getEnv "RUST_LOG"
  match SourceChunks.CommandLine.request? args with
  | some (.run s) =>
    let o := SourceChunks.CommandLine.session args (← SourceChunks.loadFor s) level?
    SourceChunks.carryOut (if o.exitCode == 0 then some s.output else none) o
  | _ => SourceChunks.carryOut none (SourceChunks.CommandLine.session args ⟨.nil, []⟩ level?)
