import SourceChunks.Text.Bytes
import SourceChunks.Text.Lines

/-!
# Paths

A path is kept as it was written, byte for byte; its *components* give it meaning.  Repeated and
trailing slashes and inner `.` segments name nothing, a leading `.` and every `..` are components
of their own.
-/

namespace SourceChunks

/-- **A path** as it was written. -/
structure Path where
  /-- The bytes of the path. -/
  bytes : Bytes
deriving DecidableEq, Repr, Inhabited

namespace Path

/-- What one step of a path means. -/
inductive Component where
  /-- The leading `/` of an absolute path. -/
  | root
  /-- A leading `.`. -/
  | here
  /-- The segment `..`. -/
  | parent
  /-- A name. -/
  | name (segment : Bytes)
deriving DecidableEq, Repr

/-- The byte `/`. -/
def slash : UInt8 := 0x2F

/-- The byte `.`. -/
def dot : UInt8 := 0x2E

/-- The path that a text spells. -/
def ofString (s : String) : Path := ⟨Bytes.encode s⟩

/-- The path as text, with U+FFFD for what is no text. -/
def display (p : Path) : String := Bytes.decode p.bytes

/-- A path that starts at the root of the file system. -/
def isAbsolute (p : Path) : Bool := p.bytes.head? == some slash

/-- What a segment after the first one means: nothing for an empty one and for `.`. -/
def component? (segment : Bytes) : Option Component :=
  if segment = [] ∨ segment = [dot] then none
  else if segment = [dot, dot] then some .parent
  else some (.name segment)

/-- The components of a path, in order. -/
def components (p : Path) : List Component :=
  match splitAt slash p.bytes with
  | [] => []
  | first :: rest =>
    let tail := rest.filterMap component?
    if p.isAbsolute then .root :: tail
    else if first = [dot] then .here :: tail
    else (component? first).toList ++ tail

/-- The last component, if it is a name. -/
def fileName? (p : Path) : Option Bytes :=
  match p.components.getLast? with
  | some (.name n) => some n
  | _ => none

/-- The part of a file name after its last dot, unless that dot is the first byte. -/
def extensionOf? (name : Bytes) : Option Bytes :=
  match (splitAt dot name).reverse with
  | [] | [_] => none
  | [ext, stem] => if stem = [] then none else some ext
  | ext :: _ => some ext

/-- The extension of a path: that of its file name. -/
def extension? (p : Path) : Option Bytes := p.fileName?.bind extensionOf?

/-- `rel` as seen from `dir`: an absolute `rel` stands for itself. -/
def join (dir rel : Path) : Path :=
  if rel.isAbsolute then rel
  else if dir.bytes = [] ∨ dir.bytes.getLast? = some slash then ⟨dir.bytes ++ rel.bytes⟩
  else ⟨dir.bytes ++ slash :: rel.bytes⟩

/-- The components that are left of `cs` after those of `dir`, if `cs` begins with them. -/
def dropComponents? : List Component → List Component → Option (List Component)
  | [], cs => some cs
  | _ :: _, [] => none
  | d :: ds, c :: cs => if d = c then dropComponents? ds cs else none

/-- The components of `p` below `dir`; all of them if `p` does not lie below `dir`. -/
def below (dir p : Path) : List Component :=
  (dropComponents? dir.components p.components).getD p.components

/-- The names among some components. -/
def names (cs : List Component) : List Bytes :=
  cs.filterMap fun c => match c with
    | .name n => some n
    | _ => none

/-- The path of `p` below `root`: its names there as text, with `/` between them. -/
def relativeTo (root p : Path) : String :=
  String.intercalate "/" ((names (below root p)).map Bytes.decode)

end Path

end SourceChunks
