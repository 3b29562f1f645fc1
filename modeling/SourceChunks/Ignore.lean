import SourceChunks.Glob.Matching
import SourceChunks.Glob.Reader

/-!
# Ignore patterns

A pattern with a `*`, `?` or `[` is a glob, every other one is the very name that it ignores.
A pattern is held against single names of a path, never against a whole path.
-/

namespace SourceChunks

/-- **What a pattern ignores.** -/
inductive IgnorePattern where
  /-- The name itself. -/
  | exact (name : String)
  /-- The names that a glob matches. -/
  | glob (g : Glob)
deriving Repr, Inhabited

namespace IgnorePattern

/-- A pattern that cannot be read, and why. -/
structure Failure where
  pattern : String
  problem : Glob.Problem
deriving DecidableEq, Repr

/-- The text of a failure. -/
def Failure.message (f : Failure) : String :=
  "Invalid ignore pattern \x60" ++ f.pattern ++ "\x60: error parsing glob '" ++ f.pattern ++
    "': " ++ f.problem.message

/-- Is a pattern written as a glob? -/
def isGlob (pattern : String) : Bool :=
  pattern.toList.any fun c => c == '*' || c == '?' || c == '['

/-- **Reads a pattern.** -/
def ofString (pattern : String) : Except Failure IgnorePattern :=
  if isGlob pattern then
    match Glob.ofString pattern with
    | .ok g => .ok (.glob g)
    | .error p => .error ⟨pattern, p⟩
  else .ok (.exact pattern)

/-- Does a pattern ignore a name?  Names that are no text are held against it as they are shown. -/
def ignores (name : Bytes) : IgnorePattern → Bool
  | .exact n => Bytes.decode name == n
  | .glob g => g.isMatch (Bytes.encode (Bytes.decode name))

/-- The patterns that always apply. -/
def defaults : List String :=
  ["node_modules", "build", "dist", ".git", "__pycache__", "*.pyc", "*.log", "target", "vendor"]

/-- **Reads the default patterns and some more**; the first one that cannot be read decides. -/
def withDefaults (extra : List String) : Except Failure (List IgnorePattern) :=
  (defaults ++ extra).mapM ofString

end IgnorePattern

end SourceChunks
