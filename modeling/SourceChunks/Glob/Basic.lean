/-!
# Globs

A glob is a list of parts that a name has to be made of, one after the other.  Groups of
alternatives nest, so parts, globs and lists of alternatives are read together.
-/

namespace SourceChunks

namespace Glob

/-- A range of characters, both ends included. -/
structure Range where
  first : Char
  last : Char
deriving DecidableEq, Repr

/-- **One part of a glob.** -/
inductive Part where
  /-- A character that stands for itself. -/
  | literal (c : Char)
  /-- `?`: one byte. -/
  | any
  /-- `*`: any run of bytes. -/
  | many
  /-- `**` as the first component: any number of leading components. -/
  | leading
  /-- `**` as the last component: everything below. -/
  | trailing
  /-- `**` as an inner component: any number of components. -/
  | between
  /-- `[..]` or `[!..]`: one byte of a class. -/
  | oneOf (negated : Bool) (ranges : List Range)
  /-- `{.., ..}`: one of several globs. -/
  | group (branches : List (List Part))
deriving Repr, Inhabited

/-- Why a text is no glob. -/
inductive Problem where
  /-- A class without its `]`. -/
  | unclosedClass
  /-- A range whose ends are in the wrong order. -/
  | emptyRange (first last : Char)
  /-- A group without its closing brace. -/
  | unclosedGroup
  /-- A closing brace without a group. -/
  | unopenedGroup
  /-- A backslash at the end. -/
  | danglingEscape
deriving DecidableEq, Repr

/-- The text of a problem. -/
def Problem.message : Problem → String
  | .unclosedClass => "unclosed character class; missing ']'"
  | .emptyRange a b => "invalid range; '" ++ a.toString ++ "' > '" ++ b.toString ++ "'"
  | .unclosedGroup =>
    "unclosed alternate group; missing '\x7d' (maybe escape '\x7b' with '[\x7b]'?)"
  | .unopenedGroup =>
    "unopened alternate group; missing '\x7b' (maybe escape '\x7d' with '[\x7d]'?)"
  | .danglingEscape => "dangling '\\'"

end Glob

/-- **A glob**: the parts of a name in order. -/
structure Glob where
  parts : List Glob.Part
deriving Repr, Inhabited

end SourceChunks
