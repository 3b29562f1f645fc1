import SourceChunks.Glob.Basic

/-!
# Reading globs

A glob is read one character at a time, left to right, and the first problem ends the reading.
Outside classes `?`, `*`, `[`, `\` and the braces are special, and a comma is inside a group; every
other character stands for itself.  In a class only `]` after the first place and `-` between two
characters are special.

`**` reaches over components only if it is a whole component: at the start of a branch or after a
slash, and before a slash or the end.  Elsewhere it is two stars.
-/

namespace SourceChunks.Glob

/-- What the next character means. -/
inductive Mode where
  /-- Outside everything. -/
  | plain
  /-- After a backslash. -/
  | escaped
  /-- After one star, which followed `before`. -/
  | star (before : Option Char)
  /-- After two stars, the first of which followed `before`. -/
  | stars (before : Option Char)
  /-- After the bracket that opens a class. -/
  | classOpen
  /-- Inside a class, with the ranges so far, last first.  `start` holds in its first place and
  `dash` after a `-` that may join two characters. -/
  | inClass (negated start dash : Bool) (ranges : List Range)
deriving Repr

/-- An open group: its finished branches and the parts before it, last first. -/
structure OpenGroup where
  branches : List (List Part)
  before : List Part
deriving Repr

/-- **The state of reading** between two characters. -/
structure ReadState where
  /-- What the next character means. -/
  mode : Mode := .plain
  /-- The parts of the present branch, last first. -/
  parts : List Part := []
  /-- The open groups, innermost first. -/
  groups : List OpenGroup := []
  /-- The character before. -/
  last : Option Char := none
deriving Repr

namespace ReadState

/-- Adds a part to the present branch. -/
def push (st : ReadState) (p : Part) : ReadState :=
  { st with mode := .plain, parts := p :: st.parts }

/-- May the stars after `before` be a whole component?  Inside a group they may also follow a
comma or an opening brace. -/
def startsComponent (st : ReadState) (before : Option Char) : Bool :=
  before == some '/' || (!st.groups.isEmpty && (before == some ',' || before == some '\x7b'))

/-- Puts the stars of a component in the place of the separator before them. -/
def pushComponent (st : ReadState) (p : Part) : ReadState :=
  match st.parts with
  | .leading :: _ | .trailing :: _ => { st with mode := .plain }
  | _ :: earlier => { st with mode := .plain, parts := p :: earlier }
  | [] => st.push p

/-- Two stars that are followed by something other than a slash: a glob's end (`next? = none`) or
a character. -/
def closeStars (st : ReadState) (before next? : Option Char) : ReadState :=
  let isEnd := next? == none ||
    (!st.groups.isEmpty && (next? == some ',' || next? == some '\x7d'))
  if st.parts.isEmpty && next? == none then st.push .leading
  else if !st.parts.isEmpty && st.startsComponent before && isEnd then st.pushComponent .trailing
  else (st.push .many).push .many

/-- Ends what the stars before have begun, given what follows them. -/
def settle (st : ReadState) (next? : Option Char) : ReadState :=
  match st.mode with
  | .star _ => st.push .many
  | .stars before => st.closeStars before next?
  | _ => st

/-- A character outside everything. -/
def readPlain (st : ReadState) (c : Char) : Except Problem ReadState :=
  match c with
  | '?' => .ok (st.push .any)
  | '*' => .ok { st with mode := .star st.last }
  | '[' => .ok { st with mode := .classOpen }
  | '\\' => .ok { st with mode := .escaped }
  | '\x7b' => .ok { st with mode := .plain, parts := [], groups := ⟨[], st.parts⟩ :: st.groups }
  | '\x7d' =>
    match st.groups with
    | [] => .error .unopenedGroup
    | g :: outer =>
      let branches := (st.parts.reverse :: g.branches).reverse
      .ok { st with mode := .plain, parts := .group branches :: g.before, groups := outer }
  | ',' =>
    match st.groups with
    | [] => .ok (st.push (.literal ','))
    | g :: outer =>
      .ok { st with
        mode := .plain, parts := [],
        groups := { g with branches := st.parts.reverse :: g.branches } :: outer }
  | c => .ok (st.push (.literal c))

/-- A character inside a class. -/
def readInClass (st : ReadState) (negated start dash : Bool) (ranges : List Range) (c : Char) :
    Except Problem ReadState :=
  if c = ']' && !start then
    let ranges := if dash then ⟨'-', '-'⟩ :: ranges else ranges
    .ok (st.push (.oneOf negated ranges.reverse))
  else if c = '-' && !start && !dash then
    .ok { st with mode := .inClass negated false true ranges }
  else
    match dash, ranges with
    | true, r :: earlier =>
      if c < r.first then .error (.emptyRange r.first c)
      else .ok { st with mode := .inClass negated false false (⟨r.first, c⟩ :: earlier) }
    | _, _ => .ok { st with mode := .inClass negated false false (⟨c, c⟩ :: ranges) }

/-- Reads one character, whatever was before it. -/
def readChar (st : ReadState) (c : Char) : Except Problem ReadState :=
  match st.mode with
  | .plain => st.readPlain c
  | .escaped => .ok (st.push (.literal c))
  | .star before =>
    if c = '*' then .ok { st with mode := .stars before } else (st.settle (some c)).readPlain c
  | .stars before =>
    if c = '/' && st.parts.isEmpty then .ok (st.push .leading)
    else if c = '/' && st.startsComponent before then .ok (st.pushComponent .between)
    else (st.settle (some c)).readPlain c
  | .classOpen =>
    if c = '!' || c = '^' then .ok { st with mode := .inClass true true false [] }
    else st.readInClass false true false [] c
  | .inClass negated start dash ranges => st.readInClass negated start dash ranges c

/-- **One step of reading.** -/
def step (st : ReadState) (c : Char) : Except Problem ReadState :=
  (st.readChar c).map fun st => { st with last := some c }

/-- The glob that has been read once the text ends. -/
def finish (st : ReadState) : Except Problem Glob :=
  match st.mode with
  | .escaped => .error .danglingEscape
  | .classOpen | .inClass .. => .error .unclosedClass
  | _ =>
    if st.groups.isEmpty then .ok ⟨(st.settle none).parts.reverse⟩ else .error .unclosedGroup

end ReadState

/-- **Reads a glob.** -/
def ofString (pattern : String) : Except Problem Glob :=
  (pattern.toList.foldlM ReadState.step {}).bind ReadState.finish

end SourceChunks.Glob
