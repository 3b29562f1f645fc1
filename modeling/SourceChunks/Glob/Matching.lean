import SourceChunks.Glob.Basic
import SourceChunks.Text.Bytes

/-!
# Matching names against globs

A name of `n` bytes has `n + 1` places between its bytes.  A part of a glob carries a set of
places, from which it may start, to the set of places at which it may end; a glob matches a name if
its parts carry the first place to the last one.  Sets of places are lists of flags, so matching
takes one pass over the name for each part and never backtracks.

Names are matched byte by byte: `?` takes one byte, and a class is a class of bytes, to which each
character adds all of its bytes.
-/

namespace SourceChunks.Glob

/-- A set of places in a name, one flag for each. -/
abbrev Places := List Bool

namespace Places

/-- The places after one byte of `name` that `accepts` takes. -/
def after (name : Bytes) (accepts : UInt8 → Bool) (ps : Places) : Places :=
  false :: List.zipWith (fun b p => p && accepts b) name ps

/-- The places at or after one of the given ones; `seen` tells whether one has been passed. -/
def onwardFrom (seen : Bool) : Places → Places
  | [] => []
  | p :: ps => (seen || p) :: onwardFrom (seen || p) ps

/-- The places at or after one of the given ones. -/
def onward (ps : Places) : Places := onwardFrom false ps

/-- The places of either set. -/
def union (ps qs : Places) : Places := List.zipWith (· || ·) ps qs

/-- No place of a name with as many places as `ps`. -/
def none (ps : Places) : Places := ps.map fun _ => false

/-- The place before the first byte. -/
def start (name : Bytes) : Places := true :: name.map fun _ => false

/-- Is the place after the last byte in the set? -/
def atEnd (ps : Places) : Bool := ps.getLast?.getD false

end Places

/-- The slash, as a test on bytes. -/
def isSlash (b : UInt8) : Bool := b == 0x2F

/-- Does a byte lie between two others? -/
def isBetween (lo hi b : UInt8) : Bool := lo ≤ b && b ≤ hi

/-- **The bytes of a range.**  The range runs from the last byte of its first character to the
first byte of its last one; their other bytes are members of their own. -/
def Range.holds (r : Range) (b : UInt8) : Bool :=
  let first := String.utf8EncodeChar r.first
  let last := String.utf8EncodeChar r.last
  if r.first = r.last then first.contains b
  else first.dropLast.contains b || last.tail.contains b ||
    isBetween (first.getLast?.getD 0) (last.head?.getD 0) b

/-- Is a byte in a class? -/
def classHolds (negated : Bool) (ranges : List Range) (b : UInt8) : Bool :=
  ranges.any (·.holds b) != negated

/-- The places after a character. -/
def Places.afterChar (name : Bytes) (c : Char) (ps : Places) : Places :=
  (String.utf8EncodeChar c).foldl (fun ps b => ps.after name (· == b)) ps

mutual

/-- Does a part stand for nothing at all?  Only a group does, if all its branches do. -/
def Part.isVoid : Part → Bool
  | .group branches => allVoid branches
  | _ => false

/-- Do all parts stand for nothing? -/
def isVoid : List Part → Bool
  | [] => true
  | p :: ps => p.isVoid && isVoid ps

/-- Do all branches stand for nothing? -/
def allVoid : List (List Part) → Bool
  | [] => true
  | b :: bs => isVoid b && allVoid bs

end

mutual

/-- **Where a part may end** if it starts at one of the given places. -/
def Part.carry (name : Bytes) (ps : Places) : Part → Places
  | .literal c => ps.afterChar name c
  | .any => ps.after name fun _ => true
  | .many => ps.onward
  | .leading => ps.union (ps.onward.after name isSlash)
  | .trailing => (ps.after name isSlash).onward
  | .between =>
    let slashed := ps.after name isSlash
    slashed.union (slashed.onward.after name isSlash)
  | .oneOf negated ranges => ps.after name (classHolds negated ranges)
  | .group branches => if allVoid branches then ps else carryAny name ps branches

/-- Where some parts may end, one after the other. -/
def carryAll (name : Bytes) (ps : Places) : List Part → Places
  | [] => ps
  | p :: rest => carryAll name (p.carry name ps) rest

/-- Where one of the branches may end, void ones apart. -/
def carryAny (name : Bytes) (ps : Places) : List (List Part) → Places
  | [] => ps.none
  | b :: rest =>
    if isVoid b then carryAny name ps rest
    else (carryAll name ps b).union (carryAny name ps rest)

end

/-- Is the glob nothing but `**`? -/
def isEverything (g : Glob) : Bool :=
  match g.parts with
  | [.leading] => true
  | _ => false

/-- **Does a glob match a name?** -/
def isMatch (g : Glob) (name : Bytes) : Bool :=
  g.isEverything || (carryAll name (Places.start name) g.parts).atEnd

end SourceChunks.Glob
