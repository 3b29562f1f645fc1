import Std.Data.TreeMap
import SourceChunks.Parsing.Rule
import SourceChunks.Tree.Node

/-!
# Running a grammar

`run` applies a rule at a cursor.  Ordered choice tries again from the same place, so the outcome
of each symbol at each place is remembered in a search tree and is worked out only once.  The fuel
bounds the depth of nested rules; `Grammar.parse` gives enough of it.

The outermost sequence never fails: where no item fits, an item that lacks its end is kept or one
lexeme is passed over, the tree is marked as having an error, and the sequence goes on behind it.
The tree that `parse` returns is
checked: every node lies in the range of the node around it.
-/

namespace SourceChunks.Parsing

/-- What a rule that fits leaves behind. -/
structure Found where
  /-- Where the parser stands after it. -/
  cursor : Cursor
  /-- The nodes that it contributes, in order. -/
  nodes : List SyntaxNode

/-- Outcomes of symbols at places. -/
abbrev Memo := Std.TreeMap Nat (Option Found)

variable {σ : Type}

/-- Reads a lexeme and moves the cursor behind it and the gap after it. -/
def Cursor.readToken (g : Grammar σ) (t : Input) (scan : Scan) (c : Cursor) : Option Cursor :=
  (scan t c.pos).map fun stop => ⟨g.gap t stop, stop⟩

/-- The key of a symbol at a cursor. -/
def memoKey (g : Grammar σ) (t : Input) (s : σ) (c : Cursor) : Nat :=
  (g.index s * (t.size + 1) + c.pos) * (t.size + 1) + c.last

mutual

/-- Applies a rule at a cursor. -/
def run (g : Grammar σ) (t : Input) : Nat → Rule σ → Cursor → Memo → Option Found × Memo
  | 0, _, _, memo => (none, memo)
  | fuel + 1, rule, c, memo =>
    match rule with
    | .succeed => (some ⟨c, []⟩, memo)
    | .fail => (none, memo)
    | .token scan => ((c.readToken g t scan).map (⟨·, []⟩), memo)
    | .glued scan => ((scan t c.pos).map fun stop => ⟨⟨stop, stop⟩, []⟩, memo)
    | .mark m =>
      if t.mark? c.pos = some m then (some ⟨⟨g.gap t (c.pos + 1), c.pos + 1⟩, []⟩, memo)
      else (none, memo)
    | .test holds => (if holds t c then some ⟨c, []⟩ else none, memo)
    | .both a b =>
      match run g t fuel a c memo with
      | (none, memo) => (none, memo)
      | (some first, memo) =>
        match run g t fuel b first.cursor memo with
        | (none, memo) => (none, memo)
        | (some second, memo) => (some ⟨second.cursor, first.nodes ++ second.nodes⟩, memo)
    | .either a b =>
      match run g t fuel a c memo with
      | (some found, memo) => (some found, memo)
      | (none, memo) => run g t fuel b c memo
    | .many a => runMany g t fuel a c [] memo
    | .ahead a =>
      match run g t fuel a c memo with
      | (some _, memo) => (some ⟨c, []⟩, memo)
      | (none, memo) => (none, memo)
    | .absent a =>
      match run g t fuel a c memo with
      | (some _, memo) => (none, memo)
      | (none, memo) => (some ⟨c, []⟩, memo)
    | .node kind a =>
      match run g t fuel a c memo with
      | (none, memo) => (none, memo)
      | (some found, memo) =>
        if c.pos < found.cursor.last then
          (some ⟨found.cursor, [.mk kind none c.pos found.cursor.last found.nodes]⟩, memo)
        else (some found, memo)
    | .field name a =>
      match run g t fuel a c memo with
      | (none, memo) => (none, memo)
      | (some found, memo) => (some ⟨found.cursor, found.nodes.map (·.withField name)⟩, memo)
    | .call s =>
      let key := memoKey g t s c
      match memo[key]? with
      | some outcome => (outcome, memo)
      | none =>
        let (outcome, memo) := run g t fuel (g.rule s) c memo
        (outcome, memo.insert key outcome)

/-- Applies a rule as often as it fits and moves on, with the nodes so far last one first. -/
def runMany (g : Grammar σ) (t : Input) :
    Nat → Rule σ → Cursor → List SyntaxNode → Memo → Option Found × Memo
  | 0, _, c, acc, memo => (some ⟨c, acc.reverse⟩, memo)
  | fuel + 1, a, c, acc, memo =>
    match run g t fuel a c memo with
    | (none, memo) => (some ⟨c, acc.reverse⟩, memo)
    | (some found, memo) =>
      if c.pos < found.cursor.pos then
        runMany g t fuel a found.cursor (found.nodes.reverse ++ acc) memo
      else (some ⟨c, acc.reverse⟩, memo)

end

/-- A lexeme that is passed over where nothing fits: a word, a mark or one other character. -/
def stray : Scan :=
  Scan.orElse (Scan.run1 fun c => c.isAlphanum || c == '_') fun t i =>
    if i < t.size then some (i + 1) else none

/-- What a rule leaves behind, provided that it moves on. -/
def runOnward (g : Grammar σ) (t : Input) (depth : Nat) (rule : Rule σ) (c : Cursor) (memo : Memo) :
    Option Found × Memo :=
  let (outcome, memo) := run g t depth rule c memo
  (outcome.filter fun found => decide (c.pos < found.cursor.pos), memo)

/-- The outermost sequence: items as long as they fit; where none does, an unfinished item is kept
or a stray lexeme is passed over.  Returns the nodes, last one first, and whether every item
fitted. -/
def runItems (g : Grammar σ) (t : Input) (depth : Nat) :
    Nat → Cursor → List SyntaxNode → Bool → Memo → List SyntaxNode × Bool
  | 0, _, acc, _, _ => (acc, true)
  | fuel + 1, c, acc, hasError, memo =>
    if t.size ≤ c.pos then (acc, hasError)
    else
      match runOnward g t depth g.item c memo with
      | (some found, memo) =>
        runItems g t depth fuel found.cursor (found.nodes.reverse ++ acc) hasError memo
      | (none, memo) =>
        match runOnward g t depth g.unfinished c memo with
        | (some found, memo) =>
          runItems g t depth fuel found.cursor (found.nodes.reverse ++ acc) true memo
        | (none, memo) =>
          match c.readToken g t stray with
          | some c' => runItems g t depth fuel c' acc true memo
          | none => (acc, true)

/-- Depth of nested rules that a text of `n` glyphs can need. -/
def depthFor (n : Nat) : Nat := (n + 2) * 2000

/-- **Parses a text.** -/
def Grammar.parse (g : Grammar σ) (text : List Char) : SyntaxTree :=
  let t := g.layout text
  let start : Cursor := ⟨g.gap t 0, 0⟩
  let (opening, memo) := run g t (depthFor t.size) g.opening start {}
  let c := (opening.map (·.cursor)).getD start
  let (nodes, hasError) := runItems g t (depthFor t.size) (t.size + 1) c [] false memo
  let places := t.offsets
  let children := SyntaxNode.moveAllWith (fun i => places.getD i text.length) nodes.reverse
  if SyntaxNode.allNested 0 text.length children then
    ⟨.mk g.root none 0 text.length children, hasError⟩
  else ⟨.mk g.root none 0 text.length [], true⟩

/-- **The tree of a parsed text is nested**: it was checked, and one that was not was given up. -/
theorem Grammar.isNested_parse (g : Grammar σ) (text : List Char) :
    (g.parse text).root.isNested 0 text.length = true := by
  unfold Grammar.parse
  dsimp only
  split
  · rename_i hnested
    rw [SyntaxNode.isNested_whole]
    exact hnested
  · rw [SyntaxNode.isNested_whole]
    rfl

end SourceChunks.Parsing
