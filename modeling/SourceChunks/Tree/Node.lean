/-!
# Trees of parsed text

A node covers a range of the text, given by the offsets of its first character and of the
character after its last one, and holds the nodes inside that range.  A node may have a *field*:
the part it plays in the node around it.  `isNested` says that every range lies in the range
around it; rows are derived from offsets, so they agree with the text by definition.
-/

namespace SourceChunks

/-- **A node of a parsed text.** -/
inductive SyntaxNode where
  /-- Word of the grammar for the node, the part it plays in its parent, its range, its
  children in order. -/
  | mk (kind : String) (field : Option String) (start stop : Nat) (children : List SyntaxNode)

namespace SyntaxNode

/-- The grammar's word for the node. -/
def kind : SyntaxNode → String
  | mk k _ _ _ _ => k

/-- The part the node plays in its parent. -/
def field : SyntaxNode → Option String
  | mk _ f _ _ _ => f

/-- Offset of the first character. -/
def start : SyntaxNode → Nat
  | mk _ _ s _ _ => s

/-- Offset after the last character. -/
def stop : SyntaxNode → Nat
  | mk _ _ _ e _ => e

/-- The nodes directly inside. -/
def children : SyntaxNode → List SyntaxNode
  | mk _ _ _ _ cs => cs

/-- The node in a given part of its parent. -/
def withField (f : String) : SyntaxNode → SyntaxNode
  | mk k _ s e cs => mk k (some f) s e cs

mutual

/-- The node with its offsets moved by `f`. -/
def moveWith (f : Nat → Nat) : SyntaxNode → SyntaxNode
  | mk k fl s e cs => mk k fl (f s) (f e) (moveAllWith f cs)

/-- The nodes with their offsets moved by `f`. -/
def moveAllWith (f : Nat → Nat) : List SyntaxNode → List SyntaxNode
  | [] => []
  | n :: ns => moveWith f n :: moveAllWith f ns

end

mutual

/-- The node lies between two offsets, and every node inside it lies in the range around it. -/
def isNested (lo hi : Nat) : SyntaxNode → Bool
  | mk _ _ s e cs => decide (lo ≤ s) && decide (s ≤ e) && decide (e ≤ hi) && allNested s e cs

/-- Every node of the list is nested between two offsets. -/
def allNested (lo hi : Nat) : List SyntaxNode → Bool
  | [] => true
  | n :: ns => isNested lo hi n && allNested lo hi ns

end

theorem isNested_whole (kind : String) (field : Option String) (size : Nat)
    (children : List SyntaxNode) :
    (mk kind field 0 size children).isNested 0 size = allNested 0 size children := by
  simp [isNested]

end SyntaxNode

/-- A node together with the way to it: the child numbers from the root, last one first. -/
structure PlacedNode where
  /-- Child numbers on the way from the root, last one first. -/
  way : List Nat
  /-- The node itself. -/
  node : SyntaxNode

namespace PlacedNode

/-- Is `p` the node directly around `c`? -/
def isParentOf (p c : PlacedNode) : Bool := c.way.tail? == some p.way

/-- The children of a placed node, numbered from `i`. -/
def number (way : List Nat) : Nat → List SyntaxNode → List PlacedNode
  | _, [] => []
  | i, n :: ns => ⟨i :: way, n⟩ :: number way (i + 1) ns

/-- The nodes directly inside a placed node. -/
def children (p : PlacedNode) : List PlacedNode := number p.way 0 p.node.children

end PlacedNode

mutual

/-- The node and all nodes below it, each before the nodes inside it. -/
def SyntaxNode.descendants (way : List Nat) : SyntaxNode → List PlacedNode
  | .mk k f s e cs => ⟨way, .mk k f s e cs⟩ :: descendantsOfAll way 0 cs

/-- The nodes of a list, numbered from `i`, and all nodes below them. -/
def SyntaxNode.descendantsOfAll (way : List Nat) (i : Nat) : List SyntaxNode → List PlacedNode
  | [] => []
  | n :: ns => n.descendants (i :: way) ++ descendantsOfAll way (i + 1) ns

end

/-- **A parsed text**: its root node, and whether some part of the text fits no rule. -/
structure SyntaxTree where
  /-- The node of the whole text. -/
  root : SyntaxNode
  /-- Does some part of the text fit no rule? -/
  hasError : Bool

namespace SyntaxTree

/-- All nodes, each before the nodes inside it. -/
def nodes (t : SyntaxTree) : List PlacedNode := t.root.descendants []

/-- The line of an offset: the line feeds before it. -/
def rowAt (text : List Char) (offset : Nat) : Nat := (text.take offset).count '\n'

/-- The text of a node. -/
def textOf (text : List Char) (n : SyntaxNode) : String :=
  String.ofList ((text.drop n.start).take (n.stop - n.start))

end SyntaxTree

end SourceChunks
