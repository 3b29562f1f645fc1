import SourceChunks.Parsing.Scan

/-!
# Rules of a grammar

A grammar is data: each of its symbols stands for a `Rule`, and a rule is built from lexemes by
sequence, ordered choice, repetition and look-ahead.  `node` and `field` say what a rule
contributes to the tree.  Between two lexemes lies a *gap* of blanks and comments, which is passed
over at once, so a cursor always stands at a lexeme and remembers where the one before it ended.
-/

namespace SourceChunks.Parsing

/-- **Where the parser stands.** -/
structure Cursor where
  /-- The place of the next lexeme. -/
  pos : Nat
  /-- The place after the last lexeme. -/
  last : Nat
deriving DecidableEq, Repr

/-- **A rule** over the symbols `σ`. -/
inductive Rule (σ : Type) where
  /-- Nothing; always there. -/
  | succeed
  /-- Never there. -/
  | fail
  /-- A lexeme and the gap after it. -/
  | token (scan : Scan)
  /-- A lexeme alone: what follows it is not passed over. -/
  | glued (scan : Scan)
  /-- A layout mark and the gap after it. -/
  | mark (m : Mark)
  /-- A condition on the place; nothing is read. -/
  | test (holds : Input → Cursor → Bool)
  /-- One rule after another. -/
  | both (a b : Rule σ)
  /-- The first of two rules that fits. -/
  | either (a b : Rule σ)
  /-- A rule as often as it fits. -/
  | many (a : Rule σ)
  /-- Nothing, provided that the rule fits here. -/
  | ahead (a : Rule σ)
  /-- Nothing, provided that the rule does not fit here. -/
  | absent (a : Rule σ)
  /-- A rule whose range becomes a node. -/
  | node (kind : String) (a : Rule σ)
  /-- A rule whose outermost nodes play a part in the node around them. -/
  | field (name : String) (a : Rule σ)
  /-- The rule of a symbol. -/
  | call (s : σ)

namespace Rule

variable {σ : Type}

/-- Rules one after the other. -/
def seq (rs : List (Rule σ)) : Rule σ := rs.foldr both succeed

/-- The first of some rules that fits. -/
def oneOf (rs : List (Rule σ)) : Rule σ := rs.foldr either fail

/-- A rule or nothing. -/
def opt (a : Rule σ) : Rule σ := either a succeed

/-- Rules one after the other, or nothing. -/
def optSeq (rs : List (Rule σ)) : Rule σ := opt (seq rs)

/-- A rule once or more. -/
def many1 (a : Rule σ) : Rule σ := both a (many a)

/-- Rules one after the other, any number of times. -/
def manySeq (rs : List (Rule σ)) : Rule σ := many (seq rs)

/-- A rule once or more, with a separator between two neighbours. -/
def sepBy1 (a sep : Rule σ) : Rule σ := both a (many (both sep a))

/-- A punctuation mark. -/
def sym (s : String) : Rule σ := token (Scan.text s)

/-- A punctuation mark that none of the given characters follows. -/
def symNot (s : String) (next : List Char) : Rule σ :=
  token (Scan.andThen (Scan.text s) (Scan.absent (Scan.satisfy next.contains)))

/-- One of some punctuation marks, the first that fits. -/
def syms (ss : List String) : Rule σ := token (Scan.texts ss)

/-- A rule with a comma between two neighbours, and possibly one at the end. -/
def commas1 (a : Rule σ) : Rule σ := both (sepBy1 a (sym ",")) (opt (sym ","))

/-- `commas1` or nothing. -/
def commas (a : Rule σ) : Rule σ := opt (commas1 a)

/-- A rule in parentheses. -/
def parens (a : Rule σ) : Rule σ := seq [sym "(", a, sym ")"]

/-- A rule in square brackets. -/
def brackets (a : Rule σ) : Rule σ := seq [sym "[", a, sym "]"]

/-- A rule in braces. -/
def braces (a : Rule σ) : Rule σ := seq [sym "\x7b", a, sym "\x7d"]

/-- A rule, provided that another one does not fit at the same place. -/
def except (a b : Rule σ) : Rule σ := both (absent b) a

/-- Nothing, provided that the input ends here. -/
def atEnd : Rule σ := test fun t c => decide (t.size ≤ c.pos)

instance : Coe String (Rule σ) := ⟨sym⟩

end Rule

/-- **A grammar** over the symbols `σ`. -/
structure Grammar (σ : Type) where
  /-- A number for each symbol, different for different symbols. -/
  index : σ → Nat
  /-- The rule of each symbol. -/
  rule : σ → Rule σ
  /-- The place after the blanks and comments that begin at a place. -/
  gap : Input → Nat → Nat
  /-- The kind of the root node. -/
  root : String
  /-- What may stand before the first item. -/
  opening : Rule σ
  /-- One item of the outermost sequence. -/
  item : Rule σ
  /-- An item that lacks its end: its nodes are kept, but the text has an error. -/
  unfinished : Rule σ := .fail
  /-- Adds the layout marks to a text. -/
  layout : List Char → Input := Input.ofChars

end SourceChunks.Parsing
