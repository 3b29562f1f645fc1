import SourceChunks.Tree.Places

/-!
# Queries and parsers

A query finds matches in the tree of a text; a match is a list of captured nodes.  What is
made of a text, and which queries can be read, is up to the parser of its language
(`Parser`); but the nodes of a tree lie in the nodes around them, and a query captures
nothing but nodes of the tree (`Query`).

The queries that are read here are lists of patterns.  A pattern is written `(kind item …)` and may
be followed by captures `@name`; an item is a pattern, possibly after the field it stands in,
`field: (…)`.  A pattern matches a node of its kind whose children match the items in order;
children in between are passed over, so one node can match in several ways.  Each way is a list of
captures, an outer node before the nodes inside it.
-/

namespace SourceChunks

/-- **A pattern of a query.** -/
inductive Pattern where
  /-- The kind of the node, the field it stands in, the patterns of its children in order, the
  names it is captured under. -/
  | node (kind : String) (field : Option String) (items : List Pattern) (captures : List String)

/-- A captured node. -/
structure Capture where
  /-- The name it is captured under. -/
  name : String
  /-- The node. -/
  place : PlacedNode

namespace Pattern

/-- Each element with those after it. -/
def withLater : List α → List (α × List α)
  | [] => []
  | a :: as => (a, as) :: withLater as

mutual

/-- The ways in which a pattern matches a node. -/
def matchNode (p : PlacedNode) : Pattern → List (List Capture)
  | .node kind field items captures =>
    if p.node.kind = kind ∧ (field = none ∨ field = p.node.field) then
      (matchItems p.children items).map (captures.map (Capture.mk · p) ++ ·)
    else []

/-- The ways in which patterns match some of the nodes `ps`, in order. -/
def matchItems (ps : List PlacedNode) : List Pattern → List (List Capture)
  | [] => [[]]
  | item :: items =>
    (withLater ps).flatMap fun (q, later) =>
      (matchNode q item).flatMap fun first => (matchItems later items).map (first ++ ·)

end

end Pattern

/-! ### What patterns capture -/

namespace Pattern

theorem mem_of_mem_withLater {α : Type} {as later : List α} {a : α}
    (h : (a, later) ∈ withLater as) : a ∈ as ∧ later ⊆ as := by
  induction as with
  | nil => exact absurd h List.not_mem_nil
  | cons b bs ih =>
    rw [withLater] at h
    rcases List.mem_cons.mp h with h | h
    · obtain ⟨rfl, rfl⟩ := Prod.mk.inj h
      exact ⟨List.mem_cons_self, List.subset_cons_self a later⟩
    · obtain ⟨hmem, hsub⟩ := ih h
      exact ⟨List.mem_cons_of_mem b hmem, List.Subset.trans hsub (List.subset_cons_self b bs)⟩

section Inversion

variable {captures : List Capture}

theorem mem_matchNode {p : PlacedNode} {kind : String} {field : Option String}
    {items : List Pattern} {names : List String} :
    captures ∈ matchNode p (.node kind field items names) ↔
      (p.node.kind = kind ∧ (field = none ∨ field = p.node.field)) ∧
        ∃ inner ∈ matchItems p.children items, captures = names.map (Capture.mk · p) ++ inner := by
  rw [matchNode]
  by_cases hfits : p.node.kind = kind ∧ (field = none ∨ field = p.node.field)
  · rw [if_pos hfits]
    simp only [hfits, true_and, List.mem_map, eq_comm]
  · rw [if_neg hfits]
    simp only [hfits, false_and, List.not_mem_nil]

theorem mem_matchItems_cons {ps : List PlacedNode} {item : Pattern} {items : List Pattern} :
    captures ∈ matchItems ps (item :: items) ↔
      ∃ p later, (p, later) ∈ withLater ps ∧ ∃ first ∈ matchNode p item,
        ∃ rest ∈ matchItems later items, captures = first ++ rest := by
  rw [matchItems]
  simp only [List.mem_flatMap, List.mem_map, Prod.exists, eq_comm]

theorem mem_matchItems_nil {ps : List PlacedNode} :
    captures ∈ matchItems ps [] ↔ captures = [] := by
  rw [matchItems, List.mem_singleton]

end Inversion

variable {P : PlacedNode → Prop}

mutual

/-- **What passes from nodes to their children holds of all captured nodes**, by induction on the
pattern and its items. -/
theorem forall_place_matchNode (hchildren : ∀ p, P p → ∀ q ∈ p.children, P q) {p : PlacedNode}
    (hp : P p) (pattern : Pattern) {captures : List Capture}
    (hmem : captures ∈ pattern.matchNode p) : ∀ c ∈ captures, P c.place := by
  obtain ⟨kind, field, items, names⟩ := pattern
  obtain ⟨-, inner, hinner, rfl⟩ := mem_matchNode.mp hmem
  intro c hc
  rcases List.mem_append.mp hc with hc | hc
  · obtain ⟨name, -, rfl⟩ := List.mem_map.mp hc
    exact hp
  · exact forall_place_matchItems hchildren (hchildren p hp) items hinner c hc

theorem forall_place_matchItems (hchildren : ∀ p, P p → ∀ q ∈ p.children, P q)
    {ps : List PlacedNode} (hps : ∀ p ∈ ps, P p) (patterns : List Pattern)
    {captures : List Capture} (hmem : captures ∈ matchItems ps patterns) :
    ∀ c ∈ captures, P c.place := by
  cases patterns with
  | nil =>
    obtain rfl := mem_matchItems_nil.mp hmem
    exact fun c hc => absurd hc List.not_mem_nil
  | cons pattern patterns =>
    obtain ⟨p, later, hp, first, hfirst, rest, hrest, rfl⟩ := mem_matchItems_cons.mp hmem
    obtain ⟨hmemp, hlater⟩ := mem_of_mem_withLater hp
    intro c hc
    rcases List.mem_append.mp hc with hc | hc
    · exact forall_place_matchNode hchildren (hps p hmemp) pattern hfirst c hc
    · exact forall_place_matchItems hchildren (fun q hq => hps q (hlater hq)) patterns hrest c hc

end

end Pattern

namespace Query

/-! ### Reading a query -/

/-- A word or mark of a query's text. -/
inductive Token where
  | lparen
  | rparen
  | colon
  /-- `@` with the name that follows it. -/
  | capture (name : String)
  | word (text : String)
deriving DecidableEq, Repr

/-- Characters of the words of a query. -/
def isWordChar (c : Char) : Bool := c.isAlphanum || c == '_' || c == '-' || c == '.'

/-- The words and marks of a query's text; `none` if some character belongs to neither. -/
def tokens? : Nat → List Char → Option (List Token)
  | _, [] => some []
  | 0, _ => none
  | fuel + 1, c :: cs =>
    if c == ' ' || c == '\n' || c == '\t' || c == '\r' then tokens? fuel cs
    else if c == '(' then (tokens? fuel cs).map (.lparen :: ·)
    else if c == ')' then (tokens? fuel cs).map (.rparen :: ·)
    else if c == ':' then (tokens? fuel cs).map (.colon :: ·)
    else if c == '@' then
      let name := cs.takeWhile isWordChar
      if name.isEmpty then none
      else (tokens? fuel (cs.dropWhile isWordChar)).map (.capture (String.ofList name) :: ·)
    else if isWordChar c then
      (tokens? fuel (cs.dropWhile isWordChar)).map
        (.word (String.ofList (c :: cs.takeWhile isWordChar)) :: ·)
    else none

/-- The captures at the head of a token list, and what follows them. -/
def takeCaptures : List Token → List String × List Token
  | .capture n :: rest => let (ns, rest') := takeCaptures rest; (n :: ns, rest')
  | rest => ([], rest)

mutual

/-- Reads one pattern that stands in `field`, with the tokens after it. -/
def readPattern? (field : Option String) : Nat → List Token → Option (Pattern × List Token)
  | 0, _ => none
  | fuel + 1, .lparen :: .word kind :: rest =>
    match readItems? fuel rest with
    | some (items, .rparen :: rest') =>
      let (captures, rest'') := takeCaptures rest'
      some (.node kind field items captures, rest'')
    | _ => none
  | _ + 1, _ => none

/-- Reads patterns, each possibly after the field it stands in, as far as they go. -/
def readItems? : Nat → List Token → Option (List Pattern × List Token)
  | 0, _ => none
  | fuel + 1, .lparen :: rest =>
    match readPattern? none fuel (.lparen :: rest) with
    | some (p, rest') => (readItems? fuel rest').map fun (ps, r) => (p :: ps, r)
    | none => none
  | fuel + 1, .word f :: .colon :: rest =>
    match readPattern? (some f) fuel rest with
    | some (p, rest') => (readItems? fuel rest').map fun (ps, r) => (p :: ps, r)
    | none => none
  | _ + 1, rest => some ([], rest)

end

/-- Words that a grammar knows. -/
structure Vocabulary where
  /-- Kinds of nodes. -/
  kinds : List String
  /-- Fields. -/
  fields : List String

mutual

/-- Does a pattern use only words that the grammar knows? -/
def Vocabulary.admits (v : Vocabulary) : Pattern → Bool
  | .node kind field items _ =>
    v.kinds.contains kind && (field.map v.fields.contains).getD true && v.admitsAll items

/-- Do patterns use only words that the grammar knows? -/
def Vocabulary.admitsAll (v : Vocabulary) : List Pattern → Bool
  | [] => true
  | p :: ps => v.admits p && v.admitsAll ps

end

end Query

/-- **A query.** -/
structure Query where
  /-- The text it was read from. -/
  source : String
  /-- Its matches in the tree of a text, each as the nodes that it captures. -/
  matchesIn : List Char → SyntaxTree → List (List Capture)
  /-- What is captured are nodes of the tree. -/
  place_mem_nodes : ∀ text tree, ∀ captures ∈ matchesIn text tree, ∀ c ∈ captures,
    c.place ∈ tree.nodes

namespace Query

/-- The matches of patterns in document order: nodes in order of the tree, an outer node before the
nodes inside it, and all ways to match a node together. -/
def matchesOf (patterns : List Pattern) (t : SyntaxTree) : List (List Capture) :=
  t.nodes.flatMap fun p => patterns.flatMap (·.matchNode p)

/-- Patterns start at a node of the tree and go on to children. -/
theorem place_mem_nodes_of_mem_matchesOf {patterns : List Pattern} {t : SyntaxTree}
    {captures : List Capture} (hmem : captures ∈ matchesOf patterns t) :
    ∀ c ∈ captures, c.place ∈ t.nodes := by
  obtain ⟨p, hp, hmem⟩ := List.mem_flatMap.mp hmem
  obtain ⟨pattern, -, hmem⟩ := List.mem_flatMap.mp hmem
  exact Pattern.forall_place_matchNode (P := (· ∈ t.nodes))
    (fun _ hp _ hq => PlacedNode.mem_nodes_of_mem_children hp hq) hp pattern hmem

/-- The query of some patterns, which look at the tree alone. -/
def ofPatterns (source : String) (patterns : List Pattern) : Query where
  source := source
  matchesIn _ t := matchesOf patterns t
  place_mem_nodes _ _ _ hmem := place_mem_nodes_of_mem_matchesOf hmem

/-- **Reads a query** for a grammar; `none` if the text is malformed or uses a word that the
grammar does not know. -/
def compile? (v : Vocabulary) (source : String) : Option Query := do
  let cs := source.toList
  let ts ← tokens? (cs.length + 1) cs
  let (patterns, rest) ← readItems? (2 * ts.length + 2) ts
  if rest.isEmpty && patterns.all (fun p => match p with | .node _ f _ _ => f.isNone)
      && v.admitsAll patterns then
    some (ofPatterns source patterns)
  else none

end Query

/-- **A parser** of some language. -/
structure Parser where
  /-- Parses a text. -/
  parse : List Char → SyntaxTree
  /-- Reads a query, if its text is well formed and uses only words that the language knows. -/
  compile? : String → Option Query
  /-- Each node lies in the range of the node around it. -/
  isNested_parse : ∀ text, (parse text).root.isNested 0 text.length = true

end SourceChunks
