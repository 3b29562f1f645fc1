import SourceChunks.Proofs.Chunk.Clamping
import SourceChunks.Proofs.Chunk.Shapes
import SourceChunks.Proofs.Chunk.UnitNames
import SourceChunks.Proofs.Tree.Ranges

/-!
# Chunks and the nodes they are cut for

The rows of a node count line feeds before its two ends, and the lines of a file are what stands
between line feeds.  So the lines that a unit spans are those that its node begins in, lies on and
ends in: the text of the chunk is the text of the node with the rest of its first line before it and
the rest of its last line behind it (`SourceFile.exists_around_node`).  A node that ends behind a
line feed ends in the next line, at its beginning; a carriage return is a character like any other.

Rows of a text are lines of the file, so nothing is clamped, and a unit is named by a child of its
node, whose text stands in the text of the node.
-/

namespace SourceChunks

/-! ### Rows and lines -/

namespace SyntaxTree

/-- The rows that a node begins and ends in. -/
def rowsOf (text : List Char) (n : SyntaxNode) : LineSpan :=
  ⟨rowAt text n.start, rowAt text n.stop⟩

variable {n : SyntaxNode}

theorem append_textOf_append (text : List Char) (n : SyntaxNode) :
    text.take n.start ++ ((textOf text n).toList ++ (text.drop n.start).drop (n.stop - n.start))
      = text := by
  rw [toList_textOf, List.take_append_drop, List.take_append_drop]

theorem rowAt_stop (text : List Char) (hle : n.start ≤ n.stop) :
    rowAt text n.stop = rowAt text n.start + (textOf text n).toList.count '\n' := by
  have htake : text.take n.stop = text.take n.start ++ (textOf text n).toList := by
    rw [toList_textOf, ← List.take_add]
    congr 1
    omega
  rw [rowAt, htake, List.count_append]
  rfl

end SyntaxTree

namespace SourceFile

variable {f : SourceFile} {n : SyntaxNode}

/-- A row of the text is a line of the file, also for an offset behind the last character. -/
theorem rowAt_lt_lineCount (hlines : f.lines = linesOf f.content) (offset : Nat) :
    SyntaxTree.rowAt f.content.toList offset < f.lineCount := by
  have hcount : SyntaxTree.rowAt f.content.toList offset ≤ f.content.toList.count '\n' :=
    (List.take_sublist offset _).count_le '\n'
  rw [lineCount_eq hlines]
  omega

/-- **The rows of a node are not clamped.** -/
theorem clamp_rowsOf (hlines : f.lines = linesOf f.content) (hle : n.start ≤ n.stop) :
    (SyntaxTree.rowsOf f.content.toList n).clamp f.lineCount
      = SyntaxTree.rowsOf f.content.toList n :=
  LineSpan.clamp_of_lt (SyntaxTree.rowAt_mono _ hle) (rowAt_lt_lineCount hlines _)

/-- **The lines of a node** are its text between the rest of a line before it and the rest of a line
behind it. -/
theorem exists_around_node (hlines : f.lines = linesOf f.content) (hle : n.start ≤ n.stop) :
    ∃ before after, '\n' ∉ before ∧ '\n' ∉ after ∧
      (f.slice (SyntaxTree.rowsOf f.content.toList n)).toList
        = before ++ (SyntaxTree.textOf f.content.toList n).toList ++ after := by
  obtain ⟨before, after, hbefore, hafter, hpieces⟩ := exists_pieces_around '\n'
    (f.content.toList.take n.start) (SyntaxTree.textOf f.content.toList n).toList
    ((f.content.toList.drop n.start).drop (n.stop - n.start))
  rw [SyntaxTree.append_textOf_append] at hpieces
  refine ⟨before, after, hbefore, hafter, ?_⟩
  -- as many lines as there are line feeds in the text of the node, and one more
  have hrows : SyntaxTree.rowAt f.content.toList n.stop + 1
        - SyntaxTree.rowAt f.content.toList n.start
      = (SyntaxTree.textOf f.content.toList n).toList.count '\n' + 1 := by
    rw [SyntaxTree.rowAt_stop _ hle]
    omega
  -- these lines are the pieces around the text of the node
  have hspanned : f.linesIn (SyntaxTree.rowsOf f.content.toList n)
      = linesOf (String.ofList
          (before ++ (SyntaxTree.textOf f.content.toList n).toList ++ after)) := by
    unfold linesIn SyntaxTree.rowsOf
    rw [hrows, hlines, linesOf, linesOf, String.toList_ofList, ← List.map_drop, ← List.map_take,
      ← hpieces]
    rfl
  rw [slice, clamp_rowsOf hlines hle, hspanned, joinLines_linesOf, String.toList_ofList]

end SourceFile

/-! ### Chunks of nodes -/

/-- **A chunk that spans a node**: it has all lines that the node touches, and is named by a text in
them. -/
structure Chunk.SpansNode (c : Chunk) (text : List Char) (n : SyntaxNode) : Prop where
  nodeType_eq : c.metadata.nodeType = some n.kind
  lineStart_eq : c.lineStart = SyntaxTree.rowAt text n.start + 1
  lineEnd_eq : c.lineEnd = SyntaxTree.rowAt text n.stop + 1
  content_eq : ∃ before after, '\n' ∉ before ∧ '\n' ∉ after ∧
    c.content.toList = before ++ (SyntaxTree.textOf text n).toList ++ after
  name_isInfix : ∀ name, c.name = some name → name.toList <:+: c.content.toList

namespace Extraction

/-- The captures of units in a tree, in the order of the units. -/
def unitCaptures (text : List Char) (tree : SyntaxTree) (queries : List Query) : List Capture :=
  queries.flatMap fun q => (q.matchesIn text tree).flatMap (·.filter Capture.isUnit)

theorem forall₂_flatMap {α β γ : Type} {R : β → γ → Prop} {f : α → List β} {g : α → List γ}
    {l : List α} (h : ∀ a ∈ l, List.Forall₂ R (f a) (g a)) :
    List.Forall₂ R (l.flatMap f) (l.flatMap g) := by
  induction l with
  | nil => exact .nil
  | cons a l ih =>
    rw [List.forall_mem_cons] at h
    exact List.rel_append h.1 (ih h.2)

/-- **One unit for each capture of a unit**, in the same order. -/
theorem forall₂_unitCaptures {text : List Char} {tree : SyntaxTree} {queries : List Query}
    {R : Capture → StructuralUnit → Prop}
    (h : ∀ captures : List Capture, (∀ c ∈ captures, c.place ∈ tree.nodes) →
      ∀ c ∈ captures, ∀ u, unitOf? text captures c = some u → R c u) :
    List.Forall₂ R (unitCaptures text tree queries)
      (queries.flatMap (unitsOfQuery text tree)) := by
  unfold unitCaptures unitsOfQuery unitsOfMatch
  apply forall₂_flatMap
  intro q _
  apply forall₂_flatMap
  intro captures hmem
  have hplaces := q.place_mem_nodes text tree captures hmem
  exact forall₂_filterMap (fun c _ => isUnit_eq captures c) (h captures hplaces)

/-- **The name of a unit stands in the text of its node**, since it is the text of a child. -/
theorem name_isInfix {text : List Char} {tree : SyntaxTree} {size : Nat}
    (hnested : tree.root.isNested 0 size = true) {captures : List Capture}
    (hplaces : ∀ c ∈ captures, c.place ∈ tree.nodes) {c : Capture} (hc : c ∈ captures)
    {name : String} (hname : nameOf text captures c.place = some name) :
    name.toList <:+: (SyntaxTree.textOf text c.place.node).toList := by
  obtain ⟨n, -, hchild, rfl⟩ := (nameOf_eq_some_iff hplaces hc).mp hname
  exact SyntaxTree.textOf_child_isInfix text hnested (hplaces c hc) hchild

end Extraction

namespace SourceFile

variable {f : SourceFile}

/-- **The chunk of a unit spans the node** that the unit was found at, and the span is kept as it
was found. -/
theorem spansNode_chunkOf (hlines : f.lines = linesOf f.content) {tree : SyntaxTree} {size : Nat}
    (hnested : tree.root.isNested 0 size = true) {captures : List Capture}
    (hplaces : ∀ c ∈ captures, c.place ∈ tree.nodes) {c : Capture} (hc : c ∈ captures)
    {u : StructuralUnit} (hunit : Extraction.unitOf? f.content.toList captures c = some u) :
    u.span.clamp f.lineCount = u.span ∧
      (f.chunkOf u).SpansNode f.content.toList c.place.node := by
  have hle : c.place.node.start ≤ c.place.node.stop := by
    have hnode := SyntaxTree.isNested_of_mem_nodes hnested (hplaces c hc)
    exact (SyntaxNode.isNested_iff.mp hnode).1.2.1
  have hyields := Extraction.yields_of_unitOf? hunit
  have hspan : u.span = SyntaxTree.rowsOf f.content.toList c.place.node := by
    rw [SyntaxTree.rowsOf, ← hyields.start_eq, ← hyields.stop_eq hle]
  have hclamp : u.span.clamp f.lineCount = u.span := by
    rw [hspan]
    exact clamp_rowsOf hlines hle
  have hcontent : (f.chunkOf u).content = f.slice u.span := by
    show f.slice (u.span.clamp f.lineCount) = _
    rw [hclamp]
  obtain ⟨before, after, hbefore, hafter, hslice⟩ := exists_around_node hlines hle
  rw [← hspan, ← hcontent] at hslice
  refine ⟨hclamp, ?_, ?_, ?_, ⟨before, after, hbefore, hafter, hslice⟩, ?_⟩
  · show some u.nodeKind = _
    rw [hyields.nodeKind_eq]
  · show (u.span.clamp f.lineCount).start + 1 = _
    rw [hclamp, hspan]
    rfl
  · show (u.span.clamp f.lineCount).stop + 1 = _
    rw [hclamp, hspan]
    rfl
  · intro name hname
    have hname : u.name = some name := hname
    rw [Extraction.name_of_unitOf? hunit] at hname
    -- the name stands in the text of the node, and this text in the lines
    have hinfix := Extraction.name_isInfix hnested hplaces hc hname
    rw [hslice]
    exact hinfix.trans ⟨before, after, rfl⟩

/-- **The chunks of the units in a nested tree** span the nodes that were captured, one by one. -/
theorem chunks_spanNodes (hlines : f.lines = linesOf f.content) {tree : SyntaxTree} {size : Nat}
    (hnested : tree.root.isNested 0 size = true) (queries : List Query) :
    (∀ u ∈ queries.flatMap (Extraction.unitsOfQuery f.content.toList tree),
      u.span.clamp f.lineCount = u.span) ∧
    List.Forall₂ (fun (k : Capture) (c : Chunk) => c.SpansNode f.content.toList k.place.node)
      (Extraction.unitCaptures f.content.toList tree queries)
      ((queries.flatMap (Extraction.unitsOfQuery f.content.toList tree)).map f.chunkOf) := by
  have hall : List.Forall₂ (fun (u : StructuralUnit) (k : Capture) =>
        u.span.clamp f.lineCount = u.span ∧
          (f.chunkOf u).SpansNode f.content.toList k.place.node)
      (queries.flatMap (Extraction.unitsOfQuery f.content.toList tree))
      (Extraction.unitCaptures f.content.toList tree queries) := by
    apply List.Forall₂.flip
    apply Extraction.forall₂_unitCaptures
    intro captures hplaces k hk u hunit
    exact spansNode_chunkOf hlines hnested hplaces hk hunit
  obtain ⟨hspans, hchunks⟩ := (List.forall₂_and_left _ _).mp hall
  rw [List.forall₂_map_right_iff]
  exact ⟨hspans, hchunks.flip⟩

end SourceFile

namespace Chunker

/-- **A chunk spans the lines of its node and contains its name.**  Whatever nested tree a text has
and whatever queries are run over it, each captured unit is cut as the lines from the row that its
node begins in to the row that it ends in, which no clamping changes; they hold the text of the node
and nothing else but the rests of the first and the last of these lines, and the name of the chunk
stands in them.  Parsed texts have nested trees, so with any registry, settings and path a file is
cut like this, or is one chunk as a whole. -/
theorem chunkFile_spansNodes :
    (∀ (path content : String) (loaded? : Option Registry.Entry) (limit : Nat) (tree : SyntaxTree)
        (queries : List Query), tree.root.isNested 0 content.toList.length = true →
      let file := SourceFile.ofText path content loaded? limit
      let units := queries.flatMap (Extraction.unitsOfQuery content.toList tree)
      (∀ u ∈ units, u.span.clamp file.lineCount = u.span) ∧
      List.Forall₂ (fun (k : Capture) (c : Chunk) => c.SpansNode content.toList k.place.node)
        (Extraction.unitCaptures content.toList tree queries) (file.chunks (.matched units))) ∧
    ∀ (r : Registry) (config : ChunkerConfig) (path content : String),
      let loaded? := r.resolve? (Path.ofString path)
      let file := SourceFile.ofText path content loaded? config.importScanLines
      let chunks := chunkFile r config path content
      (∃ c, chunks = [c] ∧ c.CoversFile) ∨
      ∃ e, loaded? = some e ∧
        (e.row.language.parse content.toList).root.isNested 0 content.toList.length = true ∧
        (∀ u ∈ e.unitsIn content, u.span.clamp file.lineCount = u.span) ∧
        List.Forall₂ (fun (k : Capture) (c : Chunk) => c.SpansNode content.toList k.place.node)
          (Extraction.unitCaptures content.toList (e.row.language.parse content.toList) e.queries)
          chunks := by
  constructor
  · intro path content loaded? limit tree queries hnested file units
    exact SourceFile.chunks_spanNodes (f := file) rfl hnested queries
  · intro r config path content loaded? file chunks
    have hchunks : chunks = file.chunks (.ofText config loaded? content) := rfl
    cases hfound : Extraction.ofText config loaded? content with
    | unmatched =>
      rw [hfound] at hchunks
      exact Or.inl ⟨file.wholeChunk, hchunks, file.coversFile_wholeChunk⟩
    | matched units =>
      rw [hfound] at hchunks
      obtain ⟨e, hloaded, rfl⟩ := Extraction.exists_of_ofText_eq_matched hfound
      have hnested := e.row.language.isNested_parse content.toList
      obtain ⟨hspans, hall⟩ := SourceFile.chunks_spanNodes (f := file) rfl hnested e.queries
      refine Or.inr ⟨e, hloaded, hnested, hspans, ?_⟩
      rw [hchunks]
      exact hall

/-- A function with carriage returns before its line feeds, and a third line. -/
def raggedText : String := "def f():\r\n    pass\r\nx"

/-- A tree of it, in which the function ends at the beginning of the third line. -/
def raggedTree : SyntaxTree where
  root := .mk "module" none 0 21 [.mk "function_definition" none 0 20
    [.mk "identifier" (some "name") 4 5 []]]
  hasError := false

/-- The chunk of the function has all three lines. -/
theorem chunkFile_spansNodes_ragged : ∃ q k c,
    Query.compile? Language.python.vocabulary
      "(function_definition name: (identifier) @name) @function" = some q ∧
    raggedTree.root.isNested 0 raggedText.toList.length = true ∧
    Extraction.unitCaptures raggedText.toList raggedTree [q] = [k] ∧ k.place.node.stop = 20 ∧
    (SourceFile.ofText "a.py" raggedText none 50).chunks (.matched
      ([q].flatMap (Extraction.unitsOfQuery raggedText.toList raggedTree))) = [c] ∧
    c.SpansNode raggedText.toList k.place.node ∧ c.lineStart = 1 ∧ c.lineEnd = 3 ∧
    c.name = some "f" := by
  have heval : (Query.compile? Language.python.vocabulary
      "(function_definition name: (identifier) @name) @function").map (fun q =>
        ((Extraction.unitCaptures raggedText.toList raggedTree [q]).map (·.place.node.stop),
          [q].flatMap (Extraction.unitsOfQuery raggedText.toList raggedTree)))
      = some ([20], [⟨⟨0, 2⟩, .function, some "f", "function_definition"⟩]) := by
    decide +kernel
  obtain ⟨q, hq, heval⟩ := Option.map_eq_some_iff.mp heval
  obtain ⟨hstops, hunits⟩ := Prod.mk.inj heval
  obtain ⟨k, hk, hstop⟩ := List.map_eq_singleton_iff.mp hstops
  have hnested : raggedTree.root.isNested 0 raggedText.toList.length = true := by decide
  have hall : List.Forall₂
      (fun (k : Capture) (c : Chunk) => c.SpansNode raggedText.toList k.place.node)
      (Extraction.unitCaptures raggedText.toList raggedTree [q])
      ((SourceFile.ofText "a.py" raggedText none 50).chunks (.matched
        ([q].flatMap (Extraction.unitsOfQuery raggedText.toList raggedTree)))) :=
    (chunkFile_spansNodes.1 "a.py" raggedText none 50 raggedTree [q] hnested).2
  rw [hk, hunits] at hall
  have hspans := (List.forall₂_cons.mp hall).1
  refine ⟨q, k, _, hq, hnested, hk, hstop, ?_, hspans, by decide, by decide, rfl⟩
  rw [hunits]
  rfl

end Chunker

end SourceChunks
