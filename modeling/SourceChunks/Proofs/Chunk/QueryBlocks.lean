import SourceChunks.Proofs.Chunk.Shapes

/-!
# One block for each query

A text is parsed once, and each query of a row is run over the tree on its own.  What the row finds
is therefore made of blocks, one for each query that can be read, and a block is what the query
finds alone (`Registry.Row.block`): no query sees what another one has found, whether it is given
twice, or stands before or behind a text that is no query (`Registry.Row.unitsIn_withQueries`).

Strict settings look at the tree before any query is run.  They give up on a text that has an error
anywhere and change nothing otherwise (`Extraction.run_strict`), and so they do for the chunks of a
file (`Chunker.chunkFile_strict`).
-/

namespace SourceChunks

/-! ### Blocks -/

namespace Registry.Row

/-- The row with other queries. -/
def withQueries (row : Row) (queries : List String) : Row := { row with queries }

/-- Can a query be read by the row's parser? -/
def reads (row : Row) (query : String) : Bool :=
  (row.language.compile? query).isSome

/-- **The block of a query**: what it finds in a text if it is the only one. -/
def block (row : Row) (content query : String) : List StructuralUnit :=
  (row.withQueries [query]).load.unitsIn content

variable {row : Row} {content query : String} {queries : List String}

/-- **The block of the first query comes first**, and the other queries find what they find without
it.  If the first one cannot be read, its block is empty. -/
theorem unitsIn_withQueries_cons :
    (row.withQueries (query :: queries)).load.unitsIn content
      = row.block content query ++ (row.withQueries queries).load.unitsIn content := by
  unfold block Registry.Entry.unitsIn load withQueries
  cases hread : row.language.compile? query with
  | none => simp [hread]
  | some q => simp [hread]

/-- **What a row finds is its blocks**, one after the other. -/
theorem unitsIn_withQueries (row : Row) (content : String) (queries : List String) :
    (row.withQueries queries).load.unitsIn content = queries.flatMap (row.block content) := by
  induction queries with
  | nil => rfl
  | cons query queries ih => rw [unitsIn_withQueries_cons, ih, List.flatMap_cons]

theorem block_eq_nil (h : row.reads query = false) : row.block content query = [] := by
  have hread : row.language.compile? query = none := by
    rwa [reads, Option.isSome_eq_false_iff, Option.isNone_iff_eq_none] at h
  unfold block Registry.Entry.unitsIn load withQueries
  simp [hread]

/-- Queries that cannot be read may as well be left out. -/
theorem flatMap_block_filter (row : Row) (content : String) (queries : List String) :
    (queries.filter row.reads).flatMap (row.block content)
      = queries.flatMap (row.block content) := by
  induction queries with
  | nil => rfl
  | cons query queries ih =>
    rw [List.filter_cons, List.flatMap_cons]
    -- a query that is left out would have found nothing
    cases hread : row.reads query with
    | true => rw [if_pos rfl, List.flatMap_cons, ih]
    | false => rw [if_neg Bool.false_ne_true, block_eq_nil hread, ih, List.nil_append]

end Registry.Row

/-! ### Strict settings -/

namespace Extraction

theorem run_lenient (limit : Nat) (e : Registry.Entry) (content : String) :
    run ⟨limit, false⟩ e content = .ok (e.unitsIn content) := rfl

theorem run_withQueries (limit : Nat) (row : Registry.Row) (content : String)
    (queries : List String) :
    run ⟨limit, false⟩ (row.withQueries queries).load content
      = .ok (queries.flatMap (row.block content)) := by
  rw [run_lenient, Registry.Row.unitsIn_withQueries]

/-- A block is what the query finds alone. -/
theorem forall₂_block (limit : Nat) (row : Registry.Row) (content : String)
    (queries : List String) :
    List.Forall₂
      (fun query us => run ⟨limit, false⟩ (row.withQueries [query]).load content = .ok us)
      queries (queries.map (row.block content)) := by
  rw [List.forall₂_map_right_iff, List.forall₂_same]
  intro query _
  exact run_lenient limit _ content

/-- **Strict settings give up on a text with an error** and change nothing otherwise. -/
theorem run_strict (limit : Nat) (e : Registry.Entry) (content : String) :
    run ⟨limit, true⟩ e content
      = if e.isBrokenIn content then .error (.syntaxErrors e.row.name)
        else run ⟨limit, false⟩ e content := by
  rw [run_lenient, run]
  cases hbroken : e.isBrokenIn content with
  | true =>
    rw [Registry.Entry.isBrokenIn] at hbroken
    simp [hbroken]
  | false =>
    rw [Registry.Entry.isBrokenIn] at hbroken
    simp [hbroken, Registry.Entry.unitsIn]

end Extraction

/-! ### Files -/

/-- Is the text of a file in error for the language of its path, if it has one? -/
def Registry.isBrokenAt (r : Registry) (path content : String) : Bool :=
  (r.resolve? (Path.ofString path)).any (·.isBrokenIn content)

namespace Chunker

/-- **A file in error is not cut with strict settings**, and any other file is cut as with lenient
ones. -/
theorem chunkFile_strict (r : Registry) (limit : Nat) (path content : String) :
    chunkFile r ⟨limit, true⟩ path content
      = if r.isBrokenAt path content then
          [(SourceFile.ofText path content (r.resolve? (Path.ofString path)) limit).wholeChunk]
        else chunkFile r ⟨limit, false⟩ path content := by
  have hchunks : ∀ strict, chunkFile r ⟨limit, strict⟩ path content
      = (SourceFile.ofText path content (r.resolve? (Path.ofString path)) limit).chunks
          (Extraction.ofText ⟨limit, strict⟩ (r.resolve? (Path.ofString path)) content) :=
    fun _ => rfl
  rw [hchunks, hchunks, Registry.isBrokenAt]
  -- a text without a language is one chunk with any settings
  cases r.resolve? (Path.ofString path) with
  | none => rfl
  | some e =>
    rw [Extraction.ofText_some, Extraction.ofText_some, Option.any_some]
    cases hbroken : e.isBrokenIn content with
    | true => simp [SourceFile.chunks]
    | false => simp

variable {path content : String}

theorem chunkFile_of_not_isBrokenAt (r : Registry) (limit : Nat)
    (h : r.isBrokenAt path content = false) :
    chunkFile r ⟨limit, true⟩ path content = chunkFile r ⟨limit, false⟩ path content := by
  rw [chunkFile_strict, h]
  rfl

theorem chunkFile_of_isBrokenAt (r : Registry) (limit : Nat)
    (h : r.isBrokenAt path content = true) :
    ∃ c, chunkFile r ⟨limit, true⟩ path content = [c] ∧ c.CoversFile ∧ c.content = content := by
  have hchunks := chunkFile_strict r limit path content
  rw [h] at hchunks
  exact ⟨_, hchunks, SourceFile.coversFile_wholeChunk _, rfl⟩

end Chunker

namespace Extraction

/-- **Queries do not influence each other, and strict settings do not influence what they find.**
With lenient settings a row finds the blocks of its queries one after the other, each of them as the
query finds it alone; queries that cannot be read find nothing and may be left out.  So what two
lists of queries find together is what the one finds and then what the other finds, and other orders
of the queries give the same blocks in another order.  Strict settings give the same units for a
text without errors and fail for any other, where the file becomes one chunk. -/
theorem run_by_blocks (row : Registry.Row) (content : String) (limit : Nat) :
    let extract := fun (strict : Bool) (queries : List String) =>
      run ⟨limit, strict⟩ (row.withQueries queries).load content
    (∀ queries, extract false queries = .ok (queries.flatMap (row.block content))) ∧
    (∀ query, extract false [query] = .ok (row.block content query) ∧
      (row.language.compile? query = none → row.block content query = [])) ∧
    (∀ strict queries, extract strict (queries.filter row.reads) = extract strict queries) ∧
    (∀ qs qs', ∃ us us', extract false qs = .ok us ∧ extract false qs' = .ok us' ∧
      extract false (qs ++ qs') = .ok (us ++ us')) ∧
    (∀ qs qs', qs.Perm qs' → ∃ blocks blocks', blocks.Perm blocks' ∧
      (extract false qs = .ok blocks.flatten ∧
        List.Forall₂ (fun query us => extract false [query] = .ok us) qs blocks) ∧
      extract false qs' = .ok blocks'.flatten ∧
        List.Forall₂ (fun query us => extract false [query] = .ok us) qs' blocks') ∧
    (∀ queries, extract true queries
      = if (row.language.parse content.toList).hasError then .error (.syntaxErrors row.name)
        else extract false queries) ∧
    ∀ r path,
      (r.isBrokenAt path content = false → Chunker.chunkFile r ⟨limit, true⟩ path content
        = Chunker.chunkFile r ⟨limit, false⟩ path content) ∧
      (r.isBrokenAt path content = true →
        ∃ c, Chunker.chunkFile r ⟨limit, true⟩ path content = [c] ∧ c.CoversFile ∧
          c.content = content) := by
  intro extract
  have hlenient : ∀ queries, extract false queries = .ok (queries.flatMap (row.block content)) :=
    run_withQueries limit row content
  have hstrict : ∀ queries, extract true queries
      = if (row.language.parse content.toList).hasError then .error (.syntaxErrors row.name)
        else extract false queries :=
    fun queries => run_strict limit (row.withQueries queries).load content
  have hfilter : ∀ queries, extract false (queries.filter row.reads) = extract false queries := by
    intro queries
    rw [hlenient, hlenient, Registry.Row.flatMap_block_filter]
  refine ⟨hlenient, fun query => ⟨rfl, fun hread => ?_⟩, ?_, ?_, ?_, hstrict, ?_⟩
  · apply Registry.Row.block_eq_nil
    rw [Registry.Row.reads, hread]
    rfl
  · intro strict queries
    cases strict with
    | false => exact hfilter queries
    | true => rw [hstrict, hstrict, hfilter]
  · intro qs qs'
    refine ⟨_, _, hlenient qs, hlenient qs', ?_⟩
    rw [hlenient, List.flatMap_append]
  · intro qs qs' hperm
    -- the blocks stand in the order of the queries
    exact ⟨qs.map (row.block content), qs'.map (row.block content), hperm.map _,
      ⟨hlenient qs, forall₂_block limit row content qs⟩, hlenient qs',
      forall₂_block limit row content qs'⟩
  · intro r path
    exact ⟨Chunker.chunkFile_of_not_isBrokenAt r limit, Chunker.chunkFile_of_isBrokenAt r limit⟩

/-- A class with a method. -/
def nestedText : String := "class A:\n    def f(self):\n        pass\n"

/-- A function that breaks off. -/
def brokenText : String := "def f(:\n"

/-- A query for functions, one for classes, and between them a text that is no query. -/
def pythonQueries : List String :=
  ["(function_definition) @function", "((", "(class_definition) @class"]

/-- In the other order the same two blocks change places. -/
theorem run_by_blocks_python : ∃ row, Registry.table[0]? = some row ∧
    row.language.compile? "((" = none ∧ row.block nestedText "((" = [] ∧
    pythonQueries.Perm pythonQueries.reverse ∧
    (∃ blocks blocks' : List (List StructuralUnit), blocks.Perm blocks' ∧
      run ⟨50, false⟩ (row.withQueries pythonQueries).load nestedText = .ok blocks.flatten ∧
      run ⟨50, false⟩ (row.withQueries pythonQueries.reverse).load nestedText
        = .ok blocks'.flatten ∧
      blocks.flatten.map (·.kind) = [.function, .classUnit] ∧
      blocks'.flatten.map (·.kind) = [.classUnit, .function]) ∧
    Registry.builtin.isBrokenAt "a.py" nestedText = false ∧
    Chunker.chunkFile .builtin ⟨50, true⟩ "a.py" nestedText
      = Chunker.chunkFile .builtin ⟨50, false⟩ "a.py" nestedText ∧
    Registry.builtin.isBrokenAt "a.py" brokenText = true ∧
    ∃ c, Chunker.chunkFile .builtin ⟨50, true⟩ "a.py" brokenText = [c] ∧ c.CoversFile ∧
      c.content = brokenText := by
  obtain ⟨row, hrow, hnone, hkinds, hkinds'⟩ : ∃ row, Registry.table[0]? = some row ∧
      row.language.compile? "((" = none ∧
      (run ⟨50, false⟩ (row.withQueries pythonQueries).load nestedText).toOption.map
        (·.map (·.kind)) = some [.function, .classUnit] ∧
      (run ⟨50, false⟩ (row.withQueries pythonQueries.reverse).load nestedText).toOption.map
        (·.map (·.kind)) = some [.classUnit, .function] :=
    ⟨_, rfl, rfl, by decide +kernel, by decide +kernel⟩
  have hperm : pythonQueries.Perm pythonQueries.reverse := (List.reverse_perm _).symm
  have hwell : Registry.builtin.isBrokenAt "a.py" nestedText = false := by decide +kernel
  have hbroken : Registry.builtin.isBrokenAt "a.py" brokenText = true := by decide +kernel
  obtain ⟨-, halone, -, -, horders, -, hstrict⟩ := run_by_blocks row nestedText 50
  obtain ⟨blocks, blocks', hblocks, ⟨hrun, -⟩, hrun', -⟩ := horders _ _ hperm
  have hunits : run ⟨50, false⟩ (row.withQueries pythonQueries).load nestedText
      = .ok blocks.flatten := hrun
  have hunits' : run ⟨50, false⟩ (row.withQueries pythonQueries.reverse).load nestedText
      = .ok blocks'.flatten := hrun'
  rw [hunits] at hkinds
  rw [hunits'] at hkinds'
  have hwhole := ((run_by_blocks row brokenText 50).2.2.2.2.2.2 .builtin "a.py").2 hbroken
  exact ⟨row, hrow, hnone, (halone "((").2 hnone, hperm,
    ⟨blocks, blocks', hblocks, hrun, hrun', Option.some.inj hkinds, Option.some.inj hkinds'⟩, hwell,
    (hstrict .builtin "a.py").1 hwell, hbroken, hwhole⟩

end Extraction

end SourceChunks
