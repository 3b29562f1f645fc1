import SourceChunks.Extraction
import SourceChunks.Proofs.Language.Names
import SourceChunks.Tree.Places

/-!
# Names of units

A unit takes its name from a node that a query captures.  The queries of the supported languages
capture names only at nodes that are one word (`Pattern.capturesNames`), one at most in each match
(`Registry.isMadeOf_builtin`).  Whatever a query captures is a node of the tree, so the names
of units have plain characters only (`Extraction.isPlain_of_run`).
-/

namespace SourceChunks

/-! ### Nodes of a tree -/

section Nodes

variable {ok : Nat → Nat → Prop} {n : SyntaxNode}

theorem SyntaxNode.NamesIn.range (h : n.NamesIn ok) (hkind : n.kind ∈ nameKinds) :
    ok n.start n.stop := by
  cases h with
  | mk range inner => exact range hkind

/-- **What holds of the names of a tree holds of those of each node in it.** -/
theorem SyntaxNode.NamesIn.of_mem_descendants (h : n.NamesIn ok) {way : List Nat} {q : PlacedNode}
    (hq : q ∈ n.descendants way) : q.node.NamesIn ok := by
  induction h generalizing way with
  | mk range inner ih =>
    rw [descendants] at hq
    rcases List.mem_cons.mp hq with rfl | hq
    · exact .mk range inner
    · obtain ⟨_, m, hm, hq⟩ := mem_descendantsOfAll.mp hq
      exact ih m (List.mem_of_getElem? hm) hq

end Nodes

/-! ### What queries capture -/

namespace Pattern

mutual

/-- Does a pattern capture names only at nodes that name units? -/
def capturesNames : Pattern → Bool
  | .node kind _ items captures =>
    (!captures.contains Extraction.nameCapture || nameKinds.contains kind) && allCaptureNames items

/-- Do patterns capture names only at nodes that name units? -/
def allCaptureNames : List Pattern → Bool
  | [] => true
  | item :: items => capturesNames item && allCaptureNames items

end

mutual

/-- How many names a pattern captures in each match. -/
def namesCaptured : Pattern → Nat
  | .node _ _ items captures => captures.count Extraction.nameCapture + namesCapturedIn items

/-- How many names patterns capture in each match. -/
def namesCapturedIn : List Pattern → Nat
  | [] => 0
  | item :: items => namesCaptured item + namesCapturedIn items

end

/-- The check that the patterns of the supported languages pass. -/
def namesOneWord (p : Pattern) : Bool := p.capturesNames && decide (p.namesCaptured ≤ 1)

/-- A captured node of a tree, which names a unit if it is captured as a name. -/
def IsSound (ok : Nat → Nat → Prop) (c : Capture) : Prop :=
  c.place.node.NamesIn ok ∧ (c.name = Extraction.nameCapture → c.place.node.kind ∈ nameKinds)

mutual

/-- **A checked pattern captures names where units are named**, by induction on the pattern and its
items. -/
theorem kind_mem_of_mem_matchNode {q : PlacedNode} (p : Pattern) (hp : p.capturesNames = true)
    {captures : List Capture} (hmem : captures ∈ p.matchNode q) :
    ∀ c ∈ captures, c.name = Extraction.nameCapture → c.place.node.kind ∈ nameKinds := by
  obtain ⟨kind, field, items, names⟩ := p
  rw [capturesNames, Bool.and_eq_true, Bool.or_eq_true] at hp
  obtain ⟨⟨hkind, -⟩, inner, hinner, rfl⟩ := mem_matchNode.mp hmem
  intro c hc heq
  rcases List.mem_append.mp hc with hc | hc
  · -- the node itself, under each of the names of the pattern
    obtain ⟨name, hname, rfl⟩ := List.mem_map.mp hc
    have heq : name = Extraction.nameCapture := heq
    have hkinds : nameKinds.contains kind = true := by
      refine hp.1.resolve_left fun hnot => ?_
      rw [heq] at hname
      simp [hname] at hnot
    show q.node.kind ∈ nameKinds
    rw [hkind]
    exact List.contains_iff_mem.mp hkinds
  · exact kind_mem_of_mem_matchItems items hp.2 hinner c hc heq

theorem kind_mem_of_mem_matchItems {qs : List PlacedNode} (ps : List Pattern)
    (hps : allCaptureNames ps = true) {captures : List Capture}
    (hmem : captures ∈ matchItems qs ps) :
    ∀ c ∈ captures, c.name = Extraction.nameCapture → c.place.node.kind ∈ nameKinds := by
  cases ps with
  | nil =>
    obtain rfl := mem_matchItems_nil.mp hmem
    exact fun c hc => absurd hc List.not_mem_nil
  | cons p ps =>
    rw [allCaptureNames, Bool.and_eq_true] at hps
    obtain ⟨q, later, -, first, hfirst, rest, hrest, rfl⟩ := mem_matchItems_cons.mp hmem
    intro c hc heq
    rcases List.mem_append.mp hc with hc | hc
    · exact kind_mem_of_mem_matchNode p hps.1 hfirst c hc heq
    · exact kind_mem_of_mem_matchItems ps hps.2 hrest c hc heq

end

end Pattern

/-! ### The queries of the supported languages -/

namespace Query

/-- The patterns that some characters spell. -/
def patternsOf? (cs : List Char) : Option (List Pattern) :=
  (tokens? (cs.length + 1) cs).bind fun ts => (readItems? (2 * ts.length + 2) ts).map (·.1)

/-- **A query that was read is the query of the patterns that its text spells.** -/
theorem eq_ofPatterns_of_compile? {v : Vocabulary} {cs : List Char} {q : Query}
    (h : compile? v (String.ofList cs) = some q) :
    ∃ patterns, patternsOf? cs = some patterns ∧ q = ofPatterns (String.ofList cs) patterns := by
  unfold compile? at h
  simp only [String.toList_ofList] at h
  obtain ⟨ts, hts, h⟩ := Option.bind_eq_some_iff.mp h
  obtain ⟨⟨patterns, rest⟩, hread, h⟩ := Option.bind_eq_some_iff.mp h
  dsimp only at h
  split_ifs at h
  refine ⟨patterns, ?_, (Option.some.inj h).symm⟩
  rw [patternsOf?, hts, Option.bind_some, hread, Option.map_some]

/-- A query of patterns that pass a check. -/
def IsMadeOf (check : Pattern → Bool) (q : Query) : Prop :=
  ∃ source patterns, q = ofPatterns source patterns ∧ ∀ p ∈ patterns, check p = true

/-- A check of the patterns that a text spells is a check of every query read from the text. -/
theorem isMadeOf_of_compile? {check : Pattern → Bool} {v : Vocabulary} {cs : List Char} {q : Query}
    (hcs : (patternsOf? cs).all (·.all check) = true)
    (h : compile? v (String.ofList cs) = some q) : q.IsMadeOf check := by
  obtain ⟨patterns, hspelled, rfl⟩ := eq_ofPatterns_of_compile? h
  rw [hspelled, Option.all_some, List.all_eq_true] at hcs
  exact ⟨_, patterns, rfl, hcs⟩

/-- Each match of a query of patterns is a match of one of them. -/
theorem IsMadeOf.exists_of_mem_matchesIn {check : Pattern → Bool} {q : Query} (h : q.IsMadeOf check)
    {text : List Char} {tree : SyntaxTree} {captures : List Capture}
    (hmem : captures ∈ q.matchesIn text tree) :
    ∃ (p : Pattern) (node : PlacedNode), check p = true ∧ captures ∈ p.matchNode node := by
  obtain ⟨source, patterns, rfl, hpatterns⟩ := h
  obtain ⟨node, -, hmem⟩ := List.mem_flatMap.mp hmem
  obtain ⟨p, hp, hmem⟩ := List.mem_flatMap.mp hmem
  exact ⟨p, node, hpatterns p hp, hmem⟩

end Query

namespace Registry

theorem isMadeOf_table : ∀ row ∈ table, ∀ source ∈ row.queries,
    ∀ (v : Query.Vocabulary) (q : Query), Query.compile? v source = some q →
      q.IsMadeOf Pattern.namesOneWord := by
  simp only [table, typescriptQueries, List.forall_mem_cons, List.not_mem_nil, false_implies,
    implies_true, and_true]
  repeat' apply And.intro
  all_goals
    intro v q hq
    exact Query.isMadeOf_of_compile? (by decide +kernel) hq

/-- The rows of the table have the parsers of the languages. -/
theorem exists_language_table : ∀ row ∈ table, ∃ l : Language, row.language = l.parser := by
  simp only [table, List.forall_mem_cons, List.not_mem_nil, false_implies, implies_true, and_true]
  exact ⟨⟨_, rfl⟩, ⟨_, rfl⟩, ⟨_, rfl⟩, ⟨_, rfl⟩, ⟨_, rfl⟩, ⟨_, rfl⟩, ⟨_, rfl⟩, ⟨_, rfl⟩⟩

theorem exists_language_builtin {e : Entry} (he : e ∈ builtin.entries) :
    ∃ l : Language, e.row.language = l.parser := by
  obtain ⟨row, hrow, rfl⟩ := List.mem_map.mp he
  exact exists_language_table row hrow

/-- **The queries of the supported languages capture names only at nodes that name units, and one
name at most in each match.** -/
theorem isMadeOf_builtin {e : Entry} (he : e ∈ builtin.entries) {q : Query} (hq : q ∈ e.queries) :
    q.IsMadeOf Pattern.namesOneWord := by
  obtain ⟨row, hrow, rfl⟩ := List.mem_map.mp he
  obtain ⟨source, hsource, hcompile⟩ := List.mem_filterMap.mp hq
  obtain ⟨l, hl⟩ := exists_language_table row hrow
  rw [hl] at hcompile
  exact isMadeOf_table row hrow source hsource _ q hcompile

theorem mem_entries_of_resolve? {r : Registry} {p : Path} {e : Entry} (h : r.resolve? p = some e) :
    e ∈ r.entries := by
  obtain ⟨ext, -, hfind⟩ := Option.bind_eq_some_iff.mp h
  exact List.mem_of_find?_eq_some hfind

end Registry

/-! ### Units -/

namespace Extraction

theorem isPlain_of_nameOf {text : List Char} {captures : List Capture} {unit : PlacedNode}
    (hcaptures : ∀ c ∈ captures, Pattern.IsSound (Parsing.SliceWithin isPlain text) c)
    {name : String} (h : nameOf text captures unit = some name) :
    ∀ c ∈ name.toList, isPlain c = true := by
  unfold nameOf at h
  split at h
  · rename_i c hc
    split_ifs at h
    obtain rfl := Option.some.inj h
    obtain ⟨hnode, hkind⟩ := hcaptures c (List.mem_of_find?_eq_some hc)
    have hname := List.find?_some hc
    rw [SyntaxTree.textOf, String.toList_ofList]
    exact hnode.range (hkind (eq_of_beq hname))
  · cases h

/-- Units that were found come from an attempt that went well. -/
theorem eq_ok_of_ofAttempt {attempt : Option (Except ParseFailure (List StructuralUnit))}
    {units : List StructuralUnit} (h : ofAttempt attempt = .matched units) :
    attempt = some (.ok units) := by
  unfold ofAttempt at h
  split at h
  · rename_i found
    cases found with
    | nil => cases h
    | cons u us =>
      obtain rfl := Extraction.matched.inj h
      rfl
  · cases h
  · cases h

/-- **The names of units have plain characters only**, in every language of the registry. -/
theorem isPlain_of_run {config : ChunkerConfig} {e : Registry.Entry}
    (he : e ∈ Registry.builtin.entries) {content : String} {units : List StructuralUnit}
    (hrun : run config e content = .ok units) {u : StructuralUnit} (hu : u ∈ units) {name : String}
    (hname : u.name = some name) : ∀ c ∈ name.toList, isPlain c = true := by
  unfold run at hrun
  dsimp only at hrun
  split_ifs at hrun
  obtain rfl := Except.ok.inj hrun
  obtain ⟨q, hq, hu⟩ := List.mem_flatMap.mp hu
  obtain ⟨captures, hcaptures, hu⟩ := List.mem_flatMap.mp hu
  obtain ⟨capture, -, hunit⟩ := List.mem_filterMap.mp hu
  obtain ⟨kind, -, rfl⟩ := Option.map_eq_some_iff.mp hunit
  have hplaces := q.place_mem_nodes _ _ captures hcaptures
  obtain ⟨l, hl⟩ := Registry.exists_language_builtin he
  have htree := l.namesIn_parse content.toList
  rw [hl] at hplaces
  obtain ⟨p, node, hchecked, hcaptures⟩ :=
    (Registry.isMadeOf_builtin he hq).exists_of_mem_matchesIn hcaptures
  rw [Pattern.namesOneWord, Bool.and_eq_true] at hchecked
  refine isPlain_of_nameOf (fun c hc => ⟨htree.of_mem_descendants (hplaces c hc), ?_⟩) hname
  exact Pattern.kind_mem_of_mem_matchNode p hchecked.1 hcaptures c hc

end Extraction

end SourceChunks
