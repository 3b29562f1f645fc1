import SourceChunks.Proofs.Extraction
import Mathlib.Data.List.Forall2

/-!
# Units and their names

A match gives one unit for each of its unit captures, in their order, with the kind of the capture
and with the rows and the word of the captured node.  By rule a unit has the name that the match
captures directly inside it (`Capture.IsNamedByRule`).

The name is looked for in the first name capture of the match only.  Where that one lies elsewhere,
a unit with a name capture of its own stays without a name, and nowhere else is the rule broken
(`Extraction.unitsOfMatch_naming`, `Extraction.unitsOfMatch_nestedMethod`).  The queries of the
supported languages capture one name at most in each match, so their units are named by the rule
(`Extraction.unitsOfMatch_builtin`).
-/

namespace SourceChunks

namespace Capture

/-- Is a unit captured? -/
def isUnit (c : Capture) : Bool := (ChunkKind.ofCapture? c.name).isSome

/-- Is a name captured? -/
def isName (c : Capture) : Bool := c.name == Extraction.nameCapture

/-- **A unit that is what was captured**, its name apart. -/
structure Yields (text : List Char) (c : Capture) (u : StructuralUnit) : Prop where
  kind_eq : ChunkKind.ofCapture? c.name = some u.kind
  start_eq : u.span.start = SyntaxTree.rowAt text c.place.node.start
  stop_eq : c.place.node.start ≤ c.place.node.stop →
    u.span.stop = SyntaxTree.rowAt text c.place.node.stop
  nodeKind_eq : u.nodeKind = c.place.node.kind

/-- A name capture of a match, directly inside a captured unit. -/
structure Names (captures : List Capture) (c n : Capture) : Prop where
  mem : n ∈ captures
  isName : n.isName = true
  child : n.place ∈ c.place.children

/-- **The naming rule**: a unit has the text of a name captured directly inside it, and no name if
none is captured there. -/
def IsNamedByRule (text : List Char) (captures : List Capture) (c : Capture)
    (u : StructuralUnit) : Prop :=
  (∃ n, Names captures c n ∧ u.name = some (SyntaxTree.textOf text n.place.node)) ∨
    ((∀ n, ¬ Names captures c n) ∧ u.name = none)

end Capture

theorem SyntaxTree.rowAt_mono (text : List Char) {i j : Nat} (h : i ≤ j) :
    rowAt text i ≤ rowAt text j := by
  have hprefix : text.take i <+: text.take j := List.take_prefix_take_left h
  exact hprefix.sublist.count_le '\n'

namespace Extraction

/-- Filtering and mapping at once, each result beside what it comes from. -/
theorem forall₂_filterMap {α β : Type} {f : α → Option β} {keep : α → Bool} {R : α → β → Prop}
    {l : List α} (hkeep : ∀ a ∈ l, keep a = (f a).isSome)
    (hR : ∀ a ∈ l, ∀ b, f a = some b → R a b) :
    List.Forall₂ R (l.filter keep) (l.filterMap f) := by
  induction l with
  | nil => exact .nil
  | cons a l ih =>
    rw [List.forall_mem_cons] at hkeep hR
    have hrest := ih hkeep.2 hR.2
    rw [List.filter_cons, List.filterMap_cons, hkeep.1]
    cases hfa : f a with
    | none => exact hrest
    | some b => exact .cons (hR.1 b hfa) hrest

theorem rel_of_getElem? {α β : Type} {R : α → β → Prop} {as : List α} {bs : List β} {i : Nat}
    {a : α} {b : β} (h : List.Forall₂ R as bs) (ha : as[i]? = some a) (hb : bs[i]? = some b) :
    R a b := by
  obtain ⟨hi, rfl⟩ := List.getElem?_eq_some_iff.mp ha
  obtain ⟨hj, rfl⟩ := List.getElem?_eq_some_iff.mp hb
  exact h.get hi hj

section Match

variable {tree : SyntaxTree} {text : List Char} {captures : List Capture} {c : Capture}
  {u : StructuralUnit}

theorem yields_of_unitOf? (h : unitOf? text captures c = some u) : c.Yields text u := by
  obtain ⟨kind, hkind, rfl⟩ := Option.map_eq_some_iff.mp h
  refine ⟨hkind, rfl, fun hle => ?_, rfl⟩
  -- the rows of a range are in order, so the span is made of them as they are
  have hrows := SyntaxTree.rowAt_mono text hle
  show max _ _ = _
  omega

theorem name_of_unitOf? (h : unitOf? text captures c = some u) :
    u.name = nameOf text captures c.place := by
  obtain ⟨kind, -, rfl⟩ := Option.map_eq_some_iff.mp h
  rfl

theorem isUnit_eq (captures : List Capture) (c : Capture) :
    c.isUnit = (unitOf? text captures c).isSome := by
  rw [unitOf?, Option.isSome_map]
  rfl

/-- **The name of a unit** is the text of the first name capture, if that is a child of the unit. -/
theorem nameOf_eq_some_iff (hplaces : ∀ c ∈ captures, c.place ∈ tree.nodes) (hc : c ∈ captures)
    {name : String} : nameOf text captures c.place = some name ↔
      ∃ n, captures.find? Capture.isName = some n ∧ n.place ∈ c.place.children ∧
        name = SyntaxTree.textOf text n.place.node := by
  have hname : nameOf text captures c.place = (captures.find? Capture.isName).bind fun n =>
      if c.place.isParentOf n.place then some (SyntaxTree.textOf text n.place.node) else none := by
    unfold nameOf
    split
    · rename_i n hfind
      have hfind : captures.find? Capture.isName = some n := hfind
      rw [hfind, Option.bind_some]
    · rename_i hfind
      have hfind : captures.find? Capture.isName = none := hfind
      rw [hfind, Option.bind_none]
  rw [hname, Option.bind_eq_some_iff]
  refine exists_congr fun n => and_congr_right fun hfind => ?_
  have hn : n ∈ captures := List.mem_of_find?_eq_some hfind
  rw [← PlacedNode.isParentOf_iff (hplaces c hc) (hplaces n hn)]
  constructor
  · intro h
    split_ifs at h with hparent
    exact ⟨hparent, (Option.some.inj h).symm⟩
  · rintro ⟨hparent, rfl⟩
    rw [if_pos hparent]

/-- **A unit is named by the rule** unless it has name captures and the first name capture of the
match is none of them. -/
theorem isNamedByRule_iff (hplaces : ∀ c ∈ captures, c.place ∈ tree.nodes) (hc : c ∈ captures)
    (hu : u.name = nameOf text captures c.place) :
    c.IsNamedByRule text captures u ↔
      ∀ n, captures.find? Capture.isName = some n → (∃ m, Capture.Names captures c m) →
        n.place ∈ c.place.children := by
  constructor
  · rintro (⟨m, hm, hname⟩ | ⟨hnone, -⟩) n hfind hex
    · rw [hu, nameOf_eq_some_iff hplaces hc] at hname
      obtain ⟨n', hfind', hchild, -⟩ := hname
      obtain rfl := Option.some.inj (hfind.symm.trans hfind')
      exact hchild
    · obtain ⟨m, hm⟩ := hex
      exact absurd hm (hnone m)
  · intro h
    by_cases hex : ∃ m, Capture.Names captures c m
    · obtain ⟨m, hm⟩ := hex
      have hsome : (captures.find? Capture.isName).isSome = true :=
        List.find?_isSome.mpr ⟨m, hm.mem, hm.isName⟩
      obtain ⟨n, hfind⟩ := Option.isSome_iff_exists.mp hsome
      have hchild := h n hfind ⟨m, hm⟩
      refine Or.inl ⟨n, ⟨List.mem_of_find?_eq_some hfind, List.find?_some hfind, hchild⟩, ?_⟩
      rw [hu, nameOf_eq_some_iff hplaces hc]
      exact ⟨n, hfind, hchild, rfl⟩
    · refine Or.inr ⟨fun m hm => hex ⟨m, hm⟩, Option.eq_none_iff_forall_ne_some.mpr ?_⟩
      intro name hname
      rw [hu, nameOf_eq_some_iff hplaces hc] at hname
      obtain ⟨n, hfind, hchild, -⟩ := hname
      exact hex ⟨n, List.mem_of_find?_eq_some hfind, List.find?_some hfind, hchild⟩

/-- **The units of a match and their names**: one unit for each unit capture, in order; its name is
the text of the first name capture if that is a child of the unit; and the naming rule is kept
exactly for the units that have no name capture or the first one. -/
theorem unitsOfMatch_naming (hplaces : ∀ c ∈ captures, c.place ∈ tree.nodes) :
    List.Forall₂ (fun c u =>
        c.Yields text u ∧
        (∀ name, u.name = some name ↔
          ∃ n, captures.find? Capture.isName = some n ∧ n.place ∈ c.place.children ∧
            name = SyntaxTree.textOf text n.place.node) ∧
        (c.IsNamedByRule text captures u ↔
          ∀ n, captures.find? Capture.isName = some n → (∃ m, Capture.Names captures c m) →
            n.place ∈ c.place.children))
      (captures.filter Capture.isUnit) (unitsOfMatch text captures) := by
  refine forall₂_filterMap (fun c _ => isUnit_eq captures c) fun c hc u hunit => ?_
  have hname := name_of_unitOf? hunit
  refine ⟨yields_of_unitOf? hunit, fun name => ?_, isNamedByRule_iff hplaces hc hname⟩
  rw [hname]
  exact nameOf_eq_some_iff hplaces hc

end Match

/-! ### A method in a class -/

/-- A class with a method. -/
def nestedMethod : List Char := "class A:\n    def f(self):\n        pass\n".toList

/-- A query that captures a class and a method of it, each with its name. -/
def nestedMethodQuery : String :=
  "(class_definition name: (identifier) @name " ++
  "body: (block (function_definition name: (identifier) @name) @method)) @class"

/-- The match captures the name of the class first, so the method stays without a name. -/
theorem captures_nestedMethod : ∃ q captures,
    Query.compile? Language.python.vocabulary nestedMethodQuery = some q ∧
    captures ∈ q.matchesIn nestedMethod (Language.python.parse nestedMethod) ∧
    ∃ c n u, (captures.filter Capture.isUnit)[1]? = some c ∧ n ∈ captures ∧
      (unitsOfMatch nestedMethod captures)[1]? = some u ∧ n.isName = true ∧
      c.place.isParentOf n.place = true ∧
      SyntaxTree.textOf nestedMethod n.place.node = "f" ∧ u.name = none := by
  have heval : (Query.compile? Language.python.vocabulary nestedMethodQuery).bind (fun q =>
      (q.matchesIn nestedMethod (Language.python.parse nestedMethod))[0]?.bind fun captures =>
        (captures.filter Capture.isUnit)[1]?.bind fun c => captures[3]?.bind fun n =>
          (unitsOfMatch nestedMethod captures)[1]?.map fun u =>
            (n.isName, c.place.isParentOf n.place, SyntaxTree.textOf nestedMethod n.place.node,
              u.name)) = some (true, true, "f", none) := by
    decide +kernel
  obtain ⟨q, hq, heval⟩ := Option.bind_eq_some_iff.mp heval
  obtain ⟨captures, hcaptures, heval⟩ := Option.bind_eq_some_iff.mp heval
  obtain ⟨c, hc, heval⟩ := Option.bind_eq_some_iff.mp heval
  obtain ⟨n, hn, heval⟩ := Option.bind_eq_some_iff.mp heval
  obtain ⟨u, hu, hfields⟩ := Option.map_eq_some_iff.mp heval
  simp only [Prod.mk.injEq] at hfields
  exact ⟨q, captures, hq, List.mem_of_getElem? hcaptures, c, n, u, hc, List.mem_of_getElem? hn, hu,
    hfields⟩

/-- The method has a name capture, and the first name capture of the match is none of its own. -/
theorem unitsOfMatch_naming_nestedMethod : ∃ q captures c u,
    Query.compile? Language.python.vocabulary nestedMethodQuery = some q ∧
    captures ∈ q.matchesIn nestedMethod (Language.python.parse nestedMethod) ∧
    (∀ c ∈ captures, c.place ∈ (Language.python.parse nestedMethod).nodes) ∧
    (captures.filter Capture.isUnit)[1]? = some c ∧
    (unitsOfMatch nestedMethod captures)[1]? = some u ∧ c.Yields nestedMethod u ∧
    ¬ c.IsNamedByRule nestedMethod captures u := by
  obtain ⟨q, captures, hq, hcaptures, c, n, u, hc, hn, hu, hname, hparent, -, hnone⟩ :=
    captures_nestedMethod
  have hplaces := q.place_mem_nodes _ _ captures hcaptures
  obtain ⟨hyields, hnamed, hrule⟩ := rel_of_getElem? (unitsOfMatch_naming hplaces) hc hu
  refine ⟨q, captures, c, u, hq, hcaptures, hplaces, hc, hu, hyields, ?_⟩
  have hmem : c ∈ captures := List.mem_of_mem_filter (List.mem_of_getElem? hc)
  have hchild := (PlacedNode.isParentOf_iff (hplaces c hmem) (hplaces n hn)).mp hparent
  rw [hrule]
  intro hfirst
  obtain ⟨first, hfind⟩ := Option.isSome_iff_exists.mp (List.find?_isSome.mpr ⟨n, hn, hname⟩)
  -- then the unit would have the text of the first name capture
  have hsome := (hnamed _).mpr ⟨first, hfind, hfirst first hfind ⟨n, hn, hname, hchild⟩, rfl⟩
  rw [hnone] at hsome
  cases hsome

/-- The match captures the name `f` directly inside the method, whose unit has no name. -/
theorem unitsOfMatch_nestedMethod : ∃ q captures,
    Query.compile? Language.python.vocabulary nestedMethodQuery = some q ∧
    captures ∈ q.matchesIn nestedMethod (Language.python.parse nestedMethod) ∧
    (∀ c ∈ captures, c.place ∈ (Language.python.parse nestedMethod).nodes) ∧
    (∃ c n u, (captures.filter Capture.isUnit)[1]? = some c ∧
      (unitsOfMatch nestedMethod captures)[1]? = some u ∧ Capture.Names captures c n ∧
      SyntaxTree.textOf nestedMethod n.place.node = "f" ∧ u.name = none) ∧
    ¬ List.Forall₂ (fun c u => c.Yields nestedMethod u ∧ c.IsNamedByRule nestedMethod captures u)
      (captures.filter Capture.isUnit) (unitsOfMatch nestedMethod captures) := by
  obtain ⟨q, captures, hq, hcaptures, c, n, u, hc, hn, hu, hname, hparent, htext, hnone⟩ :=
    captures_nestedMethod
  have hplaces := q.place_mem_nodes _ _ captures hcaptures
  have hmem : c ∈ captures := List.mem_of_mem_filter (List.mem_of_getElem? hc)
  have hnames : Capture.Names captures c n :=
    ⟨hn, hname, (PlacedNode.isParentOf_iff (hplaces c hmem) (hplaces n hn)).mp hparent⟩
  refine ⟨q, captures, hq, hcaptures, hplaces, ⟨c, n, u, hc, hu, hnames, htext, hnone⟩, ?_⟩
  intro hall
  obtain ⟨-, ⟨m, -, hm⟩ | ⟨hno, -⟩⟩ := rel_of_getElem? hall hc hu
  · rw [hnone] at hm
    cases hm
  · exact hno n hnames

end Extraction

/-! ### Matches with one name -/

namespace Pattern

mutual

/-- **Each match of a pattern captures the same number of names.** -/
theorem countP_isName_matchNode {p : PlacedNode} (pattern : Pattern) {captures : List Capture}
    (hmem : captures ∈ pattern.matchNode p) :
    captures.countP Capture.isName = pattern.namesCaptured := by
  obtain ⟨kind, field, items, names⟩ := pattern
  obtain ⟨-, inner, hinner, rfl⟩ := mem_matchNode.mp hmem
  rw [List.countP_append, List.countP_map, countP_isName_matchItems items hinner, namesCaptured]
  rfl

theorem countP_isName_matchItems {ps : List PlacedNode} (patterns : List Pattern)
    {captures : List Capture} (hmem : captures ∈ matchItems ps patterns) :
    captures.countP Capture.isName = namesCapturedIn patterns := by
  cases patterns with
  | nil =>
    obtain rfl := mem_matchItems_nil.mp hmem
    rw [namesCapturedIn, List.countP_nil]
  | cons pattern patterns =>
    obtain ⟨p, later, -, first, hfirst, rest, hrest, rfl⟩ := mem_matchItems_cons.mp hmem
    rw [List.countP_append, namesCapturedIn, countP_isName_matchNode pattern hfirst,
      countP_isName_matchItems patterns hrest]

end

end Pattern

namespace Extraction

/-- Where one name at most is captured, it is the first one. -/
theorem eq_of_countP_isName_le {captures : List Capture} {n m : Capture}
    (hle : captures.countP Capture.isName ≤ 1) (hn : captures.find? Capture.isName = some n)
    (hm : m ∈ captures) (hname : m.isName = true) : m = n := by
  obtain ⟨hfound, before, after, rfl, hbefore⟩ := List.find?_eq_some_iff_append.mp hn
  rw [List.countP_append, List.countP_cons, if_pos hfound] at hle
  have hafter : after.countP Capture.isName = 0 := by omega
  rcases List.mem_append.mp hm with hm | hm
  · have hnot := hbefore m hm
    rw [hname] at hnot
    cases hnot
  · rcases List.mem_cons.mp hm with rfl | hm
    · rfl
    · exact absurd hname (List.countP_eq_zero.mp hafter m hm)

/-- **In the supported languages every unit is named by the rule.** -/
theorem unitsOfMatch_builtin {e : Registry.Entry} (he : e ∈ Registry.builtin.entries) {q : Query}
    (hq : q ∈ e.queries) {text : List Char} {tree : SyntaxTree} {captures : List Capture}
    (hmem : captures ∈ q.matchesIn text tree) :
    List.Forall₂ (fun c u => c.Yields text u ∧ c.IsNamedByRule text captures u)
      (captures.filter Capture.isUnit) (unitsOfMatch text captures) := by
  have hplaces := q.place_mem_nodes text tree captures hmem
  obtain ⟨pattern, node, hchecked, hmem⟩ :=
    (Registry.isMadeOf_builtin he hq).exists_of_mem_matchesIn hmem
  rw [Pattern.namesOneWord, Bool.and_eq_true, decide_eq_true_eq] at hchecked
  have hle : captures.countP Capture.isName ≤ 1 := by
    rw [pattern.countP_isName_matchNode hmem]
    exact hchecked.2
  refine forall₂_filterMap (fun c _ => isUnit_eq captures c) fun c hc u hunit => ?_
  refine ⟨yields_of_unitOf? hunit, ?_⟩
  rw [isNamedByRule_iff hplaces hc (name_of_unitOf? hunit)]
  rintro n hfind ⟨m, hm⟩
  rw [← eq_of_countP_isName_le hle hfind hm.mem hm.isName]
  exact hm.child

end Extraction

end SourceChunks
