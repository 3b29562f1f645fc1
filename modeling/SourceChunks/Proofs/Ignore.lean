import SourceChunks.PathFilter
import SourceChunks.Proofs.Path

/-!
# Ignore patterns combine

A filter reads its patterns one by one and stops at the first one that is malformed
(`mapM_ofString_eq_error_iff`).  The patterns that always apply are read before those of the caller
and are never malformed, so it is the patterns of the caller that decide (`withDefaults_eq`).

A pattern is a name or a glob, and the two are matched in different ways (`IgnorePattern.Hits`).
What a filter ignores is what one of its patterns hits, so a list of patterns counts as a set, and
two lists together ignore what either of them does.  An ignored name stays where it is in every
longer path, so below an ignored path everything is ignored (`PathFilter.isIgnored_of_under`), which
is why a walk may turn back there.
-/

namespace SourceChunks

namespace IgnorePattern

/-! ### Reading one pattern -/

/-- **A malformed pattern**: it has a star, a question mark or an opening bracket and is no glob. -/
def Malformed (text : String) : Prop :=
  ('*' ∈ text.toList ∨ '?' ∈ text.toList ∨ '[' ∈ text.toList) ∧
    ∃ problem, Glob.ofString text = .error problem

/-- **What a pattern is there for**: with one of the three marks it is a glob and hits the names
that the glob matches, without them it hits the name that it spells. -/
def Hits (text : String) (n : Bytes) : Prop :=
  if isGlob text then
    ∃ g, Glob.ofString text = .ok g ∧ g.isMatch (Bytes.encode (Bytes.decode n)) = true
  else Bytes.decode n = text

theorem isGlob_iff {text : String} :
    isGlob text = true ↔ '*' ∈ text.toList ∨ '?' ∈ text.toList ∨ '[' ∈ text.toList := by
  unfold isGlob
  rw [List.any_eq_true]
  simp only [Bool.or_eq_true, beq_iff_eq, or_assoc]
  constructor
  · rintro ⟨c, hc, rfl | rfl | rfl⟩
    · exact Or.inl hc
    · exact Or.inr (Or.inl hc)
    · exact Or.inr (Or.inr hc)
  · rintro (hc | hc | hc)
    · exact ⟨_, hc, Or.inl rfl⟩
    · exact ⟨_, hc, Or.inr (Or.inl rfl)⟩
    · exact ⟨_, hc, Or.inr (Or.inr rfl)⟩

theorem ofString_eq_error_iff {text : String} {failure : Failure} :
    ofString text = .error failure ↔
      failure.pattern = text ∧ Malformed text ∧ Glob.ofString text = .error failure.problem := by
  obtain ⟨pattern, problem⟩ := failure
  unfold ofString Malformed
  rw [← isGlob_iff]
  by_cases hglob : isGlob text = true
  · rw [if_pos hglob]
    cases hread : Glob.ofString text with
    | ok g => simp
    | error found => simp [hglob, eq_comm]
  · rw [if_neg hglob]
    simp [hglob]

theorem exists_ofString_iff {text : String} :
    (∃ pattern, ofString text = .ok pattern) ↔ ¬Malformed text := by
  constructor
  · rintro ⟨pattern, hread⟩ hmalformed
    obtain ⟨problem, hproblem⟩ := hmalformed.2
    have herror : ofString text = .error ⟨text, problem⟩ :=
      ofString_eq_error_iff.mpr ⟨rfl, hmalformed, hproblem⟩
    rw [hread] at herror
    cases herror
  · intro hwell
    cases hread : ofString text with
    | ok pattern => exact ⟨pattern, rfl⟩
    | error failure => exact absurd (ofString_eq_error_iff.mp hread).2.1 hwell

/-- **A pattern that was read ignores what its text hits.** -/
theorem ignores_iff_hits {text : String} {pattern : IgnorePattern}
    (hread : ofString text = .ok pattern) (n : Bytes) :
    pattern.ignores n = true ↔ Hits text n := by
  unfold ofString at hread
  unfold Hits
  split_ifs at hread ⊢ with hglob
  · cases hg : Glob.ofString text with
    | error problem =>
      rw [hg] at hread
      cases hread
    | ok g =>
      rw [hg] at hread
      obtain rfl := Except.ok.inj hread
      simp [ignores]
  · obtain rfl := Except.ok.inj hread
    simp [ignores]

/-! ### Reading all patterns -/

/-- Reading patterns succeeds if and only if reading each of them does. -/
theorem mapM_ofString_eq_ok_iff (patterns : List String) :
    (∃ read, patterns.mapM ofString = .ok read) ↔
      ∀ pattern ∈ patterns, ∃ one, ofString pattern = .ok one := by
  induction patterns with
  | nil => simp [pure, Except.pure]
  | cons pattern rest ih =>
    rw [List.forall_mem_cons, ← ih, List.mapM_cons]
    cases ofString pattern with
    | error f => simp [bind, Except.bind]
    | ok one =>
      cases rest.mapM ofString with
      | error f => simp [bind, Except.bind]
      | ok others => simp [bind, Except.bind, pure, Except.pure]

/-- **Reading stops at the first pattern that cannot be read.** -/
theorem mapM_ofString_eq_error_iff {texts : List String} {failure : Failure} :
    texts.mapM ofString = .error failure ↔ ∃ before after,
      texts = before ++ failure.pattern :: after ∧ (∀ text ∈ before, ¬Malformed text) ∧
        ofString failure.pattern = .error failure := by
  induction texts with
  | nil => simp [pure, Except.pure]
  | cons text rest ih =>
    rw [List.mapM_cons]
    cases hread : ofString text with
    | error first =>
      have hfirst := ofString_eq_error_iff.mp hread
      constructor
      · intro h
        obtain rfl := Except.error.inj h
        exact ⟨[], rest, by rw [hfirst.1]; rfl, by simp, by rw [hfirst.1, hread]⟩
      · rintro ⟨before, after, hsplit, hbefore, hfailure⟩
        rcases List.cons_eq_append_iff.mp hsplit with ⟨rfl, hcons⟩ | ⟨tail, rfl, -⟩
        · obtain ⟨rfl, -⟩ := List.cons.inj hcons
          rw [hread] at hfailure
          rw [Except.error.inj hfailure]
          rfl
        · exact absurd hfirst.2.1 (hbefore text List.mem_cons_self)
    | ok pattern =>
      have hwell : ¬Malformed text := exists_ofString_iff.mp ⟨pattern, hread⟩
      have hrest : (do let x ← Except.ok pattern; let xs ← rest.mapM ofString; pure (x :: xs))
          = .error failure ↔ rest.mapM ofString = .error failure := by
        cases rest.mapM ofString with
        | error f => simp [bind, Except.bind]
        | ok others => simp [bind, Except.bind, pure, Except.pure]
      rw [hrest, ih]
      constructor
      · rintro ⟨before, after, rfl, hbefore, hfailure⟩
        exact ⟨text :: before, after, rfl, List.forall_mem_cons.mpr ⟨hwell, hbefore⟩, hfailure⟩
      · rintro ⟨before, after, hsplit, hbefore, hfailure⟩
        rcases List.cons_eq_append_iff.mp hsplit with ⟨rfl, hcons⟩ | ⟨tail, rfl, htail⟩
        · obtain ⟨rfl, -⟩ := List.cons.inj hcons
          rw [hread] at hfailure
          cases hfailure
        · exact ⟨tail, after, htail, (List.forall_mem_cons.mp hbefore).2, hfailure⟩

theorem mem_of_mapM {texts : List String} {patterns : List IgnorePattern}
    (h : texts.mapM ofString = .ok patterns) {pattern : IgnorePattern} :
    pattern ∈ patterns ↔ ∃ text ∈ texts, ofString text = .ok pattern := by
  induction texts generalizing patterns with
  | nil =>
    obtain rfl := Except.ok.inj h
    simp
  | cons text rest ih =>
    rw [List.mapM_cons] at h
    cases hfirst : ofString text with
    | error e =>
      rw [hfirst] at h
      cases h
    | ok first =>
      cases hlater : rest.mapM ofString with
      | error e =>
        rw [hfirst, hlater] at h
        cases h
      | ok later =>
        rw [hfirst, hlater] at h
        obtain rfl := Except.ok.inj h
        rw [List.mem_cons, ih hlater, List.exists_mem_cons_iff, hfirst, Except.ok.injEq, eq_comm]

/-- The patterns that always apply can be read. -/
theorem ofString_defaults : ∀ pattern ∈ defaults, ∃ one, ofString pattern = .ok one := by
  have h : defaults.all fun pattern => (ofString pattern).toOption.isSome := by decide +kernel
  intro pattern hmem
  have hsome := List.all_eq_true.mp h pattern hmem
  cases hread : ofString pattern with
  | error f =>
    rw [hread] at hsome
    cases hsome
  | ok one => exact ⟨one, rfl⟩

/-- **The patterns that always apply come first and cause no failure.** -/
theorem withDefaults_eq : ∃ always, ∀ extra,
    withDefaults extra = (extra.mapM ofString).map (always ++ ·) := by
  obtain ⟨always, halways⟩ := (mapM_ofString_eq_ok_iff defaults).mpr ofString_defaults
  refine ⟨always, fun extra => ?_⟩
  rw [withDefaults, List.mapM_append, halways]
  cases extra.mapM ofString with
  | error f => rfl
  | ok more => rfl

end IgnorePattern

namespace PathFilter

open IgnorePattern (Malformed Hits)

/-! ### Filters -/

/-- **What a filter is made of.** -/
theorem ofPatterns_eq_ok_iff {root : Path} {extra : List String} {size : Nat} {f : PathFilter} :
    ofPatterns root extra size = .ok f ↔ f.root = root ∧
      IgnorePattern.withDefaults extra = .ok f.patterns ∧ f.maxFileSize = size := by
  unfold ofPatterns
  cases IgnorePattern.withDefaults extra with
  | error e => simp [Except.map]
  | ok patterns =>
    rw [Except.map, Except.ok.injEq, Except.ok.injEq]
    constructor
    · rintro rfl
      exact ⟨rfl, rfl, rfl⟩
    · rintro ⟨rfl, rfl, rfl⟩
      rfl

variable {root : Path} {size : Nat} {xs ys : List String} {f g : PathFilter} {p q : Path}

/-- **There is a filter unless a pattern is malformed.** -/
theorem exists_ofPatterns_iff :
    (∃ f, ofPatterns root xs size = .ok f) ↔ ∀ text ∈ xs, ¬Malformed text := by
  obtain ⟨always, halways⟩ := IgnorePattern.withDefaults_eq
  have hread := IgnorePattern.mapM_ofString_eq_ok_iff xs
  simp only [IgnorePattern.exists_ofString_iff] at hread
  rw [← hread, ofPatterns, halways]
  cases xs.mapM IgnorePattern.ofString with
  | error f => simp [Except.map]
  | ok read => simp [Except.map]

/-- **A filter fails at the first malformed pattern.** -/
theorem ofPatterns_eq_error_iff {failure : IgnorePattern.Failure} :
    ofPatterns root xs size = .error failure ↔ ∃ before after,
      xs = before ++ failure.pattern :: after ∧ (∀ text ∈ before, ¬Malformed text) ∧
        Malformed failure.pattern ∧ Glob.ofString failure.pattern = .error failure.problem := by
  obtain ⟨always, halways⟩ := IgnorePattern.withDefaults_eq
  have hfailure : ofPatterns root xs size = .error failure ↔
      xs.mapM IgnorePattern.ofString = .error failure := by
    rw [ofPatterns, halways]
    cases xs.mapM IgnorePattern.ofString with
    | error f => simp [Except.map]
    | ok read => simp [Except.map]
  rw [hfailure, IgnorePattern.mapM_ofString_eq_error_iff]
  simp only [IgnorePattern.ofString_eq_error_iff, true_and]

/-- **What a filter ignores** is what one of its patterns hits below the root. -/
theorem isIgnored_iff (h : ofPatterns root xs size = .ok f) :
    f.isIgnored p = true ↔ ∃ n ∈ Path.names (Path.below root p),
      ∃ text ∈ IgnorePattern.defaults ++ xs, Hits text n := by
  obtain ⟨hroot, hpatterns, -⟩ := ofPatterns_eq_ok_iff.mp h
  have hmem : ∀ pattern, pattern ∈ f.patterns ↔
      ∃ text ∈ IgnorePattern.defaults ++ xs, IgnorePattern.ofString text = .ok pattern :=
    fun pattern => IgnorePattern.mem_of_mapM hpatterns
  rw [isIgnored, hroot, List.any_eq_true]
  refine exists_congr fun n => and_congr_right fun _ => ?_
  rw [ignoresName, List.any_eq_true]
  constructor
  · rintro ⟨pattern, hpattern, hignores⟩
    obtain ⟨text, htext, hread⟩ := (hmem pattern).mp hpattern
    exact ⟨text, htext, (IgnorePattern.ignores_iff_hits hread n).mp hignores⟩
  · rintro ⟨text, htext, hhits⟩
    have hall := (IgnorePattern.mapM_ofString_eq_ok_iff _).mp ⟨_, hpatterns⟩
    obtain ⟨pattern, hread⟩ := hall text htext
    exact ⟨pattern, (hmem pattern).mpr ⟨text, htext, hread⟩,
      (IgnorePattern.ignores_iff_hits hread n).mpr hhits⟩

/-- **Below an ignored path everything is ignored.**  The names that lead to the path lead
on to what is below it. -/
theorem isIgnored_of_under (hroot : f.root.Under p) (hpq : p.Under q)
    (hp : f.isIgnored p = true) : f.isIgnored q = true := by
  obtain ⟨way, hway⟩ := hroot
  obtain ⟨rest, hrest⟩ := hpq
  have hlonger : q.components = f.root.components ++ (way ++ rest) := by
    rw [← hrest, ← hway, List.append_assoc]
  have hnames : Path.names (way ++ rest) = Path.names way ++ Path.names rest :=
    List.filterMap_append
  rw [isIgnored, Path.below_of_components_eq hway.symm] at hp
  rw [isIgnored, Path.below_of_components_eq hlonger, hnames, List.any_append, hp, Bool.true_or]

/-- **Lists of patterns are read as sets**: a filter of as many patterns ignores as much. -/
theorem isIgnored_mono (hsub : xs ⊆ ys) (hf : ofPatterns root xs size = .ok f)
    (hg : ofPatterns root ys size = .ok g) (hp : f.isIgnored p = true) : g.isIgnored p = true := by
  obtain ⟨n, hn, text, htext, hhits⟩ := (isIgnored_iff hf).mp hp
  have hmem : text ∈ IgnorePattern.defaults ++ ys := by
    rw [List.mem_append] at htext ⊢
    exact htext.imp_right fun h => hsub h
  exact (isIgnored_iff hg).mpr ⟨n, hn, text, hmem, hhits⟩

/-- **Ignore patterns combine.**  Two lists of patterns can be read together if and only if each of
them can, and then ignore what either of them ignores; neither the order nor the number of times
that a pattern is given matters.  A path is ignored if one of its names below the root is hit by one
of the patterns, those that always apply included, and then everything below the path is ignored
too.  If there is no filter, the failure names the first malformed pattern of the list and says what
is wrong with it; a pattern without any of the three marks is never malformed. -/
theorem patterns_combine (root : Path) (size : Nat) (xs ys : List String) :
    ((∃ h, ofPatterns root (xs ++ ys) size = .ok h) ↔
      (∃ f, ofPatterns root xs size = .ok f) ∧ ∃ g, ofPatterns root ys size = .ok g) ∧
    (∀ f g, ofPatterns root xs size = .ok f → ofPatterns root ys size = .ok g →
      ∃ h, ofPatterns root (xs ++ ys) size = .ok h ∧
        ∀ p, h.isIgnored p = (f.isIgnored p || g.isIgnored p)) ∧
    ((∀ text, text ∈ xs ↔ text ∈ ys) → ∀ f, ofPatterns root xs size = .ok f →
      ∃ g, ofPatterns root ys size = .ok g ∧ ∀ p, g.isIgnored p = f.isIgnored p) ∧
    (∀ f, ofPatterns root xs size = .ok f →
      (∀ p, f.isIgnored p = true ↔ ∃ n ∈ Path.names (Path.below root p),
        ∃ text ∈ IgnorePattern.defaults ++ xs, Hits text n) ∧
      ∀ p, root.Under p → f.isIgnored p = true →
        (∀ q, p.Under q → f.isIgnored q = true) ∧
        ∀ rel, rel.isAbsolute = false → f.isIgnored (p.join rel) = true) ∧
    (∀ failure, ofPatterns root xs size = .error failure ↔ ∃ before after,
      xs = before ++ failure.pattern :: after ∧ (∀ text ∈ before, ¬Malformed text) ∧
        Malformed failure.pattern ∧ Glob.ofString failure.pattern = .error failure.problem) ∧
    ((∀ text ∈ xs, '*' ∉ text.toList ∧ '?' ∉ text.toList ∧ '[' ∉ text.toList) →
      ∃ f, ofPatterns root xs size = .ok f) := by
  have hboth : (∃ h, ofPatterns root (xs ++ ys) size = .ok h) ↔
      (∃ f, ofPatterns root xs size = .ok f) ∧ ∃ g, ofPatterns root ys size = .ok g := by
    rw [exists_ofPatterns_iff, exists_ofPatterns_iff, exists_ofPatterns_iff,
      List.forall_mem_append]
  refine ⟨hboth, ?_, ?_, ?_, fun failure => ofPatterns_eq_error_iff, ?_⟩
  · intro f g hf hg
    obtain ⟨h, hh⟩ := hboth.mpr ⟨⟨f, hf⟩, ⟨g, hg⟩⟩
    refine ⟨h, hh, fun p => ?_⟩
    rw [Bool.eq_iff_iff, Bool.or_eq_true]
    constructor
    · intro hp
      obtain ⟨n, hn, text, htext, hhits⟩ := (isIgnored_iff hh).mp hp
      rw [← List.append_assoc, List.mem_append] at htext
      rcases htext with htext | htext
      · exact Or.inl ((isIgnored_iff hf).mpr ⟨n, hn, text, htext, hhits⟩)
      · exact Or.inr ((isIgnored_iff hg).mpr
          ⟨n, hn, text, List.mem_append_right _ htext, hhits⟩)
    · rintro (hp | hp)
      · exact isIgnored_mono (List.subset_append_left xs ys) hf hh hp
      · exact isIgnored_mono (List.subset_append_right xs ys) hg hh hp
  · intro hsame f hf
    have hwell : ∀ text ∈ ys, ¬Malformed text := by
      intro text htext
      exact exists_ofPatterns_iff.mp ⟨f, hf⟩ text ((hsame text).mpr htext)
    obtain ⟨g, hg⟩ := exists_ofPatterns_iff.mpr hwell
    refine ⟨g, hg, fun p => ?_⟩
    rw [Bool.eq_iff_iff]
    constructor
    · exact isIgnored_mono (fun text => (hsame text).mpr) hg hf
    · exact isIgnored_mono (fun text => (hsame text).mp) hf hg
  · intro f hf
    have hroot : f.root = root := (ofPatterns_eq_ok_iff.mp hf).1
    refine ⟨fun p => isIgnored_iff hf, fun p hp hignored => ?_⟩
    rw [← hroot] at hp
    have hunder : ∀ q, p.Under q → f.isIgnored q = true :=
      fun q hq => isIgnored_of_under hp hq hignored
    exact ⟨hunder, fun rel hrel => hunder _ (Path.under_join p hrel)⟩
  · intro hmarks
    refine exists_ofPatterns_iff.mpr fun text htext hmalformed => ?_
    obtain ⟨hstar, hquestion, hbracket⟩ := hmarks text htext
    rcases hmalformed.1 with h | h | h
    · exact hstar h
    · exact hquestion h
    · exact hbracket h

/-- A root, an ignored directory in it, and a path that leads out of the directory again. -/
def generatedRoot : Path := Path.ofString "repo/"

def generatedPath : Path := Path.ofString "repo//gen/."

def generatedDetour : Path := Path.ofString "repo/gen/../a.py"

/-- The same two patterns in another order, one of them given twice.  The detour is ignored with the
directory, though the file that it leads to is not. -/
theorem patterns_combine_generated :
    (∀ text, text ∈ ["gen", "*.tmp"] ↔ text ∈ ["*.tmp", "gen", "gen"]) ∧
    generatedRoot.Under generatedPath ∧ generatedPath.Under generatedDetour ∧
    (∀ text ∈ ["gen"], '*' ∉ text.toList ∧ '?' ∉ text.toList ∧ '[' ∉ text.toList) ∧
    (∃ plain, ofPatterns generatedRoot ["gen"] 9 = .ok plain) ∧
    ofPatterns generatedRoot ["gen", "[b-a]", "["] 9
      = .error ⟨"[b-a]", .emptyRange 'b' 'a'⟩ ∧
    ∃ f g h, ofPatterns generatedRoot ["gen", "*.tmp"] 9 = .ok f ∧
      ofPatterns generatedRoot ["*.tmp", "gen", "gen"] 9 = .ok g ∧
      ofPatterns generatedRoot (["gen", "*.tmp"] ++ ["*.tmp", "gen", "gen"]) 9 = .ok h ∧
      (∀ p, h.isIgnored p = (f.isIgnored p || g.isIgnored p)) ∧
      (∀ p, g.isIgnored p = f.isIgnored p) ∧ f.isIgnored generatedPath = true ∧
      f.isIgnored generatedDetour = true ∧
      f.isIgnored (generatedPath.join (Path.ofString "../a.py")) = true ∧
      f.isIgnored (Path.ofString "repo/a.py") = false := by
  have hsame : ∀ text, text ∈ ["gen", "*.tmp"] ↔ text ∈ ["*.tmp", "gen", "gen"] := by
    intro text
    simp [or_comm]
  have hpath : generatedRoot.Under generatedPath := by decide
  have hdetour : generatedPath.Under generatedDetour := by decide
  have hmarks : ∀ text ∈ ["gen"], '*' ∉ text.toList ∧ '?' ∉ text.toList ∧ '[' ∉ text.toList := by
    decide
  obtain ⟨f, hf, hignored, hfree⟩ : ∃ f, ofPatterns generatedRoot ["gen", "*.tmp"] 9 = .ok f ∧
      f.isIgnored generatedPath = true ∧ f.isIgnored (Path.ofString "repo/a.py") = false :=
    ⟨_, rfl, by decide +kernel, by decide +kernel⟩
  obtain ⟨-, hunion, hset, hbelow, -, -⟩ :=
    patterns_combine generatedRoot 9 ["gen", "*.tmp"] ["*.tmp", "gen", "gen"]
  obtain ⟨g, hg, hequal⟩ := hset hsame f hf
  obtain ⟨h, hh, heither⟩ := hunion f g hf hg
  obtain ⟨hunder, hjoin⟩ := (hbelow f hf).2 generatedPath hpath hignored
  have hplain := (patterns_combine generatedRoot 9 ["gen"] []).2.2.2.2.2 hmarks
  exact ⟨hsame, hpath, hdetour, hmarks, hplain, rfl, f, g, h, hf, hg, hh, heither, hequal, hignored,
    hunder _ hdetour, hjoin _ (by decide), hfree⟩

end PathFilter

end SourceChunks
