import SourceChunks.Proofs.Chunk.FileNames
import SourceChunks.Proofs.Scan.TrackedPaths
import SourceChunks.Proofs.Scan.Undisturbed
import Mathlib.Data.List.Destutter

/-!
# What is listed of any index

The paths of an index are bytes.  They are put in order as bytes, then shown as text, and then
repeats are dropped, but only next to each other.  Text tells less than bytes: what is no text is
shown as U+FFFD, so several paths can look alike, and others can stand between them in the order of
the bytes.  Then a path is listed twice, and the scan goes through its file twice
(`Scanner.paths_undecodableRepository`).  What is listed holds no repeats exactly if the entries
that are shown alike stand together (`Tracked.StandTogether`), as those of clean paths always do.
-/

namespace SourceChunks

/-! ### Repeats that are left -/

section Destutter

variable {α : Type} [DecidableEq α]

theorem mem_destutter'_ne_iff {a x : α} {l : List α} :
    x ∈ l.destutter' (· ≠ ·) a ↔ x ∈ a :: l := by
  constructor
  · intro h
    exact (List.destutter'_sublist l (· ≠ ·) a).subset h
  · intro h
    induction l generalizing a with
    | nil => exact h
    | cons b l ih =>
      by_cases hne : a ≠ b
      · rw [List.destutter'_cons_pos l hne]
        rcases List.mem_cons.mp h with rfl | h
        · exact List.mem_cons_self
        · exact List.mem_cons_of_mem a (ih h)
      · rw [List.destutter'_cons_neg l hne]
        obtain rfl := not_not.mp hne
        refine ih ?_
        rcases List.mem_cons.mp h with rfl | h
        · exact List.mem_cons_self
        · exact h

/-- By induction on the list, with the element before it: what comes before another element is never
kept again exactly if it does not come back. -/
theorem nodup_destutter'_iff {a : α} {l : List α} :
    (l.destutter' (· ≠ ·) a).Nodup ↔ ∀ x y, [x, y, x].Sublist (a :: l) → y = x := by
  induction l generalizing a with
  | nil =>
    constructor
    · intro _ x y h
      have hlength := h.length_le
      simp at hlength
    · intro _
      exact List.nodup_singleton a
  | cons b l ih =>
    by_cases hne : a ≠ b
    · rw [List.destutter'_cons_pos l hne, List.nodup_cons, mem_destutter'_ne_iff, ih]
      constructor
      · rintro ⟨hgone, hrest⟩ x y h
        rcases List.sublist_cons_iff.mp h with h | ⟨r, hr, h⟩
        · exact hrest x y h
        · obtain ⟨rfl, rfl⟩ := List.cons.inj hr
          exact absurd (h.subset (List.mem_cons_of_mem y List.mem_cons_self)) hgone
      · intro hall
        refine ⟨fun hmem => ?_, fun x y h => hall x y (h.cons a)⟩
        -- the first element would come back behind another one
        have hback := (List.mem_cons.mp hmem).resolve_left hne
        exact hne (hall a b (((List.singleton_sublist.mpr hback).cons_cons b).cons_cons a)).symm
    · rw [List.destutter'_cons_neg l hne, ih]
      obtain rfl := not_not.mp hne
      constructor
      · intro hall x y h
        rcases List.sublist_cons_iff.mp h with h | ⟨r, hr, h⟩
        · exact hall x y h
        · obtain ⟨rfl, rfl⟩ := List.cons.inj hr
          rcases List.sublist_cons_iff.mp h with h | ⟨r, hr, -⟩
          · exact hall x y (h.cons_cons x)
          · exact (List.cons.inj hr).1
      · intro hall x y h
        exact hall x y (h.cons a)

/-- **Without repeats of neighbours, no repeats are left exactly if equal elements
stand together.** -/
theorem nodup_destutter_iff {l : List α} :
    (l.destutter (· ≠ ·)).Nodup ↔ ∀ x y, [x, y, x].Sublist l → y = x := by
  cases l with
  | nil =>
    refine ⟨fun _ x y h => ?_, fun _ => List.nodup_nil⟩
    cases h
  | cons a l => exact nodup_destutter'_iff

end Destutter

/-! ### Entries as they are shown -/

namespace TrackedEntry

variable {a b e : TrackedEntry}

/-- The two entries are shown as paths that mean the same. -/
def ShownAlike (a b : TrackedEntry) : Prop := a.listed.components = b.listed.components

instance : DecidableRel ShownAlike := fun a b =>
  inferInstanceAs (Decidable (a.listed.components = b.listed.components))

theorem shownAlike_of_path_eq (h : a.path = b.path) : a.ShownAlike b := by
  rw [ShownAlike, listed, listed, h]

/-- Every segment of the path is a name, be it text or not. -/
def IsNamed (e : TrackedEntry) : Prop := ∀ s ∈ splitAt Path.slash e.path, Path.IsName s

/-- The entry with its path as it is shown. -/
def shown (e : TrackedEntry) : TrackedEntry := ⟨e.listed.bytes, e.stage⟩

/-- Bytes without a slash that decode like a name are a name. -/
theorem isName_of_decodeChars_eq {n s : Bytes} (hn : Path.IsName n) (hslash : Path.slash ∉ s)
    (h : Bytes.decodeChars s = Bytes.decodeChars n) : Path.IsName s := by
  obtain ⟨hnil, hdot, hdots, -⟩ := hn.decodeChars
  rw [← h] at hnil hdot hdots
  refine ⟨?_, ?_, ?_, hslash⟩
  · rintro rfl
    exact hnil (by decide)
  · rintro rfl
    exact hdot (by decide)
  · rintro rfl
    exact hdots (by decide)

/-- **Shown paths are clean** if their segments are names: what is no text has been replaced. -/
theorem IsNamed.isClean_shown (h : e.IsNamed) : e.shown.IsClean where
  text := by
    show Bytes.encode (Bytes.decode (Bytes.encode (Bytes.decode e.path))) = _
    rw [Bytes.decode_encode]
    rfl
  names := by
    intro s hs
    -- its segments decode to what the segments of the entry decode to
    have hdecoded : Bytes.decodeChars e.shown.path = Bytes.decodeChars e.path := by
      show Bytes.decodeChars (Bytes.encode (Bytes.decode e.path)) = _
      rw [Bytes.encode, Bytes.decodeChars_encodeChars, Bytes.decode, String.toList_ofList]
    have hsplit := Bytes.splitAt_decodeChars (show Bytes.IsAscii Path.slash by decide) e.shown.path
    rw [hdecoded, Bytes.splitAt_decodeChars (show Bytes.IsAscii Path.slash by decide)] at hsplit
    have hmem : Bytes.decodeChars s ∈ (splitAt Path.slash e.path).map Bytes.decodeChars := by
      rw [hsplit]
      exact List.mem_map_of_mem hs
    obtain ⟨n, hn, heq⟩ := List.mem_map.mp hmem
    exact isName_of_decodeChars_eq (h n hn) (not_mem_of_mem_splitAt hs) heq.symm

/-- Named entries that are shown alike are shown as the same path. -/
theorem IsNamed.listed_eq (ha : a.IsNamed) (hb : b.IsNamed) (h : a.ShownAlike b) :
    a.listed = b.listed :=
  congrArg Path.mk (ha.isClean_shown.path_eq hb.isClean_shown h)

/-- **Seen from a root, a shown path has the components of the root and its own.** -/
theorem IsNamed.components_join (h : e.IsNamed) {root : Path} (hroot : root.bytes ≠ []) :
    (root.join e.listed).components = root.components ++ e.listed.components := by
  have hclean := h.isClean_shown
  show (root.join ⟨e.shown.path⟩).components = root.components ++ (⟨e.shown.path⟩ : Path).components
  rw [hclean.join_eq_descend hroot, Path.components_descend root hclean.names,
    hclean.components_eq]

end TrackedEntry

/-! ### What is listed -/

namespace Tracked

variable {entries : List TrackedEntry}

theorem dropRepeatsAfter_eq (last : Path) (paths : List Path) :
    last :: dropRepeatsAfter last paths
      = paths.destutter' (fun p q => p.components ≠ q.components) last := by
  induction paths generalizing last with
  | nil => rfl
  | cons p paths ih =>
    rw [dropRepeatsAfter]
    by_cases heq : p.components = last.components
    · rw [if_pos heq, List.destutter'_cons_neg paths (fun hne => hne heq.symm), ih]
    · rw [if_neg heq, List.destutter'_cons_pos paths (fun h => heq h.symm), ih]

theorem dropRepeats_eq (paths : List Path) :
    dropRepeats paths = paths.destutter fun p q => p.components ≠ q.components := by
  cases paths with
  | nil => rfl
  | cons p paths => exact dropRepeatsAfter_eq p paths

theorem map_components_pathsOf (entries : List TrackedEntry) :
    (pathsOf entries).map Path.components = ((entries.mergeSort TrackedEntry.le).map
      fun e => e.listed.components).destutter (· ≠ ·) := by
  show (dropRepeats ((entries.mergeSort TrackedEntry.le).map TrackedEntry.listed)).map _ = _
  rw [dropRepeats_eq, List.map_destutter (f := Path.components) (fun _ _ _ _ => Iff.rfl),
    List.map_map]
  rfl

/-- **Entries that are shown alike stand together** in the order of the paths: what lies between two
of them is shown like them. -/
def StandTogether (entries : List TrackedEntry) : Prop :=
  ∀ a ∈ entries, ∀ b ∈ entries, ∀ c ∈ entries, Bytes.le a.path b.path = true →
    Bytes.le b.path c.path = true → a.ShownAlike c → b.ShownAlike a

instance (entries : List TrackedEntry) : Decidable (StandTogether entries) :=
  inferInstanceAs (Decidable (∀ a ∈ entries, ∀ b ∈ entries, ∀ c ∈ entries,
    Bytes.le a.path b.path = true → Bytes.le b.path c.path = true → a.ShownAlike c →
      b.ShownAlike a))

theorem sublist_of_before {sorted : List TrackedEntry} {a b c : TrackedEntry}
    (hsorted : sorted.Pairwise fun a b => Bytes.le a.path b.path = true) (ha : a ∈ sorted)
    (hb : b ∈ sorted) (hc : c ∈ sorted) (hab : Bytes.Before a.path b.path)
    (hbc : Bytes.Before b.path c.path) : [a, b, c].Sublist sorted := by
  have hnot : ∀ {x y : TrackedEntry}, Bytes.Before x.path y.path →
      ¬ Bytes.le y.path x.path = true := by
    intro x y hbefore hle
    rcases Bytes.le_iff.mp hle with heq | hafter
    · rw [heq] at hbefore
      exact Std.Asymm.asymm (r := Bytes.Before) _ _ hbefore hbefore
    · exact Std.Asymm.asymm (r := Bytes.Before) _ _ hbefore hafter
  have hne : ∀ {x y : TrackedEntry}, Bytes.Before x.path y.path → x ≠ y := by
    rintro x _ hbefore rfl
    exact Std.Asymm.asymm (r := Bytes.Before) _ _ hbefore hbefore
  obtain ⟨front, back, rfl⟩ := List.append_of_mem hb
  obtain ⟨-, hback, hcross⟩ := List.pairwise_append.mp hsorted
  have ha' : a ∈ front := by
    refine (List.mem_append.mp ha).resolve_right fun hmem => ?_
    have hmem := (List.mem_cons.mp hmem).resolve_left (hne hab)
    exact hnot hab ((List.pairwise_cons.mp hback).1 a hmem)
  have hc' : c ∈ back := by
    rcases List.mem_append.mp hc with hmem | hmem
    · exact absurd (hcross c hmem b List.mem_cons_self) (hnot hbc)
    · exact (List.mem_cons.mp hmem).resolve_left (hne hbc).symm
  exact (List.singleton_sublist.mpr ha').append ((List.singleton_sublist.mpr hc').cons_cons b)

/-- **No two listed paths mean the same exactly if entries that are shown alike stand together.** -/
theorem pairwise_pathsOf_iff :
    (pathsOf entries).Pairwise (fun p q => p.components ≠ q.components) ↔
      StandTogether entries := by
  have hsorted : (entries.mergeSort TrackedEntry.le).Pairwise
      fun a b => Bytes.le a.path b.path = true :=
    (List.pairwise_mergeSort TrackedEntry.le_trans TrackedEntry.le_total entries).imp
      TrackedEntry.le_path
  rw [← List.pairwise_map (f := Path.components) (R := (· ≠ ·)), map_components_pathsOf]
  show List.Nodup _ ↔ _
  rw [nodup_destutter_iff]
  constructor
  · intro hall a ha b hb c hc hab hbc hac
    by_contra hne
    have hpath : a.path ≠ b.path := fun heq =>
      hne (TrackedEntry.shownAlike_of_path_eq heq.symm)
    have hpath' : b.path ≠ c.path := fun heq =>
      hne ((TrackedEntry.shownAlike_of_path_eq heq).trans hac.symm)
    have hsub := sublist_of_before hsorted (List.mem_mergeSort.mpr ha) (List.mem_mergeSort.mpr hb)
      (List.mem_mergeSort.mpr hc) ((Bytes.le_iff.mp hab).resolve_left hpath)
      ((Bytes.le_iff.mp hbc).resolve_left hpath')
    refine hne (hall a.listed.components b.listed.components ?_)
    have hmap := hsub.map fun e => e.listed.components
    rw [List.map_cons, List.map_cons, List.map_singleton] at hmap
    rwa [← show a.listed.components = c.listed.components from hac] at hmap
  · intro htogether x y hsub
    obtain ⟨triple, hsub, htriple⟩ := List.sublist_map_iff.mp hsub
    obtain ⟨a, rest, rfl, hax, hrest⟩ := List.map_eq_cons_iff.mp htriple.symm
    obtain ⟨b, rest', rfl, hby, hrest'⟩ := List.map_eq_cons_iff.mp hrest
    obtain ⟨c, rest'', rfl, hcx, hnil⟩ := List.map_eq_cons_iff.mp hrest'
    obtain rfl := List.map_eq_nil_iff.mp hnil
    have hmem : ∀ e ∈ [a, b, c], e ∈ entries := fun e he => List.mem_mergeSort.mp (hsub.subset he)
    obtain ⟨ha, hbc⟩ := List.pairwise_cons.mp (hsorted.sublist hsub)
    have hle := (List.pairwise_cons.mp hbc).1 c List.mem_cons_self
    rw [← hax, ← hby]
    exact htogether a (hmem a (by simp)) b (hmem b (by simp)) c (hmem c (by simp))
      (ha b List.mem_cons_self) hle (hax.trans hcx.symm)

/-- Clean paths that are shown alike are the same, so nothing lies between them. -/
theorem standTogether_of_isClean (h : ∀ e ∈ entries, e.IsClean) : StandTogether entries := by
  intro a ha b hb c hc hab hbc hac
  have hlisted : (⟨a.path⟩ : Path).components = (⟨c.path⟩ : Path).components := by
    rw [← (h a ha).listed_eq, ← (h c hc).listed_eq]
    exact hac
  rw [← (h a ha).path_eq (h c hc) hlisted] at hbc
  apply TrackedEntry.shownAlike_of_path_eq
  rcases Bytes.le_iff.mp hbc with heq | hbefore
  · exact heq
  · rcases Bytes.le_iff.mp hab with heq | hafter
    · exact heq.symm
    · exact absurd hafter (Std.Asymm.asymm (r := Bytes.Before) _ _ hbefore)

theorem exists_of_mem_pathsOf {p : Path} (h : p ∈ pathsOf entries) :
    ∃ e ∈ entries, p = e.listed := by
  rw [pathsOf, dropRepeats_eq] at h
  obtain ⟨e, he, rfl⟩ := List.mem_map.mp ((List.destutter_sublist _ _).subset h)
  exact ⟨e, List.mem_mergeSort.mp he, rfl⟩

/-- **Every entry is listed**, by a path that means the same. -/
theorem exists_mem_pathsOf {e : TrackedEntry} (he : e ∈ entries) :
    ∃ p ∈ pathsOf entries, p.components = e.listed.components := by
  have hmem : e.listed.components ∈ (pathsOf entries).map Path.components := by
    rw [map_components_pathsOf]
    have he' : e.listed.components ∈ (entries.mergeSort TrackedEntry.le).map
        fun e => e.listed.components :=
      List.mem_map_of_mem (List.mem_mergeSort.mpr he)
    cases hlist : (entries.mergeSort TrackedEntry.le).map fun e => e.listed.components with
    | nil =>
      rw [hlist] at he'
      exact absurd he' List.not_mem_nil
    | cons c cs =>
      rw [hlist] at he'
      exact mem_destutter'_ne_iff.mpr he'
  exact List.mem_map.mp hmem

end Tracked

/-! ### The candidates of a scan -/

namespace Scanner

/-- **The paths of an index, as they are listed and scanned.**  In a repository whose index has some
entries, what is listed are the entries as they are shown, and every entry is listed.  No two listed
paths mean the same exactly if entries that are shown alike stand together, which clean ones do.  If
all segments are names, every shown path is listed itself, and no two candidates of a scan mean the
same under the same condition. -/
theorem index_listing {fs : FileSystem} {o : ScanOptions} {s : Scanner}
    (hs : ofOptions fs o = .ok s) (huse : o.useTracked = true) {d : Directory}
    (hrepository : Tracked.repositoryIn? fs o.root = some d) {entries : List TrackedEntry}
    (hindex : d.find? Tracked.indexName = some (.index (some entries))) :
    ∃ listed, (s.tracked fs o.root).answer = .ok (some listed) ∧
      s.expectedPaths fs = listed.map o.root.join ∧
      (∀ p ∈ listed, ∃ e ∈ entries, p = e.listed) ∧
      (∀ e ∈ entries, ∃ p ∈ listed, p.components = e.listed.components) ∧
      (listed.Pairwise (fun p q => p.components ≠ q.components) ↔
        Tracked.StandTogether entries) ∧
      ((∀ e ∈ entries, e.IsClean) → Tracked.StandTogether entries) ∧
      ((∀ e ∈ entries, e.IsNamed) → (∀ e ∈ entries, e.listed ∈ listed) ∧
        ((s.expectedPaths fs).Pairwise (fun p q => p.components ≠ q.components) ↔
          Tracked.StandTogether entries)) := by
  have hanswer : (s.tracked fs o.root).answer = .ok (some (Tracked.pathsOf entries)) := by
    rw [tracked_of_ofOptions hs, Tracked.answer_ofIndex_of_some hrepository, hindex]
    rfl
  have hpaths : s.expectedPaths fs = (Tracked.pathsOf entries).map o.root.join := by
    rw [expectedPaths, (ofOptions_eq_ok hs).1, huse, hanswer]
  refine ⟨_, hanswer, hpaths, fun p => Tracked.exists_of_mem_pathsOf,
    fun e => Tracked.exists_mem_pathsOf, Tracked.pairwise_pathsOf_iff,
    Tracked.standTogether_of_isClean, fun hnamed => ⟨?_, ?_⟩⟩
  · intro e he
    obtain ⟨p, hp, hcomponents⟩ := Tracked.exists_mem_pathsOf he
    obtain ⟨e', he', rfl⟩ := Tracked.exists_of_mem_pathsOf hp
    rwa [← (hnamed e' he').listed_eq (hnamed e he) hcomponents]
  · obtain ⟨l, hlocate, -⟩ := FileSystem.exists_of_isDirectory (isDirectory_of_ofOptions hs)
    have hroot := FileSystem.bytes_ne_nil_of_locate hlocate
    rw [hpaths, List.pairwise_map, ← Tracked.pairwise_pathsOf_iff]
    -- the root puts the same components before those of every listed path
    refine List.Pairwise.iff_of_mem fun {p q} hp hq => ?_
    obtain ⟨e, he, rfl⟩ := Tracked.exists_of_mem_pathsOf hp
    obtain ⟨e', he', rfl⟩ := Tracked.exists_of_mem_pathsOf hq
    rw [(hnamed e he).components_join hroot, (hnamed e' he').components_join hroot, ne_eq,
      List.append_cancel_left_eq]

/-- An index with three paths, of which the first and the last are no text. -/
def undecodableEntries : List TrackedEntry :=
  [⟨[0x80, 0x2E, 0x70, 0x79], 0⟩, ⟨Bytes.encode "é.py", 0⟩, ⟨[0xFF, 0x2E, 0x70, 0x79], 0⟩]

/-- The repository of that index, with a file that has the name both are shown as. -/
def undecodableRepository : FileSystem where
  top := .cons (Bytes.encode "repo") (.directory
    (.cons (Bytes.encode ".git")
      (.directory (.cons (Bytes.encode "index") (.index (some undecodableEntries)) .nil))
    (.cons (Bytes.encode "\uFFFD.py") (.file (Bytes.encode "x = 1\n")) .nil))) .nil

/-- The index is in order already, and the first path comes back behind the second. -/
theorem pathsOf_undecodableEntries : Tracked.pathsOf undecodableEntries
    = [Path.ofString "\uFFFD.py", Path.ofString "é.py", Path.ofString "\uFFFD.py"] := by
  have hsorted : undecodableEntries.mergeSort TrackedEntry.le = undecodableEntries :=
    List.mergeSort_of_pairwise (by decide)
  rw [Tracked.pathsOf, hsorted]
  decide +kernel

/-- The segments of the paths are names, and the paths are shown as the listed ones. -/
theorem index_listing_undecodableRepository :
    ∃ s d listed, ofOptions undecodableRepository { root := Path.ofString "repo" } = .ok s ∧
      Tracked.repositoryIn? undecodableRepository (Path.ofString "repo") = some d ∧
      d.find? Tracked.indexName = some (.index (some undecodableEntries)) ∧
      (s.tracked undecodableRepository (Path.ofString "repo")).answer = .ok (some listed) ∧
      (∀ e ∈ undecodableEntries, e.listed ∈ listed) ∧
      ¬ (s.expectedPaths undecodableRepository).Pairwise
        fun p q => p.components ≠ q.components := by
  obtain ⟨s, hs⟩ : ∃ s, ofOptions undecodableRepository { root := Path.ofString "repo" } = .ok s :=
    ⟨_, rfl⟩
  obtain ⟨d, hrepository, hindex⟩ : ∃ d,
      Tracked.repositoryIn? undecodableRepository (Path.ofString "repo") = some d ∧
      d.find? Tracked.indexName = some (.index (some undecodableEntries)) := ⟨_, rfl, rfl⟩
  obtain ⟨listed, hanswer, -, -, -, -, -, hnamed⟩ := index_listing hs rfl hrepository hindex
  have hnames : ∀ e ∈ undecodableEntries, e.IsNamed := by
    unfold TrackedEntry.IsNamed
    decide
  obtain ⟨hall, hpaths⟩ := hnamed hnames
  refine ⟨s, d, listed, hs, hrepository, hindex, hanswer, hall, ?_⟩
  rw [hpaths]
  decide +kernel

/-- **A path can be listed twice, and then its file is scanned twice.** -/
theorem paths_undecodableRepository :
    ∃ s, ofOptions undecodableRepository { root := Path.ofString "repo" } = .ok s ∧
      (s.tracked undecodableRepository (Path.ofString "repo")).answer = .ok (some
        [Path.ofString "\uFFFD.py", Path.ofString "é.py", Path.ofString "\uFFFD.py"]) ∧
      ¬ (s.expectedPaths undecodableRepository).Nodup ∧
      (s.chunks undecodableRepository).map Chunk.filepath = ["\uFFFD.py", "\uFFFD.py"] := by
  obtain ⟨s, hs⟩ : ∃ s, ofOptions undecodableRepository { root := Path.ofString "repo" } = .ok s :=
    ⟨_, rfl⟩
  have hanswer : (s.tracked undecodableRepository (Path.ofString "repo")).answer = .ok (some
      [Path.ofString "\uFFFD.py", Path.ofString "é.py", Path.ofString "\uFFFD.py"]) := by
    rw [tracked_of_ofOptions hs, ← pathsOf_undecodableEntries]
    rfl
  have hpaths : s.expectedPaths undecodableRepository
      = [Path.ofString "repo/\uFFFD.py", Path.ofString "repo/é.py",
          Path.ofString "repo/\uFFFD.py"] := by
    rw [expectedPaths, (ofOptions_eq_ok hs).1, hanswer]
    show List.map (Path.ofString "repo").join _ = _
    decide
  -- what the two paths give
  have hreports : (ofOptions undecodableRepository { root := Path.ofString "repo" }).toOption.map
      (fun s => [Path.ofString "repo/\uFFFD.py", Path.ofString "repo/é.py"].map fun p =>
        (FileReport.ofPath undecodableRepository s.scope p).chunks.map Chunk.filepath)
      = some [["\uFFFD.py"], []] := by decide +kernel
  rw [hs] at hreports
  obtain ⟨htwice, hgone⟩ := List.cons.inj (Option.some.inj hreports)
  have hgone := List.map_eq_nil_iff.mp (List.cons.inj hgone).1
  refine ⟨s, hs, hanswer, ?_, ?_⟩
  · rw [hpaths]
    decide
  · rw [chunks, paths_candidates, hpaths]
    simp only [List.flatMap_cons, List.flatMap_nil, List.map_append, htwice, hgone,
      List.append_nil, List.nil_append, List.singleton_append]

end Scanner

end SourceChunks
