import SourceChunks.Proofs.Files.Resolving
import SourceChunks.Scan.Tracked

/-!
# The paths of an index

Repeats are dropped only next to each other, so that every path is listed once rests on the order of
the index: entries of one path stand together.  For clean paths, whose segments are all names, paths
that mean the same are spelled the same (`TrackedEntry.IsClean`), so the listed ones increase
strictly (`pairwise_fresh`) and are exactly those of the entries (`mem_map_join_pathsOf`).  Seen
from a root, a clean path is the path of its segments (`join_eq_descend`).
-/

namespace SourceChunks

/-! ### The order of an index -/

namespace TrackedEntry

theorem le_path {a b : TrackedEntry} (h : le a b = true) : Bytes.le a.path b.path = true := by
  unfold le at h
  split_ifs at h with hpath
  · rw [Bytes.le_iff]
    exact Or.inl hpath
  · exact h

theorem le_trans (a b c : TrackedEntry) (hab : le a b = true) (hbc : le b c = true) :
    le a c = true := by
  have hpaths := Bytes.le_trans _ _ _ (le_path hab) (le_path hbc)
  unfold le at hab hbc ⊢
  by_cases hac : a.path = c.path
  · -- the path between the two is the same one
    have hmiddle : a.path = b.path := by
      by_contra hne
      rw [if_neg hne] at hab
      rw [if_neg (fun heq => hne (by rw [heq, hac])), ← hac] at hbc
      have hba := (Bytes.le_iff.mp hbc).resolve_left (Ne.symm hne)
      have hab' := (Bytes.le_iff.mp hab).resolve_left hne
      exact Std.Asymm.asymm (r := Bytes.Before) _ _ hab' hba
    rw [if_pos hmiddle, decide_eq_true_eq] at hab
    rw [if_pos (hmiddle.symm.trans hac), decide_eq_true_eq] at hbc
    rw [if_pos hac, decide_eq_true_eq]
    omega
  · rw [if_neg hac]
    exact hpaths

theorem le_total (a b : TrackedEntry) : (le a b || le b a) = true := by
  unfold le
  by_cases hpath : a.path = b.path
  · rw [if_pos hpath, if_pos hpath.symm]
    simp only [Bool.or_eq_true, decide_eq_true_eq]
    omega
  · rw [if_neg hpath, if_neg (Ne.symm hpath)]
    exact Bytes.le_total a.path b.path

theorem le_antisymm {a b : TrackedEntry} (hab : le a b = true) (hba : le b a = true) : a = b := by
  have hpath : a.path = b.path := by
    by_contra hne
    have hab' := (Bytes.le_iff.mp (le_path hab)).resolve_left hne
    have hba' := (Bytes.le_iff.mp (le_path hba)).resolve_left (Ne.symm hne)
    exact Std.Asymm.asymm (r := Bytes.Before) _ _ hab' hba'
  unfold le at hab hba
  rw [if_pos hpath, decide_eq_true_eq] at hab
  rw [if_pos hpath.symm, decide_eq_true_eq] at hba
  cases a
  cases b
  rw [TrackedEntry.mk.injEq]
  exact ⟨hpath, Nat.le_antisymm hab hba⟩

/-- **In which order the entries of an index stand does not matter.** -/
theorem mergeSort_of_perm {entries sorted : List TrackedEntry} (hperm : entries.Perm sorted)
    (hsorted : sorted.Pairwise fun a b => le a b = true) : entries.mergeSort le = sorted :=
  ((List.mergeSort_perm entries le).trans hperm).eq_of_pairwise
    (fun _ _ _ _ => le_antisymm) (List.pairwise_mergeSort le_trans le_total entries) hsorted

/-- **A clean path**: text, with a name in every segment. -/
structure IsClean (e : TrackedEntry) : Prop where
  text : Bytes.encode (Bytes.decode e.path) = e.path
  names : ∀ s ∈ splitAt Path.slash e.path, Path.IsName s

instance (e : TrackedEntry) : Decidable e.IsClean :=
  decidable_of_iff (Bytes.encode (Bytes.decode e.path) = e.path ∧
    ∀ s ∈ splitAt Path.slash e.path, Path.IsName s)
    ⟨fun h => ⟨h.1, h.2⟩, fun h => ⟨h.1, h.2⟩⟩

/-- The path that is listed for an entry. -/
def listed (e : TrackedEntry) : Path := Path.ofString (Bytes.decode e.path)

theorem IsClean.listed_eq {e : TrackedEntry} (h : e.IsClean) : e.listed = ⟨e.path⟩ := by
  rw [listed, Path.ofString, h.text]

theorem IsClean.isAbsolute {e : TrackedEntry} (h : e.IsClean) :
    (⟨e.path⟩ : Path).isAbsolute = false := by
  by_contra habsolute
  rw [Bool.not_eq_false, Path.isAbsolute, beq_iff_eq, List.head?_eq_some_iff] at habsolute
  obtain ⟨rest, hrest⟩ := habsolute
  -- a leading slash would leave an empty segment in front
  have hempty : ([] : Bytes) ∈ splitAt Path.slash e.path := by
    change e.path = [] ++ Path.slash :: rest at hrest
    rw [hrest, splitAt_append_cons]
    exact List.mem_append_left _ (List.mem_singleton_self _)
  exact (h.names _ hempty).1 rfl

/-- A clean path means its segments. -/
theorem IsClean.components_eq {e : TrackedEntry} (h : e.IsClean) :
    (⟨e.path⟩ : Path).components = (splitAt Path.slash e.path).map .name := by
  obtain ⟨first, rest, hsplit⟩ := List.exists_cons_of_ne_nil (splitAt_ne_nil Path.slash e.path)
  have hnames := h.names
  rw [hsplit, List.forall_mem_cons] at hnames
  have hrest : rest.filterMap Path.component? = rest.map .name := by
    rw [← List.filterMap_eq_map]
    exact List.filterMap_congr fun s hs => Path.component?_of_isName (hnames.2 s hs)
  rw [Path.components_eq (p := ⟨e.path⟩) hsplit, hsplit, h.isAbsolute, Path.leading,
    if_neg Bool.false_ne_true, if_neg hnames.1.2.1, Path.component?_of_isName hnames.1, hrest]
  rfl

/-- **Clean paths that mean the same are spelled the same.** -/
theorem IsClean.path_eq {a b : TrackedEntry} (ha : a.IsClean) (hb : b.IsClean)
    (h : (⟨a.path⟩ : Path).components = (⟨b.path⟩ : Path).components) : a.path = b.path := by
  rw [ha.components_eq, hb.components_eq] at h
  exact splitAt_injective Path.slash
    (List.map_injective_iff.mpr (fun _ _ => Path.Component.name.inj) h)

/-- **Seen from a root, a clean path is the path of its segments.** -/
theorem IsClean.join_eq_descend {e : TrackedEntry} (h : e.IsClean) {root : Path}
    (hroot : root.bytes ≠ []) :
    root.join ⟨e.path⟩ = root.descend (splitAt Path.slash e.path) := by
  have hne := splitAt_ne_nil Path.slash e.path
  have hbytes : (root.join ⟨e.path⟩).bytes = (root.descend (splitAt Path.slash e.path)).bytes := by
    rw [Path.bytes_join hroot h.isAbsolute, Path.bytes_descend hroot hne h.names, flatMap_splitAt]
  exact congrArg Path.mk hbytes

end TrackedEntry

/-! ### Dropping repeats -/

namespace Tracked

variable {last : TrackedEntry} {entries : List TrackedEntry}

/-- Entries after one, without those that name the same path as the one before. -/
def freshAfter (last : TrackedEntry) : List TrackedEntry → List TrackedEntry
  | [] => []
  | e :: rest => if e.path = last.path then freshAfter last rest else e :: freshAfter e rest

/-- Repeats of clean paths are repeats of their bytes. -/
theorem dropRepeatsAfter_listed (hlast : last.IsClean) (h : ∀ e ∈ entries, e.IsClean) :
    dropRepeatsAfter last.listed (entries.map TrackedEntry.listed)
      = (freshAfter last entries).map TrackedEntry.listed := by
  induction entries generalizing last with
  | nil => rfl
  | cons e rest ih =>
    rw [List.forall_mem_cons] at h
    rw [List.map_cons, dropRepeatsAfter, freshAfter, hlast.listed_eq, h.1.listed_eq]
    by_cases hpath : e.path = last.path
    · rw [if_pos (by rw [hpath]), if_pos hpath, ← ih hlast h.2, hlast.listed_eq]
    · rw [if_neg (fun heq => hpath (h.1.path_eq hlast heq)), if_neg hpath, List.map_cons,
        ← ih h.1 h.2, h.1.listed_eq]

/-- Entries without those that name the same path as the one before. -/
def fresh : List TrackedEntry → List TrackedEntry
  | [] => []
  | e :: rest => e :: freshAfter e rest

theorem pathsOf_eq (h : ∀ e ∈ entries, e.IsClean) :
    pathsOf entries = (fresh (entries.mergeSort TrackedEntry.le)).map TrackedEntry.listed := by
  have hsorted : ∀ e ∈ entries.mergeSort TrackedEntry.le, e.IsClean := fun e he =>
    h e (List.mem_mergeSort.mp he)
  show dropRepeats ((entries.mergeSort TrackedEntry.le).map TrackedEntry.listed) = _
  cases hes : entries.mergeSort TrackedEntry.le with
  | nil => rfl
  | cons e rest =>
    rw [hes, List.forall_mem_cons] at hsorted
    rw [List.map_cons, dropRepeats, dropRepeatsAfter_listed hsorted.1 hsorted.2, fresh,
      List.map_cons]

theorem sublist_freshAfter (last : TrackedEntry) (entries : List TrackedEntry) :
    (freshAfter last entries).Sublist entries := by
  induction entries generalizing last with
  | nil => exact List.Sublist.slnil
  | cons e rest ih =>
    rw [freshAfter]
    split_ifs
    · exact (ih last).cons e
    · exact (ih e).cons_cons e

/-- No path is lost. -/
theorem exists_mem_freshAfter (last : TrackedEntry) {e : TrackedEntry} (he : e ∈ entries) :
    ∃ e' ∈ last :: freshAfter last entries, e'.path = e.path := by
  induction entries generalizing last with
  | nil => cases he
  | cons e₀ rest ih =>
    rw [freshAfter]
    split_ifs with hpath
    · rcases List.mem_cons.mp he with rfl | he
      · exact ⟨last, List.mem_cons_self, hpath.symm⟩
      · exact ih last he
    · rcases List.mem_cons.mp he with rfl | he
      · exact ⟨e, List.mem_cons_of_mem _ List.mem_cons_self, rfl⟩
      · obtain ⟨e', he', heq⟩ := ih e₀ he
        exact ⟨e', List.mem_cons_of_mem _ he', heq⟩

/-- **In an ordered index, no path is left twice.**  By induction on the entries; what is kept after
an entry with another path comes after that path. -/
theorem pairwise_freshAfter
    (h : (last :: entries).Pairwise fun a b => Bytes.le a.path b.path = true) :
    (last :: freshAfter last entries).Pairwise fun a b => Bytes.Before a.path b.path := by
  induction entries generalizing last with
  | nil => exact List.pairwise_singleton _ _
  | cons e rest ih =>
    obtain ⟨hlast, hrest⟩ := List.pairwise_cons.mp h
    obtain ⟨he, hrest'⟩ := List.pairwise_cons.mp hrest
    rw [freshAfter]
    by_cases hpath : e.path = last.path
    · rw [if_pos hpath]
      refine ih (List.pairwise_cons.mpr ⟨?_, hrest'⟩)
      exact fun a ha => hlast a (List.mem_cons_of_mem _ ha)
    · rw [if_neg hpath]
      refine List.pairwise_cons.mpr ⟨?_, ih hrest⟩
      intro a ha
      have hbefore : Bytes.Before last.path e.path :=
        (Bytes.le_iff.mp (hlast e List.mem_cons_self)).resolve_left (Ne.symm hpath)
      rcases List.mem_cons.mp ha with rfl | ha
      · exact hbefore
      · have hmem := (sublist_freshAfter e rest).subset ha
        have hle := Bytes.le_iff.mp (hlast a (List.mem_cons_of_mem _ hmem))
        refine hle.resolve_left fun heq => ?_
        -- the entry between them would have to come after itself
        have hle' := Bytes.le_iff.mp (he a hmem)
        rw [← heq] at hle'
        rcases hle' with heq' | hafter
        · exact hpath heq'
        · exact Std.Asymm.asymm (r := Bytes.Before) _ _ hbefore hafter

theorem pairwise_fresh (h : entries.Pairwise fun a b => Bytes.le a.path b.path = true) :
    (fresh entries).Pairwise fun a b => Bytes.Before a.path b.path := by
  cases entries with
  | nil => exact List.Pairwise.nil
  | cons e rest => exact pairwise_freshAfter h

theorem mem_of_mem_fresh {e : TrackedEntry} (he : e ∈ fresh entries) : e ∈ entries := by
  cases entries with
  | nil => cases he
  | cons e₀ rest => exact ((sublist_freshAfter e₀ rest).cons_cons e₀).subset he

theorem exists_mem_fresh {e : TrackedEntry} (he : e ∈ entries) :
    ∃ e' ∈ fresh entries, e'.path = e.path := by
  cases entries with
  | nil => cases he
  | cons e₀ rest =>
    rcases List.mem_cons.mp he with rfl | he
    · exact ⟨e, List.mem_cons_self, rfl⟩
    · exact exists_mem_freshAfter e₀ he

/-! ### Tracked candidates -/

/-- The entries that are listed, in order. -/
def listedEntries (entries : List TrackedEntry) : List TrackedEntry :=
  fresh (entries.mergeSort TrackedEntry.le)

theorem mem_of_mem_listedEntries {e : TrackedEntry} (he : e ∈ listedEntries entries) :
    e ∈ entries :=
  List.mem_mergeSort.mp (mem_of_mem_fresh he)

theorem pairwise_listedEntries (entries : List TrackedEntry) :
    (listedEntries entries).Pairwise fun a b => Bytes.Before a.path b.path := by
  apply pairwise_fresh
  exact (List.pairwise_mergeSort TrackedEntry.le_trans TrackedEntry.le_total entries).imp
    TrackedEntry.le_path

section Candidates

variable {root p : Path} (hroot : root.bytes ≠ []) (h : ∀ e ∈ entries, e.IsClean)
include hroot h

/-- The tracked candidates are the paths of the segments that the listed entries have. -/
theorem map_join_pathsOf : (pathsOf entries).map root.join
    = (listedEntries entries).map fun e => root.descend (splitAt Path.slash e.path) := by
  rw [pathsOf_eq h, List.map_map]
  refine List.map_congr_left fun e he => ?_
  have hclean := h e (mem_of_mem_listedEntries he)
  rw [Function.comp_apply, hclean.listed_eq, hclean.join_eq_descend hroot]

/-- **The tracked candidates are those of the entries.** -/
theorem mem_map_join_pathsOf : p ∈ (pathsOf entries).map root.join ↔
    ∃ e ∈ entries, p = root.descend (splitAt Path.slash e.path) := by
  rw [map_join_pathsOf hroot h, List.mem_map]
  constructor
  · rintro ⟨e, he, rfl⟩
    exact ⟨e, mem_of_mem_listedEntries he, rfl⟩
  · rintro ⟨e, he, rfl⟩
    obtain ⟨e', he', hpath⟩ := exists_mem_fresh (List.mem_mergeSort.mpr he)
    exact ⟨e', he', by rw [hpath]⟩

/-- **Each tracked candidate is listed once.** -/
theorem nodup_map_join_pathsOf : ((pathsOf entries).map root.join).Nodup := by
  rw [map_join_pathsOf hroot h, List.Nodup, List.pairwise_map]
  refine (pairwise_listedEntries entries).imp_of_mem ?_
  intro a b ha hb hbefore heq
  have hnames := congrArg (fun p => Path.names (Path.below root p)) heq
  rw [Path.names_below_descend root (h a (mem_of_mem_listedEntries ha)).names,
    Path.names_below_descend root (h b (mem_of_mem_listedEntries hb)).names] at hnames
  rw [splitAt_injective Path.slash hnames] at hbefore
  exact Std.Asymm.asymm (r := Bytes.Before) _ _ hbefore hbefore

end Candidates

end Tracked

end SourceChunks
