import SourceChunks.Files.Walk
import SourceChunks.PathFilter
import SourceChunks.Proofs.Files.WellFormed
import Mathlib.Data.List.Lex
import Mathlib.Data.List.Sort

/-!
# What a walk lists

`Entry.mem_filesAt` says which paths a walk lists, for any rule that skips entries: those of
regular files that lie behind real directories, none of which is skipped on the way.
`Entry.pairwise_filesAt` says in which order: name by name, and each name byte by byte.  Both go
through the tree by `Entry.inductionOn`, which hands out the entries that a directory finds.

For the rule of a filter, a path is skipped as soon as one of its names is ignored, so cutting off
a directory loses nothing that the filter would let through (`FileSystem.walk_isIgnored`).
-/

namespace SourceChunks

/-! ### Trees -/

/-- Is an entry a regular file?  Links are not, whatever they lead to. -/
def Entry.isRegularFile : Entry → Bool
  | .file _ | .sealed .. | .index _ => true
  | .directory _ | .link _ | .outside _ => false

/-- An entry is smaller than the directory that finds it. -/
theorem Directory.sizeOf_lt_of_find? {name : Bytes} {e : Entry} :
    ∀ {d : Directory}, d.find? name = some e → sizeOf e < sizeOf d
  | .nil, h => by cases h
  | .cons n e' rest, h => by
    rw [Directory.find?] at h
    split_ifs at h
    · obtain rfl := Option.some.inj h
      simp only [Directory.cons.sizeOf_spec]
      omega
    · have := Directory.sizeOf_lt_of_find? h
      simp only [Directory.cons.sizeOf_spec]
      omega

/-- **Induction over a tree**: what holds of all entries that a directory finds holds of the
directory, and it holds of everything else. -/
theorem Entry.inductionOn {motive : Entry → Prop} (e : Entry)
    (leaf : ∀ e : Entry, e.entries? = none → motive e)
    (directory : ∀ d : Directory, (∀ n e, d.find? n = some e → motive e) → motive (.directory d)) :
    motive e := by
  match e with
  | .directory d =>
    apply directory
    intro n e h
    have := Directory.sizeOf_lt_of_find? h
    exact Entry.inductionOn e leaf directory
  | .file _ | .sealed .. | .index _ | .link _ | .outside _ => exact leaf _ rfl
termination_by sizeOf e
decreasing_by
  simp only [Entry.directory.sizeOf_spec]
  omega

/-! ### Which paths are listed -/

variable {skip : Path → Bool}

/-- **The branches of a directory**: one for each name that is found and not skipped. -/
theorem Directory.mem_branches {p : Path} {n : Bytes} {files : List Path} :
    ∀ {d : Directory}, d.WellFormed → ((n, files) ∈ d.branches skip p ↔
      ∃ e, d.find? n = some e ∧ skip (p.join ⟨n⟩) = false ∧ files = e.filesAt skip (p.join ⟨n⟩))
  | .nil, _ => by simp [Directory.branches, Directory.find?]
  | .cons name e' rest, hd => by
    rw [Directory.WellFormed] at hd
    obtain ⟨-, hnew, -, hrest⟩ := hd
    have ih : (n, files) ∈ rest.branches skip p ↔ _ := Directory.mem_branches hrest
    rw [Directory.branches, Directory.find?]
    by_cases hn : name = n
    · -- no later entry has the name
      subst hn
      have hlater : (name, files) ∉ rest.branches skip p := by
        rw [ih, hnew]
        rintro ⟨e, he, -⟩
        cases he
      rw [if_pos rfl]
      split_ifs with hskip
      · constructor
        · intro h
          exact absurd h hlater
        · rintro ⟨e, -, hkept, -⟩
          rw [hskip] at hkept
          cases hkept
      · rw [List.mem_cons, or_iff_left hlater, Prod.mk.injEq]
        constructor
        · rintro ⟨-, rfl⟩
          exact ⟨e', rfl, by simpa using hskip, rfl⟩
        · rintro ⟨e, he, -, hfiles⟩
          obtain rfl := Option.some.inj he
          exact ⟨rfl, hfiles⟩
    · rw [if_neg hn]
      split_ifs with hskip
      · exact ih
      · rw [List.mem_cons, Prod.mk.injEq, ih]
        constructor
        · rintro (⟨heq, -⟩ | h)
          · exact absurd heq.symm hn
          · exact h
        · exact Or.inr

/-- The files below a directory are those at the entries that it finds and that are not skipped. -/
theorem Entry.mem_filesAt_directory {d : Directory} (hd : d.WellFormed) {p q : Path} :
    q ∈ (Entry.directory d).filesAt skip p ↔
      ∃ n e, d.find? n = some e ∧ skip (p.join ⟨n⟩) = false ∧ q ∈ e.filesAt skip (p.join ⟨n⟩) := by
  rw [Entry.filesAt, List.mem_flatMap]
  constructor
  · rintro ⟨⟨n, files⟩, hmem, hq⟩
    rw [List.mem_mergeSort, Directory.mem_branches hd] at hmem
    obtain ⟨e, hfind, hkept, rfl⟩ := hmem
    exact ⟨n, e, hfind, hkept, hq⟩
  · rintro ⟨n, e, hfind, hkept, hq⟩
    refine ⟨(n, e.filesAt skip (p.join ⟨n⟩)), ?_, hq⟩
    rw [List.mem_mergeSort, Directory.mem_branches hd]
    exact ⟨e, hfind, hkept, rfl⟩

/-- Is nothing skipped on the way from a path down a location? -/
def ReachedBelow (skip : Path → Bool) (p : Path) (l : Location) : Prop :=
  ∀ l', l' <+: l → l' ≠ [] → skip (p.descend l') = false

theorem reachedBelow_cons {p : Path} {n : Bytes} {l : Location} :
    ReachedBelow skip p (n :: l) ↔
      skip (p.join ⟨n⟩) = false ∧ ReachedBelow skip (p.join ⟨n⟩) l := by
  constructor
  · intro h
    refine ⟨h [n] ⟨l, rfl⟩ (List.cons_ne_nil _ _), ?_⟩
    rintro l' ⟨more, rfl⟩ -
    exact h (n :: l') ⟨more, rfl⟩ (List.cons_ne_nil _ _)
  · rintro ⟨hfirst, hrest⟩ l' hl' hne
    obtain ⟨m, l'', rfl⟩ := List.exists_cons_of_ne_nil hne
    obtain ⟨rfl, hl''⟩ := List.cons_prefix_cons.mp hl'
    by_cases hnil : l'' = []
    · rw [hnil]
      exact hfirst
    · exact hrest l'' hl'' hnil

/-- What is no directory is listed if it is a regular file. -/
theorem Entry.filesAt_of_leaf {e : Entry} (h : e.entries? = none) {p : Path} :
    e.filesAt skip p = if e.isRegularFile then [p] else [] := by
  cases e with
  | directory d => cases h
  | _ =>
    rw [Entry.filesAt]
    rfl

/-- **A walk lists exactly the regular files** that are reached without a skip. -/
theorem Entry.mem_filesAt (e : Entry) (he : e.WellFormed) (p q : Path) :
    q ∈ e.filesAt skip p ↔
      ∃ l, q = p.descend l ∧ (∃ e', e.get? l = some e' ∧ e'.isRegularFile) ∧
        ReachedBelow skip p l := by
  induction e using Entry.inductionOn generalizing p with
  | leaf e hleaf =>
    -- nothing lies below, so the only location is the empty one
    rw [Entry.filesAt_of_leaf hleaf]
    constructor
    · intro hq
      split_ifs at hq with hfile
      · obtain rfl := List.mem_singleton.mp hq
        refine ⟨[], rfl, ⟨e, rfl, hfile⟩, ?_⟩
        intro l' hl' hne
        exact absurd (List.prefix_nil.mp hl') hne
      · cases hq
    · rintro ⟨l, rfl, ⟨e', hget, hfile⟩, -⟩
      cases l with
      | nil =>
        obtain rfl := Option.some.inj hget
        rw [if_pos hfile]
        exact List.mem_singleton_self _
      | cons n l =>
        rw [Entry.get?_cons_of_leaf hleaf] at hget
        cases hget
  | directory d ih =>
    rw [Entry.WellFormed] at he
    rw [Entry.mem_filesAt_directory he]
    constructor
    · rintro ⟨n, e, hfind, hkept, hq⟩
      obtain ⟨l, rfl, ⟨e', hget, hfile⟩, hreached⟩ := (ih n e hfind (he.of_find? hfind).2 _).mp hq
      refine ⟨n :: l, rfl, ⟨e', ?_, hfile⟩, reachedBelow_cons.mpr ⟨hkept, hreached⟩⟩
      rw [Entry.get?, hfind]
      exact hget
    · rintro ⟨l, rfl, ⟨e', hget, hfile⟩, hreached⟩
      cases l with
      | nil =>
        obtain rfl := Option.some.inj hget
        cases hfile
      | cons n l =>
        rw [Entry.get?, Option.bind_eq_some_iff] at hget
        obtain ⟨e, hfind, hget⟩ := hget
        obtain ⟨hkept, hreached⟩ := reachedBelow_cons.mp hreached
        refine ⟨n, e, hfind, hkept, (ih n e hfind (he.of_find? hfind).2 _).mpr ?_⟩
        exact ⟨l, rfl, ⟨e', hget, hfile⟩, hreached⟩

/-! ### In which order -/

/-- Byte-by-byte order, as a strict relation. -/
def Bytes.Before : Bytes → Bytes → Prop := List.Lex fun a b => a.toNat < b.toNat

/-- Name-by-name order of locations, each name byte by byte. -/
def Location.Before : Location → Location → Prop := List.Lex Bytes.Before

/-- **The order of a walk below a path**: that of the names below it.  It is not the order of the
bytes of the whole paths, in which a slash would be compared with what follows a name. -/
def Path.BeforeBelow (root p q : Path) : Prop :=
  Location.Before (Path.names (Path.below root p)) (Path.names (Path.below root q))

instance : Std.Asymm Bytes.Before :=
  haveI : Std.Asymm fun a b : UInt8 => a.toNat < b.toNat := ⟨fun _ _ => Nat.lt_asymm⟩
  List.Lex.asymm _

instance : Std.Asymm Location.Before := List.Lex.asymm _

instance (root : Path) : Std.Asymm (Path.BeforeBelow root) where
  asymm _ _ := Std.Asymm.asymm (r := Location.Before) _ _

theorem Bytes.le_iff {a b : Bytes} : Bytes.le a b = true ↔ a = b ∨ Bytes.Before a b := by
  induction a generalizing b with
  | nil =>
    cases b with
    | nil => simp [Bytes.le]
    | cons y ys =>
      simp only [Bytes.le, true_iff]
      exact Or.inr List.Lex.nil
  | cons x xs ih =>
    cases b with
    | nil =>
      simp only [Bytes.le, Bool.false_eq_true, reduceCtorEq, false_or, false_iff]
      exact List.not_lex_nil
    | cons y ys =>
      rw [Bytes.le, Bytes.Before, List.cons_lex_cons_iff, ← Bytes.Before, Bool.or_eq_true,
        Bool.and_eq_true, ih, decide_eq_true_eq, beq_iff_eq, UInt8.lt_iff_toNat_lt, List.cons.injEq]
      tauto

theorem Bytes.le_trans (a b c : Bytes) (hab : Bytes.le a b) (hbc : Bytes.le b c) :
    Bytes.le a c := by
  induction a generalizing b c with
  | nil => rfl
  | cons x xs ih =>
    cases b with
    | nil => cases hab
    | cons y ys =>
      cases c with
      | nil => cases hbc
      | cons z zs =>
        simp only [Bytes.le, Bool.or_eq_true, Bool.and_eq_true, decide_eq_true_eq, beq_iff_eq,
          UInt8.lt_iff_toNat_lt] at hab hbc ⊢
        rcases hab with hxy | ⟨rfl, hab⟩
        · rcases hbc with hyz | ⟨rfl, -⟩
          · exact Or.inl (Nat.lt_trans hxy hyz)
          · exact Or.inl hxy
        · rcases hbc with hyz | ⟨rfl, hbc⟩
          · exact Or.inl hyz
          · exact Or.inr ⟨rfl, ih ys zs hab hbc⟩

theorem Bytes.le_total (a b : Bytes) : (Bytes.le a b || Bytes.le b a) = true := by
  induction a generalizing b with
  | nil => rfl
  | cons x xs ih =>
    cases b with
    | nil => rfl
    | cons y ys =>
      have := ih ys
      simp only [Bytes.le, Bool.or_eq_true, Bool.and_eq_true, decide_eq_true_eq, beq_iff_eq,
        UInt8.lt_iff_toNat_lt] at this ⊢
      rcases Nat.lt_trichotomy x.toNat y.toNat with hlt | heq | hgt
      · exact Or.inl (Or.inl hlt)
      · have hxy := UInt8.toNat_inj.mp heq
        rcases this with h | h
        · exact Or.inl (Or.inr ⟨hxy, h⟩)
        · exact Or.inr (Or.inr ⟨hxy.symm, h⟩)
      · exact Or.inr (Or.inl hgt)

/-- No two branches of a directory have the same name. -/
theorem Directory.nodup_branches {p : Path} :
    ∀ {d : Directory}, d.WellFormed → ((d.branches skip p).map Prod.fst).Nodup
  | .nil, _ => by simp [Directory.branches]
  | .cons name e rest, hd => by
    rw [Directory.WellFormed] at hd
    obtain ⟨-, hnew, -, hrest⟩ := hd
    have ih : ((rest.branches skip p).map Prod.fst).Nodup := Directory.nodup_branches hrest
    rw [Directory.branches]
    split_ifs
    · exact ih
    · rw [List.map_cons, List.nodup_cons]
      refine ⟨?_, ih⟩
      rw [List.mem_map]
      rintro ⟨⟨n, files⟩, hmem, rfl⟩
      obtain ⟨e', hfind, -⟩ := (Directory.mem_branches hrest).mp hmem
      rw [hnew] at hfind
      cases hfind

/-- The sorted branches of a directory have strictly increasing names. -/
theorem Directory.pairwise_sorted_branches {d : Directory} (hd : d.WellFormed) (p : Path) :
    ((d.branches skip p).mergeSort fun a b => Bytes.le a.1 b.1).Pairwise
      fun a b => Bytes.Before a.1 b.1 := by
  have hsorted : ((d.branches skip p).mergeSort fun a b => Bytes.le a.1 b.1).Pairwise
      fun a b => Bytes.le a.1 b.1 :=
    List.pairwise_mergeSort (fun a b c => Bytes.le_trans a.1 b.1 c.1)
      (fun a b => Bytes.le_total a.1 b.1) (d.branches skip p)
  have hperm := List.mergeSort_perm (d.branches skip p) fun a b => Bytes.le a.1 b.1
  have hnodup := ((hperm.map Prod.fst).nodup_iff).mpr (Directory.nodup_branches hd)
  rw [List.Nodup, List.pairwise_map] at hnodup
  refine (hsorted.and hnodup).imp ?_
  rintro a b ⟨hle, hne⟩
  exact (Bytes.le_iff.mp hle).resolve_left hne

/-- **A walk goes through the names in order.** -/
theorem Entry.pairwise_filesAt (e : Entry) (he : e.WellFormed) (p : Path) :
    (e.filesAt skip p).Pairwise (Path.BeforeBelow p) := by
  induction e using Entry.inductionOn generalizing p with
  | leaf e hleaf =>
    rw [Entry.filesAt_of_leaf hleaf]
    split_ifs
    · exact List.pairwise_singleton _ _
    · exact List.Pairwise.nil
  | directory d ih =>
    rw [Entry.WellFormed] at he
    -- a listed path has the name of its branch, and then those below the branch
    have hnames : ∀ {n files q}, (n, files) ∈ d.branches skip p → q ∈ files →
        Path.names (Path.below p q) = n :: Path.names (Path.below (p.join ⟨n⟩) q) := by
      intro n files q hbranch hq
      obtain ⟨e, hfind, -, rfl⟩ := (Directory.mem_branches he).mp hbranch
      obtain ⟨hname, hwf⟩ := he.of_find? hfind
      obtain ⟨l, rfl, ⟨e', hget, -⟩, -⟩ := (Entry.mem_filesAt e hwf _ q).mp hq
      have hl := (hwf.isName_of_get? hget).2
      rw [Path.names_below_descend _ hl, ← Path.descend_cons]
      apply Path.names_below_descend
      intro m hm
      rcases List.mem_cons.mp hm with rfl | hm
      · exact hname
      · exact hl m hm
    rw [Entry.filesAt, List.pairwise_flatMap]
    refine ⟨?_, ?_⟩
    · rintro ⟨n, files⟩ hmem
      have hbranch := List.mem_mergeSort.mp hmem
      obtain ⟨e, hfind, -, hfiles⟩ := (Directory.mem_branches he).mp hbranch
      have hbelow := ih n e hfind (he.of_find? hfind).2 (p.join ⟨n⟩)
      rw [← hfiles] at hbelow
      refine hbelow.imp_of_mem fun {q q'} hq hq' hlt => ?_
      rw [Path.BeforeBelow, hnames hbranch hq, hnames hbranch hq']
      exact List.Lex.cons hlt
    · refine (Directory.pairwise_sorted_branches he p).imp_of_mem ?_
      rintro ⟨n, files⟩ ⟨n', files'⟩ hmem hmem' hlt q hq q' hq'
      rw [Path.BeforeBelow, hnames (List.mem_mergeSort.mp hmem) hq,
        hnames (List.mem_mergeSort.mp hmem') hq']
      exact List.Lex.rel hlt

/-! ### Walks from a root -/

namespace FileSystem

/-- **A regular file lies at `l` below a root**, all directories between them being real ones.  The
root itself may be a link. -/
def HasFileBelow (fs : FileSystem) (root : Path) (l : Location) : Prop :=
  ∃ d e, fs.lookup root = .ok (.directory d) ∧ (Entry.directory d).get? l = some e ∧
    e.isRegularFile

/-- The names on the way to a file of a well-formed tree are names. -/
theorem HasFileBelow.isName {fs : FileSystem} (hfs : fs.WellFormed) {root : Path} {l : Location}
    (h : fs.HasFileBelow root l) : ∀ n ∈ l, Path.IsName n := by
  obtain ⟨d, e, hroot, hget, -⟩ := h
  exact ((hfs.of_lookup hroot).isName_of_get? hget).2

/-- **What a walk lists**, for any rule that skips entries. -/
theorem mem_walk {fs : FileSystem} (hfs : fs.WellFormed) {root : Path}
    (hroot : isStandardInput root = false) (p : Path) :
    p ∈ fs.walk skip root ↔
      ∃ l, p = root.descend l ∧ fs.HasFileBelow root l ∧ ReachedBelow skip root l := by
  unfold walk
  rw [hroot, if_neg Bool.false_ne_true]
  split
  · rename_i d hd
    rw [Directory.filesBelow, Entry.mem_filesAt _ (hfs.of_lookup hd)]
    constructor
    · rintro ⟨l, hp, ⟨e, hget, hfile⟩, hreached⟩
      exact ⟨l, hp, ⟨d, e, hd, hget, hfile⟩, hreached⟩
    · rintro ⟨l, hp, ⟨d', e, hd', hget, hfile⟩, hreached⟩
      rw [hd] at hd'
      cases hd'
      exact ⟨l, hp, ⟨e, hget, hfile⟩, hreached⟩
  · rename_i hnone
    constructor
    · intro h
      cases h
    · rintro ⟨l, -, ⟨d, e, hd, -⟩, -⟩
      exact absurd hd (hnone d)

variable (skip) in
/-- A walk is strictly increasing, for any rule that skips entries. -/
theorem pairwise_walk {fs : FileSystem} (hfs : fs.WellFormed) (root : Path) :
    (fs.walk skip root).Pairwise (Path.BeforeBelow root) := by
  unfold walk
  split_ifs
  · exact List.Pairwise.nil
  · split
    · rename_i d hd
      exact Entry.pairwise_filesAt _ (hfs.of_lookup hd) root
    · exact List.Pairwise.nil

/-- A walk through a directory whose entries are in order already. -/
theorem walk_of_sorted {fs : FileSystem} {root : Path} (hinput : isStandardInput root = false)
    {d : Directory} (hroot : fs.lookup root = .ok (.directory d))
    (hsorted : (d.branches skip root).Pairwise fun a b => Bytes.le a.1 b.1) :
    fs.walk skip root = (d.branches skip root).flatMap (·.2) := by
  rw [walk, hinput, if_neg Bool.false_ne_true, hroot]
  show (Entry.directory d).filesAt skip root = _
  rw [Entry.filesAt, List.mergeSort_of_pairwise hsorted]

end FileSystem

namespace PathFilter

variable {f : PathFilter}

/-- Below the root of a filter, a path is ignored if one of the names on the way is. -/
theorem isIgnored_descend {l : Location} (h : ∀ n ∈ l, Path.IsName n) :
    f.isIgnored (f.root.descend l) = l.any f.ignoresName := by
  rw [isIgnored, Path.names_below_descend _ h]

/-- **Skipping what a filter ignores cuts off exactly the locations with an ignored name.** -/
theorem reachedBelow_isIgnored {l : Location} (h : ∀ n ∈ l, Path.IsName n) :
    ReachedBelow f.isIgnored f.root l ↔ ∀ n ∈ l, f.ignoresName n = false := by
  constructor
  · intro hreached n hn
    have hall := hreached l (List.prefix_refl l) (List.ne_nil_of_mem hn)
    rw [isIgnored_descend h, List.any_eq_false] at hall
    simpa using hall n hn
  · rintro hnames l' hl' -
    have hmem : ∀ n ∈ l', n ∈ l := fun n hn => hl'.subset hn
    rw [isIgnored_descend fun n hn => h n (hmem n hn), List.any_eq_false]
    intro n hn
    rw [hnames n (hmem n hn)]
    exact Bool.false_ne_true

/-- An eligible path is not ignored. -/
theorem isIgnored_of_isEligible {fs : FileSystem} {p : Path} (h : f.isEligible fs p = true) :
    f.isIgnored p = false := by
  by_contra hne
  rw [isEligible, judge, if_pos (by simpa using hne)] at h
  cases h

end PathFilter

namespace FileSystem

/-- **A walk is exact, and pruning loses nothing.**  Below the root of a filter a walk lists the
regular files that are reached through real directories and have no ignored name, each of them
once, in the order of their names; and of these the filter lets through what it would let through
of all files below the root. -/
theorem walk_isIgnored {fs : FileSystem} (hfs : fs.WellFormed) (f : PathFilter)
    (hroot : isStandardInput f.root = false) :
    (∀ p, p ∈ fs.walk f.isIgnored f.root ↔
      ∃ l, p = f.root.descend l ∧ fs.HasFileBelow f.root l ∧ ∀ n ∈ l, f.ignoresName n = false) ∧
    (fs.walk f.isIgnored f.root).Nodup ∧
    (fs.walk f.isIgnored f.root).Pairwise (Path.BeforeBelow f.root) ∧
    (fs.walk f.isIgnored f.root).filter (f.isEligible fs)
      = (fs.walk (fun _ => false) f.root).filter (f.isEligible fs) := by
  have hmem : ∀ p, p ∈ fs.walk f.isIgnored f.root ↔
      ∃ l, p = f.root.descend l ∧ fs.HasFileBelow f.root l ∧ ∀ n ∈ l, f.ignoresName n = false := by
    intro p
    rw [mem_walk hfs hroot]
    constructor
    · rintro ⟨l, hp, hfile, hreached⟩
      exact ⟨l, hp, hfile, (PathFilter.reachedBelow_isIgnored (hfile.isName hfs)).mp hreached⟩
    · rintro ⟨l, hp, hfile, hnames⟩
      exact ⟨l, hp, hfile, (PathFilter.reachedBelow_isIgnored (hfile.isName hfs)).mpr hnames⟩
  have hsorted := pairwise_walk f.isIgnored hfs f.root
  have hunpruned := pairwise_walk (fun _ => false) hfs f.root
  refine ⟨hmem, hsorted.nodup, hsorted, ?_⟩
  -- both lists are sorted, so it is enough that they have the same members
  refine (hsorted.filter _).eq_of_mem_iff (hunpruned.filter _) fun p => ?_
  rw [List.mem_filter, List.mem_filter, hmem, mem_walk hfs hroot]
  constructor
  · rintro ⟨⟨l, hp, hfile, -⟩, heligible⟩
    exact ⟨⟨l, hp, hfile, fun _ _ _ => rfl⟩, heligible⟩
  · rintro ⟨⟨l, rfl, hfile, -⟩, heligible⟩
    refine ⟨⟨l, rfl, hfile, fun n hn => ?_⟩, heligible⟩
    have hkept := PathFilter.isIgnored_of_isEligible heligible
    rw [PathFilter.isIgnored_descend (hfile.isName hfs), List.any_eq_false] at hkept
    simpa using hkept n hn

/-- A tree in which `r` has a directory `a` with a file `x` and a link back to `r`, a file `a.py`
that comes after the directory but before `a/x` as text, and an ignored directory `b`. -/
def loopedTree : FileSystem where
  top := .cons [0x72] (.directory
    (.cons [0x62] (.directory (.cons [0x78] (.file []) .nil))
    (.cons [0x61, 0x2E, 0x70, 0x79] (.file [])
    (.cons [0x61] (.directory
      (.cons [0x79] (.link ⟨[0x2E, 0x2E]⟩) (.cons [0x78] (.file []) .nil)))
    .nil)))) .nil

/-- A filter over `r` that ignores `b`. -/
def withoutB : PathFilter := ⟨⟨[0x72]⟩, [.exact "b"], 100⟩

theorem walk_isIgnored_loopedTree :
    loopedTree.WellFormed ∧ isStandardInput withoutB.root = false ∧
    (∀ p, p ∈ loopedTree.walk withoutB.isIgnored withoutB.root ↔
      ∃ l, p = withoutB.root.descend l ∧ loopedTree.HasFileBelow withoutB.root l ∧
        ∀ n ∈ l, withoutB.ignoresName n = false) ∧
    (loopedTree.walk withoutB.isIgnored withoutB.root).Nodup ∧
    (loopedTree.walk withoutB.isIgnored withoutB.root).Pairwise
      (Path.BeforeBelow withoutB.root) ∧
    (loopedTree.walk withoutB.isIgnored withoutB.root).filter (withoutB.isEligible loopedTree)
      = (loopedTree.walk (fun _ => false) withoutB.root).filter
          (withoutB.isEligible loopedTree) :=
  ⟨by decide, by decide, walk_isIgnored (by decide) withoutB (by decide)⟩

end FileSystem

end SourceChunks
