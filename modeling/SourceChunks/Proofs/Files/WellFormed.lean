import SourceChunks.Files.FileSystem
import SourceChunks.Proofs.Path

/-!
# Well-formed file systems

In a well-formed directory every entry has a name of its own that a path can spell.  The tree type
itself does not ask for this, but nothing that is done to a file system can break it: segments of
paths have no slash in them, `.` and `..` are never looked up, and a name that is taken is replaced.
So whatever is built from an empty tree by adding entries is well-formed (`WellFormed.add`), and it
stays so when files are opened and written (`WellFormed.create`, `WellFormed.append`).
-/

namespace SourceChunks

/-! ### Trees -/

mutual

/-- **A well-formed entry**: so is every directory at or below it. -/
def Entry.WellFormed : Entry → Prop
  | .directory d => d.WellFormed
  | .file _ | .sealed .. | .index _ | .link _ | .outside _ => True

/-- **A well-formed directory**: its entries have names, no two of them the same one. -/
def Directory.WellFormed : Directory → Prop
  | .nil => True
  | .cons name e rest =>
    Path.IsName name ∧ rest.find? name = none ∧ e.WellFormed ∧ rest.WellFormed

end

mutual

instance Entry.decidableWellFormed : (e : Entry) → Decidable e.WellFormed
  | .directory d =>
    haveI := Directory.decidableWellFormed d
    decidable_of_iff d.WellFormed (by rw [Entry.WellFormed])
  | .file _ | .sealed .. | .index _ | .link _ | .outside _ =>
    isTrue (by rw [Entry.WellFormed]; trivial)

instance Directory.decidableWellFormed : (d : Directory) → Decidable d.WellFormed
  | .nil => isTrue (by rw [Directory.WellFormed]; trivial)
  | .cons name e rest =>
    haveI := Entry.decidableWellFormed e
    haveI := Directory.decidableWellFormed rest
    decidable_of_iff
      (Path.IsName name ∧ (rest.find? name).isNone ∧ e.WellFormed ∧ rest.WellFormed)
      (by rw [Directory.WellFormed, Option.isNone_iff_eq_none])

end

/-- A file system is well-formed if its tree is. -/
def FileSystem.WellFormed (fs : FileSystem) : Prop := fs.top.WellFormed

instance (fs : FileSystem) : Decidable fs.WellFormed :=
  inferInstanceAs (Decidable fs.top.WellFormed)

theorem Directory.wellFormed_nil : Directory.nil.WellFormed := by
  rw [Directory.WellFormed]
  trivial

/-- What a well-formed directory finds is well-formed and has a name. -/
theorem Directory.WellFormed.of_find? {name : Bytes} {e : Entry} :
    ∀ {d : Directory}, d.WellFormed → d.find? name = some e → Path.IsName name ∧ e.WellFormed
  | .nil, _, h => by cases h
  | .cons n e' rest, hd, h => by
    rw [Directory.WellFormed] at hd
    rw [Directory.find?] at h
    split_ifs at h with hn
    · obtain rfl := Option.some.inj h
      rw [← hn]
      exact ⟨hd.1, hd.2.2.1⟩
    · exact Directory.WellFormed.of_find? hd.2.2.2 h

/-- All names on the way down a well-formed tree are names. -/
theorem Entry.WellFormed.isName_of_get? {e e' : Entry} {l : Location} (he : e.WellFormed)
    (h : e.get? l = some e') : e'.WellFormed ∧ ∀ n ∈ l, Path.IsName n := by
  induction l generalizing e with
  | nil =>
    rw [Entry.get?] at h
    obtain rfl := Option.some.inj h
    exact ⟨he, by simp⟩
  | cons n rest ih =>
    cases e with
    | directory d =>
      rw [Entry.get?, Option.bind_eq_some_iff] at h
      obtain ⟨found, hfind, hrest⟩ := h
      rw [Entry.WellFormed] at he
      obtain ⟨hname, hfound⟩ := he.of_find? hfind
      obtain ⟨he', hnames⟩ := ih hfound hrest
      refine ⟨he', fun m hm => ?_⟩
      rcases List.mem_cons.mp hm with rfl | hm
      · exact hname
      · exact hnames m hm
    | _ => cases h

/-! ### Putting entries into a tree -/

theorem Directory.find?_set_of_ne {name n : Bytes} (h : n ≠ name) (e : Entry) :
    ∀ d : Directory, (d.set name e).find? n = d.find? n
  | .nil => by
    show (if name = n then some e else none) = none
    rw [if_neg (Ne.symm h)]
  | .cons n' e' rest => by
    rw [Directory.set]
    split_ifs with hn
    · rw [Directory.find?, Directory.find?, if_neg (by rw [hn]; exact Ne.symm h),
        if_neg (by rw [hn]; exact Ne.symm h)]
    · rw [Directory.find?, Directory.find?, Directory.find?_set_of_ne h e rest]

/-- An entry under a name keeps a directory well-formed, be the name new or taken. -/
theorem Directory.WellFormed.set {name : Bytes} {e : Entry} (hname : Path.IsName name)
    (he : e.WellFormed) : ∀ {d : Directory}, d.WellFormed → (d.set name e).WellFormed
  | .nil, _ => by
    rw [Directory.set, Directory.WellFormed]
    exact ⟨hname, rfl, he, wellFormed_nil⟩
  | .cons n e' rest, hd => by
    rw [Directory.WellFormed] at hd
    obtain ⟨hn, hnew, he', hrest⟩ := hd
    rw [Directory.set]
    split_ifs with heq
    · rw [Directory.WellFormed]
      exact ⟨hn, hnew, he, hrest⟩
    · rw [Directory.WellFormed, Directory.find?_set_of_ne heq]
      exact ⟨hn, hnew, he', hrest.set hname he⟩

/-- The directory under a name, or an empty one. -/
theorem Directory.WellFormed.entries {d : Directory} (hd : d.WellFormed) (n : Bytes) :
    (((d.find? n).bind Entry.entries?).getD .nil).WellFormed := by
  cases hfind : d.find? n with
  | none => exact wellFormed_nil
  | some found =>
    have hfound := (hd.of_find? hfind).2
    cases found with
    | directory d' =>
      rw [Entry.WellFormed] at hfound
      exact hfound
    | _ => exact wellFormed_nil

/-- **An entry at a location keeps a tree well-formed.** -/
theorem Directory.WellFormed.put {e : Entry} (he : e.WellFormed) {l : Location}
    (hl : ∀ n ∈ l, Path.IsName n) {d : Directory} (hd : d.WellFormed) : (d.put e l).WellFormed := by
  induction l generalizing d with
  | nil => exact hd
  | cons n rest ih =>
    rw [List.forall_mem_cons] at hl
    cases rest with
    | nil => exact hd.set hl.1 he
    | cons m rest =>
      refine hd.set hl.1 ?_
      rw [Entry.WellFormed]
      exact ih hl.2 (hd.entries n)

namespace FileSystem

theorem WellFormed.top {fs : FileSystem} (hfs : fs.WellFormed) :
    (Entry.directory fs.top).WellFormed := by
  rw [Entry.WellFormed]
  exact hfs

/-- A path leads to a well-formed entry. -/
theorem WellFormed.of_lookup {fs : FileSystem} (hfs : fs.WellFormed) {p : Path} {e : Entry}
    (h : fs.lookup p = .ok e) : e.WellFormed := by
  unfold lookup at h
  cases hl : fs.locate p with
  | error _ =>
    rw [hl] at h
    cases h
  | ok l =>
    rw [hl] at h
    cases hget : fs.get? l with
    | none =>
      simp only [bind, Except.bind, hget] at h
      cases h
    | some e' =>
      simp only [bind, Except.bind, hget] at h
      obtain rfl := Except.ok.inj h
      exact (hfs.top.isName_of_get? hget).1

theorem WellFormed.put {fs : FileSystem} (hfs : fs.WellFormed) {l : Location}
    (hl : ∀ n ∈ l, Path.IsName n) {e : Entry} (he : e.WellFormed) : (fs.put l e).WellFormed :=
  Directory.WellFormed.put he hl hfs

/-! ### What paths lead to -/

/-- All names on the way to what a path leads to are names. -/
def Target.IsNamed : Target → Prop
  | .existing l => ∀ n ∈ l, Path.IsName n
  | .absent dir name _ => ∀ n ∈ dir ++ [name], Path.IsName n

theorem isName_base {dir : Location} (hdir : ∀ n ∈ dir, Path.IsName n) (p : Path) :
    ∀ n ∈ base dir p, Path.IsName n := by
  unfold base
  split_ifs
  · exact List.forall_mem_nil _
  · exact hdir

/-- **Segments without a slash lead along names only.**  By induction on the segments; `follow`
takes over at a link. -/
theorem isNamed_resolveWith {fs : FileSystem}
    {follow : Location → List Bytes → Except FileError Target}
    (hfollow : ∀ dir segments t, (∀ n ∈ dir, Path.IsName n) → (∀ s ∈ segments, Path.slash ∉ s) →
      follow dir segments = .ok t → t.IsNamed)
    {dir : Location} (hdir : ∀ n ∈ dir, Path.IsName n) {segments : List Bytes}
    (hsegments : ∀ s ∈ segments, Path.slash ∉ s) {t : Target}
    (h : fs.resolveWith follow dir segments = .ok t) : t.IsNamed := by
  induction segments generalizing dir with
  | nil =>
    obtain rfl := Except.ok.inj h
    exact hdir
  | cons s rest ih =>
    rw [List.forall_mem_cons] at hsegments
    rw [resolveWith] at h
    split at h
    · cases h
    -- segments that are no names are never looked up
    by_cases hskip : s = [] ∨ s = [Path.dot]
    · rw [if_pos hskip] at h
      exact ih hdir hsegments.2 h
    rw [if_neg hskip] at h
    by_cases hparent : s = [Path.dot, Path.dot]
    · rw [if_pos hparent] at h
      exact ih (fun n hn => hdir n (List.dropLast_subset dir hn)) hsegments.2 h
    rw [if_neg hparent] at h
    rw [not_or] at hskip
    have hs : Path.IsName s := ⟨hskip.1, hskip.2, hparent, hsegments.1⟩
    have hdown : ∀ n ∈ dir ++ [s], Path.IsName n := by
      rw [List.forall_mem_append, List.forall_mem_singleton]
      exact ⟨hdir, hs⟩
    split at h
    · split_ifs at h
      obtain rfl := Except.ok.inj h
      exact hdown
    · -- a link: its own segments come before the rest
      split_ifs at h
      refine hfollow _ _ t (isName_base hdir _) ?_ h
      rw [List.forall_mem_append]
      exact ⟨fun _ => not_mem_of_mem_splitAt, hsegments.2⟩
    · exact ih hdown hsegments.2 h

theorem isNamed_resolveFrom {fs : FileSystem} (links : Nat) {dir : Location}
    (hdir : ∀ n ∈ dir, Path.IsName n) {segments : List Bytes}
    (hsegments : ∀ s ∈ segments, Path.slash ∉ s) {t : Target}
    (h : fs.resolveFrom links dir segments = .ok t) : t.IsNamed := by
  induction links generalizing dir segments t with
  | zero =>
    refine isNamed_resolveWith ?_ hdir hsegments h
    intro _ _ _ _ _ hfollow
    cases hfollow
  | succ links ih =>
    refine isNamed_resolveWith ?_ hdir hsegments h
    intro _ _ _ hbase hrest hfollow
    exact ih hbase hrest hfollow

theorem isNamed_resolve {fs : FileSystem} (hdir : ∀ n ∈ fs.workingDirectory, Path.IsName n)
    {p : Path} {t : Target} (h : fs.resolve p = .ok t) : t.IsNamed := by
  unfold resolve at h
  split_ifs at h
  exact isNamed_resolveFrom linkLimit (isName_base hdir p) (fun _ => not_mem_of_mem_splitAt) h

/-! ### Operations -/

/-- Contents keep a file system well-formed. -/
theorem WellFormed.fill {fs : FileSystem} (hfs : fs.WellFormed) {l : Location}
    (hl : ∀ n ∈ l, Path.IsName n) (contents : Bytes) : (fs.fill l contents).WellFormed := by
  refine hfs.put hl ?_
  unfold refilled
  split <;>
  · rw [Entry.WellFormed]
    trivial

/-- **Opening a file for writing keeps a file system well-formed.** -/
theorem WellFormed.create {fs after : FileSystem} (hfs : fs.WellFormed)
    (hdir : ∀ n ∈ fs.workingDirectory, Path.IsName n) {p : Path} {l : Location}
    (h : fs.create p = .ok (after, l)) : after.WellFormed := by
  unfold FileSystem.create at h
  cases hresolve : fs.resolve p with
  | error e =>
    rw [hresolve] at h
    cases h
  | ok t =>
    have hnamed := isNamed_resolve hdir hresolve
    rw [hresolve] at h
    cases t with
    | absent parent name asDirectory =>
      cases asDirectory with
      | true => cases h
      | false =>
        obtain ⟨rfl, -⟩ := Prod.mk.inj (Except.ok.inj h)
        exact hfs.fill hnamed []
    | existing l =>
      simp only [bind, Except.bind] at h
      split at h
      · cases h
      · obtain ⟨rfl, -⟩ := Prod.mk.inj (Except.ok.inj h)
        exact hfs.fill hnamed []

/-- **Writing to a file keeps a file system well-formed.** -/
theorem WellFormed.append {fs : FileSystem} (hfs : fs.WellFormed) (l : Location) (more : Bytes) :
    (fs.append l more).WellFormed := by
  unfold FileSystem.append
  split
  · rename_i contents hcontents
    obtain ⟨e, hget, -⟩ := Option.map_eq_some_iff.mp hcontents
    exact hfs.fill (hfs.top.isName_of_get? hget).2 _
  · exact hfs
  · exact hfs

/-- Making directories keeps a file system well-formed and leads along names only. -/
theorem WellFormed.makeDirectories {fs after : FileSystem} (hfs : fs.WellFormed) {dir l : Location}
    (hdir : ∀ n ∈ dir, Path.IsName n) {names : List Bytes} (hnames : ∀ n ∈ names, Path.IsName n)
    (h : fs.makeDirectories dir names = .ok (after, l)) :
    after.WellFormed ∧ ∀ n ∈ l, Path.IsName n := by
  induction names generalizing fs dir with
  | nil =>
    obtain ⟨rfl, rfl⟩ := Prod.mk.inj (Except.ok.inj h)
    exact ⟨hfs, hdir⟩
  | cons n rest ih =>
    rw [List.forall_mem_cons] at hnames
    rw [FileSystem.makeDirectories] at h
    cases hresolve : fs.resolveFrom linkLimit dir [n] with
    | error e =>
      rw [hresolve] at h
      cases h
    | ok t =>
      have hnamed := isNamed_resolveFrom linkLimit hdir
        (by rw [List.forall_mem_singleton]; exact hnames.1.2.2.2) hresolve
      rw [hresolve] at h
      cases t with
      | existing l' => exact ih hfs hnamed hnames.2 h
      | absent parent name asDirectory =>
        refine ih (hfs.put hnamed ?_) hnamed hnames.2 h
        rw [Entry.WellFormed]
        exact Directory.wellFormed_nil

/-- **Adding an entry keeps a file system well-formed.** -/
theorem WellFormed.add {fs after : FileSystem} (hfs : fs.WellFormed)
    (hdir : ∀ n ∈ fs.workingDirectory, Path.IsName n) {p : Path} {e : Entry} (he : e.WellFormed)
    (h : fs.add p e = .ok after) : after.WellFormed := by
  have hnames : ∀ n ∈ (Path.names p.components).reverse, Path.IsName n := fun n hn =>
    Path.isName_of_mem_names (List.mem_reverse.mp hn)
  unfold FileSystem.add at h
  split at h
  · obtain rfl := Except.ok.inj h
    exact hfs
  · rename_i name above hreverse
    rw [hreverse, List.forall_mem_cons] at hnames
    cases hmake : fs.makeDirectories fs.workingDirectory above.reverse with
    | error _ =>
      rw [hmake] at h
      cases h
    | ok made =>
      obtain ⟨fs', dir⟩ := made
      obtain ⟨hfs', hdir'⟩ := hfs.makeDirectories hdir
        (fun n hn => hnames.2 n (List.mem_reverse.mp hn)) hmake
      rw [hmake] at h
      cases hresolve : fs'.resolveFrom linkLimit dir [name] with
      | error _ =>
        simp only [bind, Except.bind, hresolve] at h
        cases h
      | ok t =>
        have hnamed := isNamed_resolveFrom linkLimit hdir'
          (by rw [List.forall_mem_singleton]; exact hnames.1.2.2.2) hresolve
        simp only [bind, Except.bind, hresolve] at h
        split at h
        · obtain rfl := Except.ok.inj h
          exact hfs'.put hnamed he
        · obtain rfl := Except.ok.inj h
          exact hfs'.put hnamed he
        · obtain rfl := Except.ok.inj h
          exact hfs'
        · obtain rfl := Except.ok.inj h
          refine hfs'.put ?_ he
          rw [List.forall_mem_append, List.forall_mem_singleton]
          exact ⟨hdir', hnames.1⟩

end FileSystem

end SourceChunks
