import SourceChunks.Proofs.Files.Traversal

/-!
# Where paths lead

A path that leads somewhere leads to an entry that is there and is no link, and a path that leads to
a new name leads into a directory that is there (`stands_resolve`).  Resolution goes on from where a
path leads: below a path that leads to `R`, the names of a location are resolved from `R` on
(`resolve_descend`).  So the path of a location without links leads to the location
(`locate_descend`), and in a tree without links to nothing else (`get?_of_lookup_descend`).
-/

namespace SourceChunks

/-! ### Entries at locations -/

/-- Going down two locations is going down one after the other. -/
theorem Entry.get?_append (e : Entry) (l l' : Location) :
    e.get? (l ++ l') = (e.get? l).bind (·.get? l') := by
  induction l generalizing e with
  | nil => rfl
  | cons n rest ih =>
    cases e with
    | directory d =>
      simp only [List.cons_append, Entry.get?]
      cases d.find? n with
      | none => rfl
      | some found => exact ih found
    | _ => rfl

/-- Is an entry a link to a path? -/
def Entry.isLink : Entry → Bool
  | .link _ => true
  | .file _ | .sealed .. | .index _ | .outside _ | .directory _ => false

theorem Entry.isLink_of_isRegularFile {e : Entry} (h : e.isRegularFile) : e.isLink = false := by
  cases e with
  | link _ => cases h
  | _ => rfl

theorem Entry.isLink_cases (e : Entry) : e.isLink = false ∨ ∃ target, e = .link target := by
  cases e with
  | link target => exact Or.inr ⟨target, rfl⟩
  | _ => exact Or.inl rfl

mutual

/-- Is there no link at or below an entry? -/
def Entry.isPlain : Entry → Bool
  | .file _ | .sealed .. | .index _ => true
  | .directory d => d.isPlain
  | .link _ | .outside _ => false

/-- Is there no link below a directory? -/
def Directory.isPlain : Directory → Bool
  | .nil => true
  | .cons _ e rest => e.isPlain && rest.isPlain

end

theorem Entry.isLink_of_isPlain {e : Entry} (h : e.isPlain = true) : e.isLink = false := by
  rcases e.isLink_cases with hlink | ⟨target, rfl⟩
  · exact hlink
  · rw [Entry.isPlain] at h
    cases h

theorem Directory.isPlain_of_find? {n : Bytes} {e : Entry} :
    ∀ {d : Directory}, d.isPlain = true → d.find? n = some e → e.isPlain = true
  | .nil, _, h => by cases h
  | .cons name e' rest, hd, h => by
    rw [Directory.isPlain, Bool.and_eq_true] at hd
    rw [Directory.find?] at h
    split_ifs at h
    · rw [← Option.some.inj h]
      exact hd.1
    · exact Directory.isPlain_of_find? hd.2 h

theorem Entry.isPlain_of_get? {e e' : Entry} {l : Location} (he : e.isPlain = true)
    (h : e.get? l = some e') : e'.isPlain = true := by
  induction l generalizing e with
  | nil =>
    rw [← Option.some.inj h]
    exact he
  | cons n rest ih =>
    cases e with
    | directory d =>
      rw [Entry.isPlain] at he
      rw [Entry.get?, Option.bind_eq_some_iff] at h
      obtain ⟨next, hnext, hrest⟩ := h
      exact ih (Directory.isPlain_of_find? he hnext) hrest
    | _ => cases h

/-- Something has to be a directory to have entries below it. -/
theorem Entry.entries?_isSome_of_get? {e e' : Entry} {n : Bytes} {l : Location}
    (h : e.get? (n :: l) = some e') : e.entries?.isSome := by
  cases e with
  | directory d => rfl
  | _ => cases h

namespace FileSystem

variable {fs : FileSystem} {dir l : Location} {d : Directory}

theorem get?_append (fs : FileSystem) (l l' : Location) :
    fs.get? (l ++ l') = (fs.get? l).bind (·.get? l') :=
  Entry.get?_append _ l l'

theorem directoryAt?_eq_some_iff :
    fs.directoryAt? dir = some d ↔ fs.get? dir = some (.directory d) := by
  rw [directoryAt?, Option.bind_eq_some_iff]
  constructor
  · rintro ⟨e, hget, he⟩
    rw [hget, Entry.eq_directory_of_entries? he]
  · intro h
    exact ⟨_, h, rfl⟩

/-- What a directory finds is what lies one step further down. -/
theorem find?_eq_get? (h : fs.directoryAt? dir = some d) (n : Bytes) :
    d.find? n = fs.get? (dir ++ [n]) := by
  rw [get?_append, directoryAt?_eq_some_iff.mp h, Option.bind_some, Entry.get?]
  cases d.find? n with
  | none => rfl
  | some e => rfl

/-- What lies in a location lies in directories all the way down. -/
theorem directoryAt?_isSome_of_get? {n : Bytes} {more : Location} {e : Entry}
    (h : fs.get? (dir ++ n :: more) = some e) : (fs.directoryAt? dir).isSome := by
  rw [get?_append, Option.bind_eq_some_iff] at h
  obtain ⟨above, habove, hbelow⟩ := h
  rw [directoryAt?, habove]
  exact Entry.entries?_isSome_of_get? hbelow

theorem directoryAt?_dropLast (h : (fs.directoryAt? dir).isSome) :
    (fs.directoryAt? dir.dropLast).isSome := by
  rcases dir.eq_nil_or_concat with rfl | ⟨above, n, rfl⟩
  · exact h
  · obtain ⟨d, hd⟩ := Option.isSome_iff_exists.mp h
    rw [List.concat_eq_append] at hd ⊢
    rw [List.dropLast_concat]
    exact directoryAt?_isSome_of_get? (directoryAt?_eq_some_iff.mp hd)

/-! ### One segment -/

/-- Is a segment looked up?  Empty ones, `.` and `..` are not. -/
def IsLookedUp (s : Bytes) : Prop := ¬(s = [] ∨ s = [Path.dot]) ∧ s ≠ [Path.dot, Path.dot]

theorem IsLookedUp.of_isName {n : Bytes} (h : Path.IsName n) : IsLookedUp n :=
  ⟨by simp [h.1, h.2.1], h.2.2.1⟩

section Segment

variable {follow : Location → List Bytes → Except FileError Target} {s : Bytes} (rest : List Bytes)

theorem resolveWith_stuck (hdir : (fs.directoryAt? dir).isSome = false) :
    fs.resolveWith follow dir (s :: rest) = .error .notADirectory := by
  rw [Option.isSome_eq_false_iff, Option.isNone_iff_eq_none] at hdir
  rw [resolveWith, hdir]

theorem resolveWith_blank (hdir : (fs.directoryAt? dir).isSome) (hs : s = [] ∨ s = [Path.dot]) :
    fs.resolveWith follow dir (s :: rest) = fs.resolveWith follow dir rest := by
  obtain ⟨d, hd⟩ := Option.isSome_iff_exists.mp hdir
  rw [resolveWith, hd]
  dsimp only
  rw [if_pos hs]

theorem resolveWith_parent (hdir : (fs.directoryAt? dir).isSome) (hs : s = [Path.dot, Path.dot]) :
    fs.resolveWith follow dir (s :: rest) = fs.resolveWith follow dir.dropLast rest := by
  obtain ⟨d, hd⟩ := Option.isSome_iff_exists.mp hdir
  rw [resolveWith, hd]
  dsimp only
  rw [if_neg (by simp [hs]), if_pos hs]

/-- A free name can be the last one only. -/
theorem resolveWith_free (hdir : (fs.directoryAt? dir).isSome) (hs : IsLookedUp s)
    (hget : fs.get? (dir ++ [s]) = none) : fs.resolveWith follow dir (s :: rest)
      = if rest.all (· = []) then .ok (.absent dir s !rest.isEmpty) else .error .notFound := by
  obtain ⟨d, hd⟩ := Option.isSome_iff_exists.mp hdir
  rw [resolveWith, hd]
  dsimp only
  rw [if_neg hs.1, if_neg hs.2, find?_eq_get? hd, hget]

theorem resolveWith_link (hdir : (fs.directoryAt? dir).isSome) (hs : IsLookedUp s) {target : Path}
    (hget : fs.get? (dir ++ [s]) = some (.link target)) : fs.resolveWith follow dir (s :: rest)
      = if target.bytes = [] then .error .notFound
        else follow (base dir target) (splitAt Path.slash target.bytes ++ rest) := by
  obtain ⟨d, hd⟩ := Option.isSome_iff_exists.mp hdir
  rw [resolveWith, hd]
  dsimp only
  rw [if_neg hs.1, if_neg hs.2, find?_eq_get? hd, hget]

theorem resolveWith_entry (hdir : (fs.directoryAt? dir).isSome) (hs : IsLookedUp s) {e : Entry}
    (hget : fs.get? (dir ++ [s]) = some e) (hlink : e.isLink = false) :
    fs.resolveWith follow dir (s :: rest) = fs.resolveWith follow (dir ++ [s]) rest := by
  obtain ⟨d, hd⟩ := Option.isSome_iff_exists.mp hdir
  rw [resolveWith, hd]
  dsimp only
  rw [if_neg hs.1, if_neg hs.2, find?_eq_get? hd, hget]
  cases e with
  | link target => cases hlink
  | _ => rfl

end Segment

/-! ### What resolution leads to -/

/-- **What a path can lead to**: an entry that is there and is no link, or a free name in a
directory that is there. -/
def Target.Stands (fs : FileSystem) : Target → Prop
  | .existing l => ∃ e, fs.get? l = some e ∧ e.isLink = false
  | .absent dir n _ => (fs.directoryAt? dir).isSome ∧ fs.get? (dir ++ [n]) = none ∧ Path.IsName n

theorem stands_existing (h : (fs.directoryAt? dir).isSome) : (Target.existing dir).Stands fs := by
  obtain ⟨d, hd⟩ := Option.isSome_iff_exists.mp h
  exact ⟨.directory d, directoryAt?_eq_some_iff.mp hd, rfl⟩

/-- By induction on the segments.  Whatever the way so far, each step looks at a directory. -/
theorem stands_resolveWith {follow : Location → List Bytes → Except FileError Target}
    (hfollow : ∀ dir segments t, segments ≠ [] → (∀ s ∈ segments, Path.slash ∉ s) →
      follow dir segments = .ok t → t.Stands fs)
    {segments : List Bytes} (hstart : segments = [] → (Target.existing dir).Stands fs)
    (hsegments : ∀ s ∈ segments, Path.slash ∉ s) {t : Target}
    (h : fs.resolveWith follow dir segments = .ok t) : t.Stands fs := by
  induction segments generalizing dir with
  | nil =>
    obtain rfl := Except.ok.inj h
    exact hstart rfl
  | cons s rest ih =>
    rw [List.forall_mem_cons] at hsegments
    by_cases hdir : (fs.directoryAt? dir).isSome
    swap
    · rw [resolveWith_stuck rest (by simpa using hdir)] at h
      cases h
    by_cases hblank : s = [] ∨ s = [Path.dot]
    · rw [resolveWith_blank rest hdir hblank] at h
      exact ih (fun _ => stands_existing hdir) hsegments.2 h
    by_cases hparent : s = [Path.dot, Path.dot]
    · rw [resolveWith_parent rest hdir hparent] at h
      exact ih (fun _ => stands_existing (directoryAt?_dropLast hdir)) hsegments.2 h
    cases hget : fs.get? (dir ++ [s]) with
    | none =>
      rw [resolveWith_free rest hdir ⟨hblank, hparent⟩ hget] at h
      rw [not_or] at hblank
      split_ifs at h
      obtain rfl := Except.ok.inj h
      exact ⟨hdir, hget, hblank.1, hblank.2, hparent, hsegments.1⟩
    | some e =>
      rcases e.isLink_cases with hlink | ⟨target, rfl⟩
      · rw [resolveWith_entry rest hdir ⟨hblank, hparent⟩ hget hlink] at h
        exact ih (fun _ => ⟨e, hget, hlink⟩) hsegments.2 h
      · -- there is at least one segment to go on with
        rw [resolveWith_link rest hdir ⟨hblank, hparent⟩ hget] at h
        split_ifs at h
        refine hfollow _ _ t ?_ ?_ h
        · simp [splitAt_ne_nil]
        · rw [List.forall_mem_append]
          exact ⟨fun _ => not_mem_of_mem_splitAt, hsegments.2⟩

theorem stands_resolveFrom (links : Nat) {segments : List Bytes} (hne : segments ≠ [])
    (hsegments : ∀ s ∈ segments, Path.slash ∉ s) {t : Target}
    (h : fs.resolveFrom links dir segments = .ok t) : t.Stands fs := by
  induction links generalizing dir segments t with
  | zero =>
    refine stands_resolveWith ?_ (fun hnil => absurd hnil hne) hsegments h
    intro _ _ _ _ _ hfollow
    cases hfollow
  | succ links ih =>
    refine stands_resolveWith ?_ (fun hnil => absurd hnil hne) hsegments h
    intro _ _ _ hne' hrest hfollow
    exact ih hne' hrest hfollow

/-- **What a path leads to stands in the tree.** -/
theorem stands_resolve {p : Path} {t : Target} (h : fs.resolve p = .ok t) : t.Stands fs := by
  unfold resolve at h
  split_ifs at h
  exact stands_resolveFrom linkLimit (splitAt_ne_nil _ _) (fun _ => not_mem_of_mem_splitAt) h

theorem locate_eq_ok_iff {p : Path} : fs.locate p = .ok l ↔ fs.resolve p = .ok (.existing l) := by
  unfold locate
  cases fs.resolve p with
  | error e => simp [bind, Except.bind]
  | ok t =>
    cases t with
    | existing l' => simp [bind, Except.bind]
    | absent dir n asDirectory => simp [bind, Except.bind]

/-- The empty path leads nowhere. -/
theorem bytes_ne_nil_of_locate {p : Path} (h : fs.locate p = .ok l) : p.bytes ≠ [] := by
  rw [locate_eq_ok_iff, resolve] at h
  split_ifs at h with hempty
  exact hempty

/-- **A path leads to an entry that is there and is no link.** -/
theorem exists_of_locate {p : Path} (h : fs.locate p = .ok l) :
    ∃ e, fs.get? l = some e ∧ e.isLink = false :=
  stands_resolve (locate_eq_ok_iff.mp h)

theorem lookup_eq_ok_iff {p : Path} {e : Entry} :
    fs.lookup p = .ok e ↔ ∃ l, fs.locate p = .ok l ∧ fs.get? l = some e := by
  unfold lookup
  cases hlocate : fs.locate p with
  | error err => simp [bind, Except.bind]
  | ok l =>
    obtain ⟨e', hget, -⟩ := exists_of_locate hlocate
    simp [bind, Except.bind, hget]

theorem exists_of_isDirectory {p : Path} (h : fs.isDirectory p) :
    ∃ l, fs.locate p = .ok l ∧ (fs.directoryAt? l).isSome := by
  unfold isDirectory status at h
  cases hlookup : fs.lookup p with
  | error e =>
    rw [hlookup] at h
    cases h
  | ok e =>
    obtain ⟨l, hlocate, hget⟩ := lookup_eq_ok_iff.mp hlookup
    refine ⟨l, hlocate, ?_⟩
    rw [directoryAt?, hget]
    rw [hlookup] at h
    rcases e with _ | _ | _ | (_ | _) | _ | _
    · cases h
    · cases h
    · cases h
    · cases h
    · cases h
    · cases h
    · rfl

/-! ### Going on from where a path leads -/

/-- Empty segments at the end lead nowhere else. -/
theorem eq_of_resolveWith_blank {follow : Location → List Bytes → Except FileError Target}
    {blank : List Bytes} (hblank : ∀ s ∈ blank, s = [])
    (h : fs.resolveWith follow dir blank = .ok (.existing l)) : l = dir := by
  induction blank with
  | nil => exact (Target.existing.inj (Except.ok.inj h)).symm
  | cons s rest ih =>
    rw [List.forall_mem_cons] at hblank
    by_cases hdir : (fs.directoryAt? dir).isSome
    · rw [resolveWith_blank rest hdir (Or.inl hblank.1)] at h
      exact ih hblank.2 h
    · rw [resolveWith_stuck rest (by simpa using hdir)] at h
      cases h

/-- One stretch without links.  `links` of them are left when it starts, and `follow` takes over at
the first one. -/
theorem resolveWith_append {follow : Location → List Bytes → Except FileError Target} (links : Nat)
    (hlinks : fs.resolveWith follow = fs.resolveFrom links) {blank : List Bytes}
    (hblank : ∀ s ∈ blank, s = [])
    (hfollow : ∀ dir segments, follow dir (segments ++ blank) = .ok (.existing l) →
      ∃ left, ∀ more, follow dir (segments ++ more) = fs.resolveFrom left l more)
    {segments : List Bytes}
    (h : fs.resolveWith follow dir (segments ++ blank) = .ok (.existing l)) :
    ∃ left, ∀ more, fs.resolveWith follow dir (segments ++ more) = fs.resolveFrom left l more := by
  induction segments generalizing dir with
  | nil =>
    obtain rfl := eq_of_resolveWith_blank hblank h
    exact ⟨links, fun more => by rw [List.nil_append, hlinks]⟩
  | cons s rest ih =>
    -- the same step is taken whatever comes after the segments
    simp only [List.cons_append] at h ⊢
    by_cases hdir : (fs.directoryAt? dir).isSome
    swap
    · rw [resolveWith_stuck _ (by simpa using hdir)] at h
      cases h
    by_cases hempty : s = [] ∨ s = [Path.dot]
    · simp only [resolveWith_blank _ hdir hempty] at h ⊢
      exact ih h
    by_cases hparent : s = [Path.dot, Path.dot]
    · simp only [resolveWith_parent _ hdir hparent] at h ⊢
      exact ih h
    cases hget : fs.get? (dir ++ [s]) with
    | none =>
      rw [resolveWith_free _ hdir ⟨hempty, hparent⟩ hget] at h
      split_ifs at h
      cases h
    | some e =>
      rcases e.isLink_cases with hlink | ⟨target, rfl⟩
      · simp only [resolveWith_entry _ hdir ⟨hempty, hparent⟩ hget hlink] at h ⊢
        exact ih h
      · simp only [resolveWith_link _ hdir ⟨hempty, hparent⟩ hget] at h ⊢
        split_ifs at h with htarget
        rw [← List.append_assoc] at h
        obtain ⟨left, hleft⟩ := hfollow _ _ h
        refine ⟨left, fun more => ?_⟩
        rw [if_neg htarget, ← List.append_assoc, hleft]

/-- **Resolution goes on from where the segments so far lead.**  By induction on the number of
links. -/
theorem resolveFrom_append (links : Nat) {segments blank : List Bytes}
    (hblank : ∀ s ∈ blank, s = [])
    (h : fs.resolveFrom links dir (segments ++ blank) = .ok (.existing l)) :
    ∃ left, ∀ more, fs.resolveFrom links dir (segments ++ more) = fs.resolveFrom left l more := by
  induction links generalizing dir segments with
  | zero =>
    refine resolveWith_append 0 rfl hblank ?_ h
    intro _ _ hfollow
    cases hfollow
  | succ links ih =>
    refine resolveWith_append (links + 1) rfl hblank ?_ h
    intro _ _ hfollow
    exact ih hfollow

/-- **Below a path, resolution goes on from where the path leads.** -/
theorem resolve_descend {p : Path} (h : fs.locate p = .ok l) :
    ∃ left, ∀ more : Location, more ≠ [] → (∀ n ∈ more, Path.IsName n) →
      fs.resolve (p.descend more) = fs.resolveFrom left l more := by
  rw [locate_eq_ok_iff, resolve] at h
  split_ifs at h with hempty
  -- the segments of the path, with an empty one at the end if it ends in a slash
  obtain ⟨blank, hblank, hsplit⟩ : ∃ blank, (∀ s ∈ blank, s = []) ∧
      splitAt Path.slash p.bytes = splitAt Path.slash p.stem ++ blank := by
    rcases Path.bytes_eq_stem p with hp | hp
    · exact ⟨[], List.forall_mem_nil _, by rw [List.append_nil, ← hp]⟩
    · refine ⟨[[]], by simp, ?_⟩
      rw [hp, splitAt_append_cons]
      rfl
  rw [hsplit] at h
  obtain ⟨left, hleft⟩ := resolveFrom_append linkLimit hblank h
  refine ⟨left, fun more hne hnames => ?_⟩
  have hbytes := Path.bytes_descend hempty hne hnames
  have hfilled : (p.descend more).bytes ≠ [] := by
    obtain ⟨n, rest, rfl⟩ := List.exists_cons_of_ne_nil hne
    simp [hbytes]
  have hbase : base fs.workingDirectory (p.descend more) = base fs.workingDirectory p := by
    rw [base, base, Path.isAbsolute_descend hempty hne hnames]
  rw [resolve, if_neg hfilled, hbase, hbytes, Path.splitAt_names hne hnames, hleft]

/-- However many links are left, the next stretch has none. -/
theorem exists_resolveWith (fs : FileSystem) (links : Nat) :
    ∃ follow, fs.resolveFrom links = fs.resolveWith follow := by
  cases links with
  | zero => exact ⟨_, rfl⟩
  | succ links => exact ⟨_, rfl⟩

/-- Names that lead down to an entry that is no link lead to its location. -/
theorem resolveFrom_names (links : Nat) {more : Location} (hnames : ∀ n ∈ more, Path.IsName n)
    {e : Entry} (hget : fs.get? (l ++ more) = some e) (hlink : e.isLink = false) :
    fs.resolveFrom links l more = .ok (.existing (l ++ more)) := by
  obtain ⟨follow, hfollow⟩ := exists_resolveWith fs links
  rw [hfollow]
  induction more generalizing l with
  | nil => rw [List.append_nil, resolveWith]
  | cons n rest ih =>
    rw [List.forall_mem_cons] at hnames
    have hdown : l ++ n :: rest = l ++ [n] ++ rest := by
      rw [List.append_assoc, List.singleton_append]
    have hdir := directoryAt?_isSome_of_get? hget
    rw [hdown] at hget ⊢
    obtain ⟨next, hnext, hrest⟩ :=
      Option.bind_eq_some_iff.mp (get?_append fs (l ++ [n]) rest ▸ hget)
    have hnolink : next.isLink = false := by
      -- a link has nothing below it, and the last entry is none
      rcases next.isLink_cases with hnolink | ⟨target, rfl⟩
      · exact hnolink
      · cases rest with
        | nil => rwa [← Option.some.inj hrest] at hlink
        | cons m rest => cases hrest
    rw [resolveWith_entry rest hdir (.of_isName hnames.1) hnext hnolink]
    exact ih hnames.2 hget

/-- **The path of a location leads to it**, unless there is a link. -/
theorem locate_descend {p : Path} (h : fs.locate p = .ok l) {more : Location}
    (hnames : ∀ n ∈ more, Path.IsName n) {e : Entry} (hget : fs.get? (l ++ more) = some e)
    (hlink : e.isLink = false) : fs.locate (p.descend more) = .ok (l ++ more) := by
  by_cases hne : more = []
  · rw [hne, List.append_nil]
    exact h
  · obtain ⟨left, hleft⟩ := resolve_descend h
    rw [locate_eq_ok_iff, hleft more hne hnames]
    exact resolveFrom_names left hnames hget hlink

/-! ### Trees without links -/

/-- **In a tree without links, the path of a location leads nowhere else.**  By induction on the
location. -/
theorem eq_of_resolveFrom_names (links : Nat) {more : Location}
    (hnames : ∀ n ∈ more, Path.IsName n) {e : Entry} (he : fs.get? l = some e)
    (hplain : e.isPlain = true) {l' : Location}
    (h : fs.resolveFrom links l more = .ok (.existing l')) : l' = l ++ more := by
  obtain ⟨follow, hfollow⟩ := exists_resolveWith fs links
  rw [hfollow] at h
  induction more generalizing l e with
  | nil =>
    rw [List.append_nil]
    exact (Target.existing.inj (Except.ok.inj h)).symm
  | cons n rest ih =>
    rw [List.forall_mem_cons] at hnames
    by_cases hdir : (fs.directoryAt? l).isSome
    swap
    · rw [resolveWith_stuck rest (by simpa using hdir)] at h
      cases h
    cases hget : fs.get? (l ++ [n]) with
    | none =>
      rw [resolveWith_free rest hdir (.of_isName hnames.1) hget] at h
      split_ifs at h
      cases h
    | some next =>
      have hnext : next.isPlain = true := by
        rw [get?_append, he, Option.bind_some] at hget
        exact Entry.isPlain_of_get? hplain hget
      rw [resolveWith_entry rest hdir (.of_isName hnames.1) hget
        (Entry.isLink_of_isPlain hnext)] at h
      rw [ih hnames.2 hget hnext h, List.append_assoc, List.singleton_append]

theorem get?_of_lookup_descend {p : Path} {d : Directory} (hp : fs.lookup p = .ok (.directory d))
    (hplain : d.isPlain = true) {more : Location} (hnames : ∀ n ∈ more, Path.IsName n) {e : Entry}
    (h : fs.lookup (p.descend more) = .ok e) : (Entry.directory d).get? more = some e := by
  by_cases hne : more = []
  · rw [hne] at h ⊢
    rw [← Except.ok.inj (hp.symm.trans h)]
    rfl
  · obtain ⟨l, hl, hd⟩ := lookup_eq_ok_iff.mp hp
    obtain ⟨l', hl', he⟩ := lookup_eq_ok_iff.mp h
    obtain ⟨left, hleft⟩ := resolve_descend hl
    rw [locate_eq_ok_iff, hleft more hne hnames] at hl'
    have hplain' : (Entry.directory d).isPlain = true := by
      rw [Entry.isPlain]
      exact hplain
    rw [eq_of_resolveFrom_names left hnames hd hplain' hl', get?_append, hd, Option.bind_some] at he
    exact he

/-- Nothing is listed below the standard input. -/
theorem isStandardInput_of_mem_walk {skip : Path → Bool} {root p : Path}
    (hp : p ∈ fs.walk skip root) : isStandardInput root = false := by
  by_contra hinput
  rw [walk, if_pos (by simpa using hinput)] at hp
  cases hp

/-- **A path that a walk lists leads to the file that it is listed for.** -/
theorem locate_of_mem_walk (hfs : fs.WellFormed) {skip : Path → Bool} {root p : Path}
    (hroot : fs.locate root = .ok l) (hp : p ∈ fs.walk skip root) :
    ∃ more, p = root.descend more ∧ fs.locate p = .ok (l ++ more) := by
  have hinput := isStandardInput_of_mem_walk hp
  obtain ⟨more, rfl, hfile, -⟩ := (mem_walk hfs hinput p).mp hp
  have hnames := hfile.isName hfs
  obtain ⟨d, e, hd, hget, hregular⟩ := hfile
  obtain ⟨l', hl', hd'⟩ := lookup_eq_ok_iff.mp hd
  obtain rfl : l' = l := Except.ok.inj (hl'.symm.trans hroot)
  refine ⟨more, rfl,
    locate_descend hroot hnames (e := e) ?_ (Entry.isLink_of_isRegularFile hregular)⟩
  rw [get?_append, hd', Option.bind_some, hget]

end FileSystem

end SourceChunks
