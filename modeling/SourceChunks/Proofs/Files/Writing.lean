import SourceChunks.Proofs.Files.Resolving

/-!
# What writing a file changes

`WrittenAt l fs fs'` says that `fs'` is `fs` with a file written at `l`, where there was a file that
can be written or nothing before; a file outside the tree that a link leads to is written through
the link.  Opening a file and writing to it come to that (`create_eq_ok`, `HasRoomAt.append_fill`,
`HasRoomAt.writtenAt`), and everything else is read off it.  A path that leads somewhere still leads
there, and a path that leads somewhere new leads to `l` (`WrittenAt.locate`,
`WrittenAt.locate_cases`); so a walk lists what it listed before, and at most one path more
(`WrittenAt.mem_walk`, `WrittenAt.mem_walk_cases`).
-/

namespace SourceChunks

/-- **An entry as it looks from outside**: for a directory, what is in it is left out. -/
def Entry.surface : Entry → Entry
  | .directory _ => .directory .nil
  | .file contents => .file contents
  | .sealed size refusal => .sealed size refusal
  | .link target => .link target
  | .outside reading => .outside reading
  | .index tracked => .index tracked

theorem Entry.isRegularFile_surface (e : Entry) : e.surface.isRegularFile = e.isRegularFile := by
  cases e <;> rfl

theorem Entry.isSome_entries?_surface (e : Entry) :
    e.surface.entries?.isSome = e.entries?.isSome := by
  cases e <;> rfl

theorem Entry.isLink_surface (e : Entry) : e.surface.isLink = e.isLink := by
  cases e <;> rfl

theorem Entry.eq_link_of_surface {e : Entry} {target : Path}
    (h : e.surface = (Entry.link target).surface) : e = .link target := by
  cases e with
  | link _ => exact h
  | _ => cases h

/-! ### Files that can be written -/

/-- Can an entry be opened for writing, once links have been followed? -/
def Entry.isWritable : Entry → Bool
  | .file _ | .index _ | .outside (.ok _) => true
  | .sealed .. | .outside (.error _) | .link _ | .directory _ => false

section Writable

variable {e : Entry}

theorem Entry.isWritable_of_refusalOf (h : FileSystem.refusalOf e = none)
    (hlink : e.isLink = false) : e.isWritable := by
  rcases e with _ | _ | _ | (_ | _) | _ | _
  · rfl
  · cases h
  · cases hlink
  · cases h
  · rfl
  · rfl
  · cases h

theorem Entry.entries?_of_isWritable (h : e.isWritable) : e.entries? = none := by
  cases e with
  | directory _ => cases h
  | _ => rfl

theorem Entry.isLink_of_isWritable (h : e.isWritable) : e.isLink = false := by
  cases e with
  | link _ => cases h
  | _ => rfl

end Writable

namespace FileSystem

theorem isWritable_refilled (contents : Bytes) (old? : Option Entry) :
    (refilled contents old?).isWritable := by
  unfold refilled
  split <;> rfl

theorem contentsOf_refilled (contents : Bytes) (old? : Option Entry) :
    contentsOf (refilled contents old?) = .ok contents := by
  unfold refilled
  split <;> rfl

/-- The last contents stay. -/
theorem refilled_refilled (contents contents' : Bytes) (old? : Option Entry) :
    refilled contents' (some (refilled contents old?)) = refilled contents' old? := by
  rcases old? with _ | e
  · rfl
  · cases e <;> rfl

/-- Other contents do not make a regular file of a link, or the other way round. -/
theorem isRegularFile_refilled (contents : Bytes) {e : Entry} (h : e.isWritable) :
    (refilled contents (some e)).isRegularFile = e.isRegularFile := by
  rcases e with _ | _ | _ | (_ | _) | _ | _
  · rfl
  · cases h
  · cases h
  · cases h
  · rfl
  · rfl
  · cases h

end FileSystem

/-! ### Putting a file into a tree -/

namespace Directory

theorem find?_set_self (name : Bytes) (e : Entry) :
    ∀ d : Directory, (d.set name e).find? name = some e
  | .nil => by
    show (if name = name then some e else none) = _
    rw [if_pos rfl]
  | .cons n old rest => by
    rw [Directory.set]
    split_ifs with hn
    · rw [Directory.find?, if_pos hn]
    · rw [Directory.find?, if_neg hn, find?_set_self name e rest]

theorem set_set (name : Bytes) (e e' : Entry) :
    ∀ d : Directory, (d.set name e).set name e' = d.set name e'
  | .nil => by
    show (if name = name then Directory.cons name e' .nil else _) = _
    rw [if_pos rfl]
    rfl
  | .cons n old rest => by
    rw [Directory.set]
    split_ifs with hn
    · rw [Directory.set, if_pos hn, Directory.set, if_pos hn]
    · rw [Directory.set, if_neg hn, Directory.set, if_neg hn, set_set name e e' rest]

/-- The directory under a name, or an empty one. -/
def under (d : Directory) (n : Bytes) : Directory := ((d.find? n).bind Entry.entries?).getD .nil

theorem under_set_self (d : Directory) (n : Bytes) (d' : Directory) :
    (d.set n (.directory d')).under n = d' := by
  rw [under, find?_set_self]
  rfl

theorem put_singleton (e : Entry) (n : Bytes) (d : Directory) : d.put e [n] = d.set n e := rfl

theorem put_cons (e : Entry) (n : Bytes) {l : Location} (hl : l ≠ []) (d : Directory) :
    d.put e (n :: l) = d.set n (.directory ((d.under n).put e l)) := by
  cases l with
  | nil => exact absurd rfl hl
  | cons m l => rfl

/-- What was put at a location is found there. -/
theorem get?_put_self (e : Entry) {l : Location} (hl : l ≠ []) (d : Directory) :
    (Entry.directory (d.put e l)).get? l = some e := by
  induction l generalizing d with
  | nil => exact absurd rfl hl
  | cons n rest ih =>
    by_cases hrest : rest = []
    · rw [hrest, put_singleton, Entry.get?, find?_set_self]
      rfl
    · rw [put_cons e n hrest, Entry.get?, find?_set_self]
      exact ih hrest _

/-- The last entry put at a location stays. -/
theorem put_put (e e' : Entry) (l : Location) (d : Directory) :
    (d.put e l).put e' l = d.put e' l := by
  induction l generalizing d with
  | nil => rfl
  | cons n rest ih =>
    by_cases hrest : rest = []
    · rw [hrest, put_singleton, put_singleton, put_singleton, set_set]
    · rw [put_cons e n hrest, put_cons e' n hrest, put_cons e' n hrest, under_set_self, ih, set_set]

/-- **Putting a file into a directory changes nothing else.**  By induction on the way to the
directory. -/
theorem surface_get?_put {above : Location} {n : Bytes} {d : Directory}
    (habove : (((Entry.directory d).get? above).bind Entry.entries?).isSome)
    (hold : ∀ e, (Entry.directory d).get? (above ++ [n]) = some e → e.entries? = none)
    {e : Entry} (he : e.entries? = none) {l : Location} (hl : l ≠ above ++ [n]) :
    ((Entry.directory (d.put e (above ++ [n]))).get? l).map Entry.surface
      = ((Entry.directory d).get? l).map Entry.surface := by
  induction above generalizing d l with
  | nil =>
    cases l with
    | nil => rfl
    | cons m rest =>
      rw [List.nil_append, put_singleton, Entry.get?, Entry.get?]
      by_cases hm : m = n
      · -- nothing lies below the file, new or old
        obtain ⟨m', rest', rfl⟩ := List.exists_cons_of_ne_nil
          (show rest ≠ [] by rintro rfl; exact hl (by rw [hm]; rfl))
        rw [hm, find?_set_self, Option.bind_some, Entry.get?_cons_of_leaf he]
        cases hfind : d.find? n with
        | none => rfl
        | some old =>
          have hleaf : old.entries? = none :=
            hold old (by rw [List.nil_append, Entry.get?, hfind]; rfl)
          rw [Option.bind_some, Entry.get?_cons_of_leaf hleaf]
      · rw [find?_set_of_ne hm]
  | cons a above ih =>
    have hne : above ++ [n] ≠ [] := by simp
    rw [List.cons_append, put_cons e a hne]
    -- the directory that comes next on the way
    obtain ⟨below, hbelow⟩ : ∃ below, d.find? a = some (.directory below) := by
      rw [Entry.get?] at habove
      cases hfind : d.find? a with
      | none =>
        rw [hfind] at habove
        cases habove
      | some next =>
        rw [hfind, Option.bind_some] at habove
        cases next with
        | directory below => exact ⟨below, rfl⟩
        | _ => cases above <;> cases habove
    have hunder : d.under a = below := by
      rw [under, hbelow]
      rfl
    cases l with
    | nil => rfl
    | cons m rest =>
      rw [Entry.get?, Entry.get?]
      by_cases hm : m = a
      · rw [hm, find?_set_self, hbelow, Option.bind_some, Option.bind_some, hunder]
        apply ih
        · rwa [Entry.get?, hbelow, Option.bind_some] at habove
        · intro old hget
          apply hold
          rwa [List.cons_append, Entry.get?, hbelow, Option.bind_some]
        · rintro rfl
          exact hl (by rw [hm, List.cons_append])
      · rw [find?_set_of_ne hm]

end Directory

namespace FileSystem

variable {fs fs' : FileSystem} {l l' : Location} {p root : Path}

/-! ### Files that are written -/

/-- **A file can stand at a location**: there is a directory for it, and nothing but a file that can
be written is in its place. -/
structure HasRoomAt (fs : FileSystem) (l : Location) : Prop where
  named : ∃ above n, l = above ++ [n] ∧ Path.IsName n ∧ (fs.directoryAt? above).isSome
  replaces : ∀ e, fs.get? l = some e → e.isWritable

/-- **`fs'` is `fs` with a file written at `l`.** -/
structure WrittenAt (l : Location) (fs fs' : FileSystem) : Prop where
  elsewhere : ∀ l' ≠ l, (fs'.get? l').map Entry.surface = (fs.get? l').map Entry.surface
  before : ∀ e, fs.get? l = some e → e.isWritable
  after : ∃ contents, fs'.get? l = some (refilled contents (fs.get? l))
  workingDirectory_eq : fs'.workingDirectory = fs.workingDirectory

theorem HasRoomAt.ne_nil (h : fs.HasRoomAt l) : l ≠ [] := by
  obtain ⟨above, n, rfl, -, -⟩ := h.named
  simp

theorem HasRoomAt.get?_fill (h : fs.HasRoomAt l) (contents : Bytes) :
    (fs.fill l contents).get? l = some (refilled contents (fs.get? l)) :=
  Directory.get?_put_self _ h.ne_nil fs.top

/-- The last contents of a file stay. -/
theorem HasRoomAt.fill_fill (h : fs.HasRoomAt l) (contents contents' : Bytes) :
    (fs.fill l contents).fill l contents' = fs.fill l contents' := by
  rw [fill, h.get?_fill, refilled_refilled, fill, put, put, Directory.put_put]
  rfl

/-- **Giving contents to a file where it can stand writes it there.** -/
theorem HasRoomAt.writtenAt (h : fs.HasRoomAt l) (contents : Bytes) :
    WrittenAt l fs (fs.fill l contents) where
  elsewhere l' hl' := by
    obtain ⟨above, n, rfl, -, habove⟩ := h.named
    exact Directory.surface_get?_put habove
      (fun e he => Entry.entries?_of_isWritable (h.replaces e he))
      (Entry.entries?_of_isWritable (isWritable_refilled contents _)) hl'
  before := h.replaces
  after := ⟨contents, h.get?_fill contents⟩
  workingDirectory_eq := rfl

theorem HasRoomAt.wellFormed_fill (h : fs.HasRoomAt l) (hfs : fs.WellFormed) (contents : Bytes) :
    (fs.fill l contents).WellFormed := by
  obtain ⟨above, n, rfl, hn, habove⟩ := h.named
  obtain ⟨d, hd⟩ := Option.isSome_iff_exists.mp habove
  refine hfs.fill ?_ contents
  rw [List.forall_mem_append, List.forall_mem_singleton]
  exact ⟨(hfs.top.isName_of_get? (directoryAt?_eq_some_iff.mp hd)).2, hn⟩

/-- A file that has been written can be written again. -/
theorem HasRoomAt.writtenAt_fill (h : fs.HasRoomAt l) (contents contents' : Bytes) :
    WrittenAt l (fs.fill l contents) (fs.fill l contents') where
  elsewhere l' hl' :=
    ((h.writtenAt contents').elsewhere l' hl').trans ((h.writtenAt contents).elsewhere l' hl').symm
  before e he := by
    rw [h.get?_fill] at he
    rw [← Option.some.inj he]
    exact isWritable_refilled contents _
  after := ⟨contents', by rw [h.get?_fill, h.get?_fill, refilled_refilled]⟩
  workingDirectory_eq := rfl

theorem HasRoomAt.append_fill (h : fs.HasRoomAt l) (contents more : Bytes) :
    (fs.fill l contents).append l more = fs.fill l (contents ++ more) := by
  rw [append, h.get?_fill, Option.map_some, contentsOf_refilled]
  exact h.fill_fill contents _

/-- **What opening a file does**: the file is empty afterwards. -/
theorem create_eq_ok (hfs : fs.WellFormed) (h : fs.create p = .ok (fs', l)) :
    fs' = fs.fill l [] ∧ fs.HasRoomAt l := by
  unfold create at h
  cases hresolve : fs.resolve p with
  | error e =>
    rw [hresolve] at h
    cases h
  | ok t =>
    have hstands := stands_resolve hresolve
    rw [hresolve] at h
    cases t with
    | absent above n asDirectory =>
      obtain ⟨habove, hfree, hn⟩ := hstands
      cases asDirectory with
      | true => cases h
      | false =>
        obtain ⟨rfl, rfl⟩ := Prod.mk.inj (Except.ok.inj h)
        refine ⟨rfl, ⟨above, n, rfl, hn, habove⟩, fun e he => ?_⟩
        rw [hfree] at he
        cases he
    | existing place =>
      obtain ⟨e, hget, hlink⟩ := hstands
      simp only [bind, Except.bind, hget, Option.bind_some] at h
      cases hrefusal : refusalOf e with
      | some refusal =>
        rw [hrefusal] at h
        cases h
      | none =>
        rw [hrefusal] at h
        obtain ⟨rfl, rfl⟩ := Prod.mk.inj (Except.ok.inj h)
        have hwritable := Entry.isWritable_of_refusalOf hrefusal hlink
        refine ⟨rfl, ?_, fun e' he' => ?_⟩
        · -- the top is a directory, so the place has a name
          rcases place.eq_nil_or_concat with rfl | ⟨above, n, rfl⟩
          · obtain rfl := Option.some.inj hget
            cases hwritable
          · rw [List.concat_eq_append] at hget ⊢
            refine ⟨above, n, rfl, ?_, directoryAt?_isSome_of_get? hget⟩
            exact (hfs.top.isName_of_get? hget).2 n (by simp)
        · rw [hget] at he'
          rwa [← Option.some.inj he']

/-! ### Where paths lead afterwards -/

/-- The location that a path leads to, if there is something. -/
def landing : Except FileError Target → Option Location
  | .ok (.existing l) => some l
  | .ok (.absent ..) | .error _ => none

theorem locate_iff_landing : fs.locate p = .ok l ↔ landing (fs.resolve p) = some l := by
  rw [locate_eq_ok_iff]
  rcases fs.resolve p with e | (l' | ⟨dir, n, asDirectory⟩)
  · simp [landing]
  · simp [landing]
  · simp [landing]

theorem toOption_lookup : (fs.lookup p).toOption = (landing (fs.resolve p)).bind fs.get? := by
  cases hlookup : fs.lookup p with
  | ok e =>
    obtain ⟨l, hlocate, hget⟩ := lookup_eq_ok_iff.mp hlookup
    rw [locate_iff_landing.mp hlocate, Option.bind_some, hget]
    rfl
  | error err =>
    cases hland : landing (fs.resolve p) with
    | none => rfl
    | some l =>
      have hlocate := locate_iff_landing.mpr hland
      obtain ⟨e, hget, -⟩ := exists_of_locate hlocate
      rw [lookup_eq_ok_iff.mpr ⟨l, hlocate, hget⟩] at hlookup
      cases hlookup

/-- Both ways lead to the same place, or the first one leads nowhere and the second one to `l`. -/
def Follows (l : Location) (r r' : Except FileError Target) : Prop :=
  landing r' = landing r ∨ (landing r = none ∧ landing r' = some l)

/-- The written file is none of the things that resolution looks into. -/
theorem WrittenAt.exists_after (h : WrittenAt l fs fs') :
    ∃ e, fs'.get? l = some e ∧ e.isWritable := by
  obtain ⟨contents, hcontents⟩ := h.after
  exact ⟨_, hcontents, isWritable_refilled contents _⟩

theorem WrittenAt.directoryAt?_eq_none (h : WrittenAt l fs fs') : fs'.directoryAt? l = none := by
  obtain ⟨e, he, hwritable⟩ := h.exists_after
  rw [directoryAt?, he, Option.bind_some, Entry.entries?_of_isWritable hwritable]

theorem WrittenAt.isSome_directoryAt? (h : WrittenAt l fs fs') (dir : Location) :
    (fs'.directoryAt? dir).isSome = (fs.directoryAt? dir).isSome := by
  by_cases hdir : dir = l
  · rw [hdir, h.directoryAt?_eq_none, directoryAt?]
    cases hget : fs.get? l with
    | none => rfl
    | some e => rw [Option.bind_some, Entry.entries?_of_isWritable (h.before e hget)]
  rw [directoryAt?, directoryAt?]
  have hsurface := h.elsewhere dir hdir
  cases hget : fs.get? dir with
  | none =>
    rw [hget, Option.map_none, Option.map_eq_none_iff] at hsurface
    rw [hsurface]
  | some e =>
    rw [hget, Option.map_some, Option.map_eq_some_iff] at hsurface
    obtain ⟨e', hget', he'⟩ := hsurface
    rw [hget', Option.bind_some, Option.bind_some, ← Entry.isSome_entries?_surface e', he',
      Entry.isSome_entries?_surface]

/-- One stretch without links, by induction on the segments. -/
theorem WrittenAt.follows_resolveWith (h : WrittenAt l fs fs')
    {follow follow' : Location → List Bytes → Except FileError Target}
    (hfollow : ∀ dir segments, Follows l (follow dir segments) (follow' dir segments))
    (dir : Location) (segments : List Bytes) :
    Follows l (fs.resolveWith follow dir segments) (fs'.resolveWith follow' dir segments) := by
  induction segments generalizing dir with
  | nil => exact Or.inl rfl
  | cons s rest ih =>
    have hsame := h.isSome_directoryAt? dir
    by_cases hdir : (fs.directoryAt? dir).isSome
    swap
    · rw [Bool.not_eq_true] at hdir
      rw [resolveWith_stuck rest hdir, resolveWith_stuck rest (hsame.trans hdir)]
      exact Or.inl rfl
    have hdir' := hsame.trans hdir
    by_cases hblank : s = [] ∨ s = [Path.dot]
    · rw [resolveWith_blank rest hdir hblank, resolveWith_blank rest hdir' hblank]
      exact ih dir
    by_cases hparent : s = [Path.dot, Path.dot]
    · rw [resolveWith_parent rest hdir hparent, resolveWith_parent rest hdir' hparent]
      exact ih dir.dropLast
    have hs : IsLookedUp s := ⟨hblank, hparent⟩
    by_cases hplace : dir ++ [s] = l
    · -- the place of the file: it could be written before, or there was nothing
      obtain ⟨e', he', hwritable⟩ := h.exists_after
      rw [resolveWith_entry rest hdir' hs (hplace ▸ he') (Entry.isLink_of_isWritable hwritable)]
      cases hget : fs.get? (dir ++ [s]) with
      | some e =>
        rw [resolveWith_entry rest hdir hs hget
          (Entry.isLink_of_isWritable (h.before e (hplace ▸ hget)))]
        exact ih _
      | none =>
        rw [resolveWith_free rest hdir hs hget]
        have hnone : landing (if rest.all (· = []) then .ok (.absent dir s !rest.isEmpty)
            else .error .notFound) = none := by
          split_ifs
          · rfl
          · rfl
        cases rest with
        | nil => exact Or.inr ⟨hnone, by rw [hplace]; rfl⟩
        | cons s' rest' =>
          refine Or.inl (Eq.trans ?_ hnone.symm)
          rw [resolveWith_stuck rest' (by rw [hplace, h.directoryAt?_eq_none]; rfl)]
          rfl
    · have hsurface := h.elsewhere _ hplace
      cases hget : fs.get? (dir ++ [s]) with
      | none =>
        rw [hget, Option.map_none, Option.map_eq_none_iff] at hsurface
        rw [resolveWith_free rest hdir hs hget, resolveWith_free rest hdir' hs hsurface]
        exact Or.inl rfl
      | some e =>
        rw [hget, Option.map_some, Option.map_eq_some_iff] at hsurface
        obtain ⟨e', hget', he'⟩ := hsurface
        rcases e.isLink_cases with hlink | ⟨target, rfl⟩
        · have hlink' : e'.isLink = false := by
            rw [← Entry.isLink_surface, he', Entry.isLink_surface, hlink]
          rw [resolveWith_entry rest hdir hs hget hlink,
            resolveWith_entry rest hdir' hs hget' hlink']
          exact ih _
        · rw [Entry.eq_link_of_surface he'] at hget'
          rw [resolveWith_link rest hdir hs hget, resolveWith_link rest hdir' hs hget']
          split_ifs
          · exact Or.inl rfl
          · exact hfollow _ _

theorem WrittenAt.follows_resolveFrom (h : WrittenAt l fs fs') (links : Nat) (dir : Location)
    (segments : List Bytes) :
    Follows l (fs.resolveFrom links dir segments) (fs'.resolveFrom links dir segments) := by
  induction links generalizing dir segments with
  | zero => exact h.follows_resolveWith (fun _ _ => Or.inl rfl) dir segments
  | succ links ih => exact h.follows_resolveWith ih dir segments

theorem WrittenAt.follows_resolve (h : WrittenAt l fs fs') (p : Path) :
    Follows l (fs.resolve p) (fs'.resolve p) := by
  rw [resolve, resolve, h.workingDirectory_eq]
  split_ifs
  · exact Or.inl rfl
  · exact h.follows_resolveFrom linkLimit _ _

/-- **What a path led to, it still leads to.** -/
theorem WrittenAt.locate (h : WrittenAt l fs fs') (hp : fs.locate p = .ok l') :
    fs'.locate p = .ok l' := by
  rw [locate_iff_landing] at hp ⊢
  rcases h.follows_resolve p with hsame | ⟨hnone, -⟩
  · rw [hsame, hp]
  · rw [hp] at hnone
    cases hnone

/-- **A path that leads somewhere new leads to the file.** -/
theorem WrittenAt.locate_cases (h : WrittenAt l fs fs') (hp : fs'.locate p = .ok l') :
    fs.locate p = .ok l' ∨ l' = l ∧ ∀ l'', fs.locate p ≠ .ok l'' := by
  simp only [Ne, locate_iff_landing] at hp ⊢
  rcases h.follows_resolve p with hsame | ⟨hnone, hnew⟩
  · left
    rw [← hsame, hp]
  · right
    rw [hp] at hnew
    refine ⟨Option.some.inj hnew, fun l'' => ?_⟩
    rw [hnone]
    exact nofun

/-- **Elsewhere, a path leads to what it led to before.** -/
theorem WrittenAt.lookup (h : WrittenAt l fs fs') (hp : fs'.locate p ≠ .ok l) :
    (fs'.lookup p).toOption.map Entry.surface = (fs.lookup p).toOption.map Entry.surface := by
  rw [toOption_lookup, toOption_lookup]
  rw [Ne, locate_iff_landing] at hp
  rcases h.follows_resolve p with hsame | ⟨-, hnew⟩
  · rw [hsame] at hp ⊢
    cases hland : landing (fs.resolve p) with
    | none => rfl
    | some l' => exact h.elsewhere l' fun heq => hp (by rw [hland, heq])
  · exact absurd hnew hp

/-! ### Walks afterwards -/

theorem hasFileBelow_iff {R : Location} (hroot : fs.locate root = .ok R)
    (hdir : (fs.directoryAt? R).isSome) :
    fs.HasFileBelow root l ↔ ∃ e, fs.get? (R ++ l) = some e ∧ e.isRegularFile := by
  obtain ⟨d, hd⟩ := Option.isSome_iff_exists.mp hdir
  rw [directoryAt?_eq_some_iff] at hd
  have hlookup : fs.lookup root = .ok (.directory d) := lookup_eq_ok_iff.mpr ⟨R, hroot, hd⟩
  rw [get?_append, hd, Option.bind_some]
  constructor
  · rintro ⟨d', e, hd', hget, hfile⟩
    rw [hlookup] at hd'
    cases hd'
    exact ⟨e, hget, hfile⟩
  · rintro ⟨e, hget, hfile⟩
    exact ⟨d, e, hlookup, hget, hfile⟩

section Walk

variable {skip : Path → Bool} {R : Location}

/-- The root of a walk stays where it is. -/
theorem WrittenAt.isSome_root (h : WrittenAt l fs fs') (hdir : (fs.directoryAt? R).isSome) :
    (fs'.directoryAt? R).isSome := by
  rw [h.isSome_directoryAt?, hdir]

/-- **A walk still lists what it listed.** -/
theorem WrittenAt.mem_walk (h : WrittenAt l fs fs') (hfs : fs.WellFormed) (hfs' : fs'.WellFormed)
    (hroot : fs.locate root = .ok R) (hdir : (fs.directoryAt? R).isSome)
    (hp : p ∈ fs.walk skip root) : p ∈ fs'.walk skip root := by
  have hinput : isStandardInput root = false := by
    by_contra hinput
    rw [walk, if_pos (by simpa using hinput)] at hp
    cases hp
  obtain ⟨more, rfl, hfile, hreached⟩ := (FileSystem.mem_walk hfs hinput p).mp hp
  refine (FileSystem.mem_walk hfs' hinput _).mpr ⟨more, rfl, ?_, hreached⟩
  obtain ⟨e, hget, hregular⟩ := (hasFileBelow_iff hroot hdir).mp hfile
  rw [hasFileBelow_iff (h.locate hroot) (h.isSome_root hdir)]
  by_cases hplace : R ++ more = l
  · obtain ⟨contents, hcontents⟩ := h.after
    rw [hplace] at hget ⊢
    rw [hget] at hcontents
    exact ⟨_, hcontents, by rw [isRegularFile_refilled contents (h.before e hget), hregular]⟩
  · have hsurface := h.elsewhere _ hplace
    rw [hget, Option.map_some, Option.map_eq_some_iff] at hsurface
    obtain ⟨e', hget', he'⟩ := hsurface
    refine ⟨e', hget', ?_⟩
    rw [← Entry.isRegularFile_surface, he', Entry.isRegularFile_surface, hregular]

/-- **A walk lists nothing new**, except for a path that led nowhere before. -/
theorem WrittenAt.mem_walk_cases (h : WrittenAt l fs fs') (hfs : fs.WellFormed)
    (hfs' : fs'.WellFormed) (hroot : fs.locate root = .ok R) (hdir : (fs.directoryAt? R).isSome)
    (hp : p ∈ fs'.walk skip root) : p ∈ fs.walk skip root ∨ ∀ l', fs.locate p ≠ .ok l' := by
  have hinput : isStandardInput root = false := by
    by_contra hinput
    rw [walk, if_pos (by simpa using hinput)] at hp
    cases hp
  obtain ⟨more, rfl, hfile, hreached⟩ := (FileSystem.mem_walk hfs' hinput p).mp hp
  obtain ⟨e', hget', hregular'⟩ :=
    (hasFileBelow_iff (h.locate hroot) (h.isSome_root hdir)).mp hfile
  -- a regular file that was there before was listed before
  have hlisted : ∀ e, fs.get? (R ++ more) = some e → e.isRegularFile →
      root.descend more ∈ fs.walk skip root := fun e hget hregular =>
    (FileSystem.mem_walk hfs hinput _).mpr
      ⟨more, rfl, (hasFileBelow_iff hroot hdir).mpr ⟨e, hget, hregular⟩, hreached⟩
  by_cases hplace : R ++ more = l
  · cases hget : fs.get? (R ++ more) with
    | some e =>
      -- a file that was written over is regular if it was
      obtain ⟨contents, hcontents⟩ := h.after
      rw [← hplace, hget] at hcontents
      rw [hget'] at hcontents
      rw [Option.some.inj hcontents,
        isRegularFile_refilled contents (h.before e (hplace ▸ hget))] at hregular'
      exact Or.inl (hlisted e hget hregular')
    | none =>
      right
      intro l' hlocate
      have hnew := locate_descend (h.locate hroot) (hfile.isName hfs') hget'
        (Entry.isLink_of_isRegularFile hregular')
      rw [h.locate hlocate] at hnew
      obtain ⟨e, he, -⟩ := exists_of_locate hlocate
      rw [Except.ok.inj hnew, hget] at he
      cases he
  · have hsurface := h.elsewhere _ hplace
    rw [hget', Option.map_some, eq_comm, Option.map_eq_some_iff] at hsurface
    obtain ⟨e, hget, he⟩ := hsurface
    left
    exact hlisted e hget (by rw [← Entry.isRegularFile_surface, he, Entry.isRegularFile_surface,
      hregular'])

end Walk

end FileSystem

end SourceChunks
