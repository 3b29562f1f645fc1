import SourceChunks.Proofs.Chunk.FileNames
import SourceChunks.Proofs.Chunk.LineSpans
import SourceChunks.Proofs.Extraction
import SourceChunks.Proofs.Scan.Remaining
import SourceChunks.Proofs.Scan.Undisturbed

/-!
# Ids tell units apart

The text that is hashed for an id has four parts with colons between them, and nothing in it is
escaped.  Paths may hold colons, and so may the name of a whole file.  Still the parts can be told
from the text: the names of units hold no colon, the name of a whole file is the base name of its
path, and it ends with an extension, which the name of a unit never does.  One confusion remains.
A unit without a name is written as if its name were `anonymous`, which is also a word, so a unit
with that name and a unit without one have the same text if they are of the same kind and begin on
the same line of one file (`Scanner.key_eq_iff`, `Scanner.key_eq_anonymousRepository`).
-/

namespace SourceChunks

/-- What stands behind the last separator, and what stands before it, can be told from the whole. -/
theorem append_cons_inj_of_not_mem {α : Type} [DecidableEq α] {sep : α} {as as' bs bs' : List α}
    (hbs : sep ∉ bs) (hbs' : sep ∉ bs') (h : as ++ sep :: bs = as' ++ sep :: bs') :
    as = as' ∧ bs = bs' := by
  have hsplit := congrArg (splitAt sep) h
  rw [splitAt_append_cons, splitAt_append_cons, splitAt_eq_singleton hbs,
    splitAt_eq_singleton hbs'] at hsplit
  obtain ⟨hfront, hlast⟩ := List.append_inj' hsplit rfl
  exact ⟨splitAt_injective sep hfront, (List.cons.inj hlast).1⟩

/-! ### The parts of a key -/

namespace ChunkKind

theorem colon_not_mem_name (k : ChunkKind) : ':' ∉ k.name.toList := by
  cases k <;> decide

theorem name_injective : Function.Injective name := by
  intro k k' h
  cases k <;> cases k' <;> first | rfl | (exact absurd h (by decide))

end ChunkKind

namespace ChunkId

/-- Two names that a key does not tell apart: equal ones, and `anonymous` for an absent one. -/
def NamedAlike (a b : Option String) : Prop :=
  a = b ∨ (a = none ∧ b = some anonymous) ∨ (a = some anonymous ∧ b = none)

theorem namedAlike_iff {a b : Option String} :
    NamedAlike a b ↔ a.getD anonymous = b.getD anonymous := by
  cases a with
  | none =>
    cases b with
    | none => simp [NamedAlike]
    | some name => simp [NamedAlike, eq_comm]
  | some name =>
    cases b with
    | none => simp [NamedAlike]
    | some name' => simp [NamedAlike]

/-- The first three parts of a key. -/
def stem (path : List Char) (kind : ChunkKind) (name : List Char) : List Char :=
  path ++ ':' :: (kind.name.toList ++ ':' :: name)

/-- A number is written without colons. -/
theorem colon_not_mem_toString (n : Nat) : ':' ∉ (toString n).toList := by
  intro hmem
  rw [Nat.toString_eq_ofList_toDigits, String.toList_ofList] at hmem
  exact absurd (Nat.isDigit_of_mem_toDigits (by decide) (by decide) hmem) (by decide)

/-- The last part of a key, the line, can be told from it. -/
theorem key_eq_key_iff {path path' : String} {kind kind' : ChunkKind} {name name' : Option String}
    {start start' : Nat} : key path kind name start = key path' kind' name' start' ↔
      stem path.toList kind (name.getD anonymous).toList
        = stem path'.toList kind' (name'.getD anonymous).toList ∧ start = start' := by
  have hkey : ∀ (path : String) (kind : ChunkKind) (name : Option String) (start : Nat),
      (key path kind name start).toList
        = stem path.toList kind (name.getD anonymous).toList ++ ':' :: (toString start).toList := by
    intro path kind name start
    simp [key, stem]
  rw [← String.toList_inj, hkey, hkey]
  constructor
  · intro h
    obtain ⟨hstem, hstart⟩ := append_cons_inj_of_not_mem (colon_not_mem_toString start)
      (colon_not_mem_toString start') h
    refine ⟨hstem, ?_⟩
    -- the digits of a number can be read back
    rw [Nat.toString_eq_ofList_toDigits, Nat.toString_eq_ofList_toDigits, String.toList_ofList,
      String.toList_ofList] at hstart
    have hvalue := congrArg (Nat.ofDigitChars 10 · 0) hstart
    simpa only [Nat.ofDigitChars_ten_toDigits] using hvalue
  · rintro ⟨hstem, rfl⟩
    rw [hstem]

section Stems

variable {path path' name name' : List Char} {kind kind' : ChunkKind}

/-- Names without colons can be told from the parts before them. -/
theorem stem_inj (hname : ':' ∉ name) (hname' : ':' ∉ name')
    (h : stem path kind name = stem path' kind' name') :
    path = path' ∧ kind = kind' ∧ name = name' := by
  have hassoc : ∀ (path : List Char) (kind : ChunkKind) (name : List Char),
      stem path kind name = (path ++ ':' :: kind.name.toList) ++ ':' :: name := by
    intro path kind name
    rw [stem, List.append_assoc, List.cons_append]
  rw [hassoc, hassoc] at h
  obtain ⟨hfront, rfl⟩ := append_cons_inj_of_not_mem hname hname' h
  obtain ⟨rfl, hkind⟩ := append_cons_inj_of_not_mem kind.colon_not_mem_name
    kind'.colon_not_mem_name hfront
  exact ⟨rfl, ChunkKind.name_injective (String.toList_injective hkind), rfl⟩

/-- **A whole file can be told from every other**, colons or not: a longer path would have a longer
base name, and both would have to fit in the same text. -/
theorem path_eq_of_stem_eq (hbase : IsBaseName path name) (hbase' : IsBaseName path' name')
    (h : stem path .moduleFile name = stem path' .moduleFile name')
    (hle : path.length ≤ path'.length) : path = path' := by
  obtain ⟨rest, rfl⟩ : path <+: path' := by
    refine List.prefix_of_prefix_length_le ⟨_, h⟩ ⟨_, rfl⟩ hle
  rw [stem, stem, List.append_assoc, List.append_cancel_left_eq] at h
  have hslash : '/' ∉ rest := by
    intro hmem
    have hmem' : '/' ∈ ':' :: (ChunkKind.moduleFile.name.toList ++ ':' :: name) := by
      rw [h]
      exact List.mem_append_left _ hmem
    rw [List.mem_cons, List.mem_append, List.mem_cons] at hmem'
    rcases hmem' with hcolon | hkind | hcolon | hname
    · exact absurd hcolon (by decide)
    · exact absurd hkind (by decide)
    · exact absurd hcolon (by decide)
    · exact hbase.slash_not_mem hname
  have hname := (hbase.append hslash).unique hbase'
  have hlength := congrArg List.length h
  rw [← hname] at hlength
  simp only [List.length_append, List.length_cons] at hlength
  have hrest : rest = [] := List.eq_nil_of_length_eq_zero (by omega)
  rw [hrest, List.append_nil]

/-- **A whole file can be told from every unit**: its extension does not fit behind the last colon
of a unit's key. -/
theorem stem_ne_of_extension {front ext : List Char} (hfront : name = front ++ '.' :: ext)
    (hext : ':' ∉ ext) (hname' : ∀ c ∈ name', isPlain c = true) :
    stem path kind name ≠ stem path' kind' name' := by
  intro h
  have hwhole : '.' :: ext <:+ stem path kind name := by
    rw [stem, hfront]
    exact ⟨path ++ ':' :: (kind.name.toList ++ ':' :: front), by simp⟩
  have hunit : ':' :: name' <:+ stem path kind name := by
    rw [h, stem]
    exact ⟨path' ++ ':' :: kind'.name.toList, by simp⟩
  rcases List.suffix_or_suffix_of_suffix hwhole hunit with hsub | hsub
  · rcases List.mem_cons.mp (hsub.subset List.mem_cons_self) with heq | hmem
    · exact absurd heq (by decide)
    · exact absurd (hname' _ hmem) (by decide)
  · rcases List.mem_cons.mp (hsub.subset List.mem_cons_self) with heq | hmem
    · exact absurd heq (by decide)
    · exact hext hmem

end Stems

/-- The id that belongs to a key. -/
def ofKey (key : String) : String :=
  String.ofList ((Hex.encodeChars (Sha256.digest (Bytes.encode key))).take length)

/-- An id depends on its parts through their key only. -/
theorem ofParts_eq_ofKey (path : String) (kind : ChunkKind) (name : Option String) (start : Nat) :
    ofParts path kind name start = ofKey (key path kind name start) := rfl

end ChunkId

/-! ### Chunks with their keys -/

namespace Chunk

/-- **The text that is hashed for the id of a chunk.** -/
def key (c : Chunk) : String := ChunkId.key c.filepath c.kind c.name (c.lineStart - 1)

/-- What the name of a chunk can be: that of a unit, with plain characters, or that of a whole file,
the base name of its path with an extension. -/
inductive HasLabel (c : Chunk) : Prop where
  | unit (kind_ne : c.kind ≠ .moduleFile)
      (plain : ∀ ch ∈ (c.name.getD ChunkId.anonymous).toList, isPlain ch = true)
  | whole (name : String) (kind_eq : c.kind = .moduleFile) (name_eq : c.name = some name)
      (base : IsBaseName c.filepath.toList name.toList)
      (extension : name = "" ∨ ∃ front ext, name.toList = front ++ '.' :: ext ∧ ':' ∉ ext)

/-- **A chunk that carries its id.** -/
structure IsLabelled (c : Chunk) : Prop where
  id_eq : c.id = ChunkId.ofKey c.key
  one_le_lineStart : 1 ≤ c.lineStart
  label : c.HasLabel

variable {c d : Chunk}

/-- The key of a chunk without its line. -/
def stem (c : Chunk) : List Char :=
  ChunkId.stem c.filepath.toList c.kind (c.name.getD ChunkId.anonymous).toList

theorem key_eq_key_iff : c.key = d.key ↔ c.stem = d.stem ∧ c.lineStart - 1 = d.lineStart - 1 :=
  ChunkId.key_eq_key_iff

namespace HasLabel

theorem isPlain_of_ne (h : c.HasLabel) (hkind : c.kind ≠ .moduleFile) :
    ∀ ch ∈ (c.name.getD ChunkId.anonymous).toList, isPlain ch = true := by
  cases h with
  | unit _ plain => exact plain
  | whole _ kind_eq => exact absurd kind_eq hkind

theorem colon_not_mem (h : c.HasLabel) (hkind : c.kind ≠ .moduleFile) :
    ':' ∉ (c.name.getD ChunkId.anonymous).toList :=
  fun hmem => absurd (h.isPlain_of_ne hkind ':' hmem) (by decide)

theorem isBaseName (h : c.HasLabel) (hkind : c.kind = .moduleFile) :
    IsBaseName c.filepath.toList (c.name.getD ChunkId.anonymous).toList := by
  cases h with
  | unit kind_ne => exact absurd hkind kind_ne
  | whole name _ name_eq base =>
    rw [name_eq]
    exact base

/-- A whole file and a unit have different keys. -/
theorem stem_ne (hc : c.HasLabel) (hkind : c.kind = .moduleFile) (hd : d.HasLabel)
    (hother : d.kind ≠ .moduleFile) : c.stem ≠ d.stem := by
  intro h
  cases hc with
  | unit kind_ne => exact kind_ne hkind
  | whole name kind_eq name_eq base extension =>
    rw [stem, stem, name_eq, Option.getD_some] at h
    rcases extension with rfl | ⟨front, ext, hname, hext⟩
    · obtain ⟨-, hkinds, -⟩ := ChunkId.stem_inj List.not_mem_nil (hd.colon_not_mem hother) h
      exact hother (by rw [← hkinds, kind_eq])
    · exact ChunkId.stem_ne_of_extension hname hext (hd.isPlain_of_ne hother) h

/-- Two whole files with the same key have the same path, and so the same name. -/
theorem filepath_eq (hc : c.HasLabel) (hd : d.HasLabel) (hkind : c.kind = .moduleFile)
    (hkind' : d.kind = .moduleFile) (h : c.stem = d.stem) :
    c.filepath = d.filepath ∧ c.name.getD ChunkId.anonymous = d.name.getD ChunkId.anonymous := by
  have hbase := hc.isBaseName hkind
  have hbase' := hd.isBaseName hkind'
  have hpath : c.filepath.toList = d.filepath.toList := by
    rw [stem, stem, hkind, hkind'] at h
    rcases Nat.le_total c.filepath.toList.length d.filepath.toList.length with hle | hle
    · exact ChunkId.path_eq_of_stem_eq hbase hbase' h hle
    · exact (ChunkId.path_eq_of_stem_eq hbase' hbase h.symm hle).symm
  rw [hpath] at hbase
  exact ⟨String.toList_injective hpath, String.toList_injective (hbase.unique hbase')⟩

/-- **The parts of a key can be told from it**, up to an absent name. -/
theorem parts_eq (hc : c.HasLabel) (hd : d.HasLabel) (h : c.stem = d.stem) :
    c.filepath = d.filepath ∧ c.kind = d.kind ∧
      c.name.getD ChunkId.anonymous = d.name.getD ChunkId.anonymous := by
  by_cases hkind : c.kind = .moduleFile
  · by_cases hkind' : d.kind = .moduleFile
    · obtain ⟨hpath, hname⟩ := filepath_eq hc hd hkind hkind' h
      exact ⟨hpath, by rw [hkind, hkind'], hname⟩
    · exact absurd h (stem_ne hc hkind hd hkind')
  · by_cases hkind' : d.kind = .moduleFile
    · exact absurd h.symm (stem_ne hd hkind' hc hkind)
    · obtain ⟨hpath, hkinds, hname⟩ :=
        ChunkId.stem_inj (hc.colon_not_mem hkind) (hd.colon_not_mem hkind') h
      exact ⟨String.toList_injective hpath, hkinds, String.toList_injective hname⟩

end HasLabel

/-- **Keys tell chunks apart, but for an absent name.** -/
theorem IsLabelled.keys_agree_iff (hc : c.IsLabelled) (hd : d.IsLabelled) : c.key = d.key ↔
    c.filepath = d.filepath ∧ c.kind = d.kind ∧ c.lineStart = d.lineStart ∧
      ChunkId.NamedAlike c.name d.name := by
  rw [key_eq_key_iff, ChunkId.namedAlike_iff]
  constructor
  · rintro ⟨hstem, hline⟩
    obtain ⟨hpath, hkind, hname⟩ := hc.label.parts_eq hd.label hstem
    have := hc.one_le_lineStart
    have := hd.one_le_lineStart
    exact ⟨hpath, hkind, by omega, hname⟩
  · rintro ⟨hpath, hkind, hline, hname⟩
    rw [stem, stem, hpath, hkind, hline, hname]
    exact ⟨rfl, rfl⟩

end Chunk

/-! ### Chunks of a file -/

/-- A unit of a supported language gives a chunk that carries its id. -/
theorem SourceFile.isLabelled_chunkOf (f : SourceFile) {u : StructuralUnit}
    (hkind : u.kind ≠ .moduleFile)
    (hname : ∀ name, u.name = some name → ∀ c ∈ name.toList, isPlain c = true) :
    (f.chunkOf u).IsLabelled where
  id_eq := ChunkId.ofParts_eq_ofKey ..
  one_le_lineStart := Nat.succ_pos _
  label := by
    refine .unit hkind ?_
    show ∀ c ∈ (u.name.getD ChunkId.anonymous).toList, isPlain c = true
    cases h : u.name with
    | none => exact List.all_eq_true.mp (by decide)
    | some name => exact hname name h

/-- So does a whole file whose path has a supported language. -/
theorem SourceFile.isLabelled_wholeChunk {f : SourceFile} {root p : Path}
    (hlanguage : (Registry.builtin.resolve? p).isSome) (hpath : f.path = Path.relativeTo root p) :
    f.wholeChunk.IsLabelled where
  id_eq := ChunkId.ofParts_eq_ofKey ..
  one_le_lineStart := Nat.le_refl 1
  label := by
    obtain ⟨hbase, hextension⟩ := wholeName_spec hlanguage hpath
    exact .whole f.wholeName rfl rfl hbase hextension

/-- **Every chunk of a file carries its id**, if the path has a supported language. -/
theorem Chunker.isLabelled_of_mem_run {config : ChunkerConfig} {root p : Path} {content : String}
    (hlanguage : (Registry.builtin.resolve? p).isSome) {c : Chunk}
    (hc : c ∈ (run Registry.builtin config (Path.relativeTo root p) content).chunks) :
    c.IsLabelled := by
  unfold run at hc
  dsimp only at hc
  generalize hloaded : Registry.builtin.resolve? (Path.ofString (Path.relativeTo root p)) = loaded?
    at hc
  have hcaptured := Extraction.isCaptured_ofAttempt config loaded? content
  cases hfound : Extraction.ofAttempt (loaded?.map (Extraction.run config · content)) with
  | unmatched =>
    rw [hfound] at hc
    obtain rfl := List.mem_singleton.mp hc
    exact SourceFile.isLabelled_wholeChunk hlanguage rfl
  | matched units =>
    rw [hfound] at hc hcaptured
    obtain ⟨u, hu, rfl⟩ := List.mem_map.mp hc
    obtain ⟨capture, hcapture⟩ := hcaptured u hu
    have hkind : u.kind ≠ .moduleFile := by
      intro hwhole
      rw [hwhole] at hcapture
      exact ChunkKind.ofCapture?_ne_moduleFile capture hcapture
    refine SourceFile.isLabelled_chunkOf _ hkind fun name hname => ?_
    obtain ⟨e, rfl, hrun⟩ := Option.map_eq_some_iff.mp (Extraction.eq_ok_of_ofAttempt hfound)
    exact Extraction.isPlain_of_run (Registry.mem_entries_of_resolve? hloaded) hrun hu hname

theorem FileReport.isLabelled_of_mem_ofPath {fs : FileSystem} {scope : ScanScope} {p : Path}
    {c : Chunk} (hc : c ∈ (ofPath fs scope p).chunks) : c.IsLabelled := by
  obtain ⟨heligible, b, -, hc⟩ := exists_of_mem_ofPath hc
  exact Chunker.isLabelled_of_mem_run (PathFilter.isSome_of_isEligible heligible) hc

/-! ### Chunks of a scan -/

namespace ChunkStream

variable {s : ChunkStream} {fs : FileSystem} {c : Chunk}

/-- What a pull hands out or puts aside was pending, or comes from the paths of the stream. -/
theorem mem_of_next (hc : (s.next fs).chunk? = some c ∨ c ∈ (s.next fs).stream.pending) :
    c ∈ s.pending ∨ ∃ p ∈ s.paths, c ∈ (FileReport.ofPath fs s.scope p).chunks := by
  obtain ⟨d, ds, hpending, hnext⟩ | ⟨-, n, d, ds, log, -, hsupply, hnext⟩ | ⟨-, -, log, hnext⟩ :=
    next_cases fs s
  · rw [hnext] at hc
    rw [hpending]
    rcases hc with hc | hc
    · exact Or.inl (by rw [Option.some.inj hc]; exact List.mem_cons_self)
    · exact Or.inl (List.mem_cons_of_mem d hc)
  · rw [hnext] at hc
    have hmem : c ∈ supply fs s.scope (s.paths.take n) := by
      rw [hsupply]
      rcases hc with hc | hc
      · rw [Option.some.inj hc]
        exact List.mem_cons_self
      · exact List.mem_cons_of_mem d hc
    obtain ⟨p, hp, hc⟩ := List.mem_flatMap.mp hmem
    exact Or.inr ⟨p, List.take_subset n _ hp, hc⟩
  · rw [hnext] at hc
    rcases hc with hc | hc
    · cases hc
    · exact absurd hc List.not_mem_nil

/-- **What a stream hands out** was pending, or comes from its paths at one of the pulls. -/
theorem mem_answersOver {moments : List FileSystem} (hc : some c ∈ s.answersOver moments) :
    c ∈ s.pending ∨
      ∃ fs ∈ moments, ∃ p ∈ s.paths, c ∈ (FileReport.ofPath fs s.scope p).chunks := by
  induction moments generalizing s with
  | nil => exact absurd hc List.not_mem_nil
  | cons fs later ih =>
    have hnow : ∀ {d : Chunk}, (s.next fs).chunk? = some d ∨ d ∈ (s.next fs).stream.pending →
        d ∈ s.pending ∨
          ∃ fs' ∈ fs :: later, ∃ p ∈ s.paths, d ∈ (FileReport.ofPath fs' s.scope p).chunks :=
      fun hd => (mem_of_next hd).imp id fun hpath => ⟨fs, List.mem_cons_self, hpath⟩
    rw [answersOver] at hc
    rcases List.mem_cons.mp hc with hc | hc
    · exact hnow (Or.inl hc.symm)
    · rcases ih hc with hpending | ⟨fs', hfs', p, hp, hchunks⟩
      · exact hnow (Or.inr hpending)
      · rw [scope_next] at hchunks
        refine Or.inr ⟨fs', List.mem_cons_of_mem fs hfs', p, ?_, hchunks⟩
        rw [← looked_append fs s]
        exact List.mem_append_right _ hp

end ChunkStream

namespace Scanner

variable {s : Scanner} {fs : FileSystem} {stream : ChunkStream} {log : List LogLine}
  {moments : List FileSystem}

/-- **Every chunk of a scan carries its id.** -/
theorem isLabelled_of_mem_answersOver (hscan : s.scan fs = .ok (stream, log)) {c : Chunk}
    (hc : some c ∈ stream.answersOver moments) : c.IsLabelled := by
  have hpending : stream.pending = [] := by rw [stream_eq_of_scan hscan]
  rcases ChunkStream.mem_answersOver hc with hmem | ⟨fs', -, p, -, hmem⟩
  · rw [hpending] at hmem
    exact absurd hmem List.not_mem_nil
  · exact FileReport.isLabelled_of_mem_ofPath hmem

/-- **Ids tell units apart, but for an absent name.**  Of any two chunks that one scan hands out,
whatever the repository, the options and the source of the paths, and whatever happens to the files
between the pulls, the ids are hashes of their keys, and the keys are equal exactly if path, kind
and first line are, and the names as well or one of them is `anonymous` and the other absent. -/
theorem key_eq_iff (hscan : s.scan fs = .ok (stream, log)) {c d : Chunk}
    (hc : some c ∈ stream.answersOver moments) (hd : some d ∈ stream.answersOver moments) :
    c.id = ChunkId.ofKey c.key ∧ d.id = ChunkId.ofKey d.key ∧
      (c.key = d.key ↔ c.filepath = d.filepath ∧ c.kind = d.kind ∧ c.lineStart = d.lineStart ∧
        ChunkId.NamedAlike c.name d.name) := by
  have hcl := isLabelled_of_mem_answersOver hscan hc
  have hdl := isLabelled_of_mem_answersOver hscan hd
  exact ⟨hcl.id_eq, hdl.id_eq, hcl.keys_agree_iff hdl⟩

/-- A repository with one file, which declares a function of the name `anonymous` and has a function
without a name on the same line. -/
def anonymousRepository : FileSystem where
  top := .cons (Bytes.encode "repo") (.directory
    (.cons (Bytes.encode "a.js")
      (.file (Bytes.encode "function anonymous() \x7b\x7d const f = () => 1;\n")) .nil)) .nil

/-- Options for a walk through the repository. -/
def anonymousOptions : ScanOptions := { root := Path.ofString "repo", useTracked := false }

/-- Two pulls from the repository give the function `anonymous` and the one without a name. -/
theorem answers_anonymousRepository : ∃ s stream log c d,
    ofOptions anonymousRepository anonymousOptions = .ok s ∧
    s.scan anonymousRepository = .ok (stream, log) ∧
    some c ∈ stream.answersOver [anonymousRepository, anonymousRepository] ∧
    some d ∈ stream.answersOver [anonymousRepository, anonymousRepository] ∧
    c.name = some "anonymous" ∧ d.name = none ∧ c.key = d.key := by
  obtain ⟨s, stream, log, haccepted, hscan, hpulls⟩ : ∃ s stream log,
      ofOptions anonymousRepository anonymousOptions = .ok s ∧
      s.scan anonymousRepository = .ok (stream, log) ∧
      (stream.answersOver [anonymousRepository, anonymousRepository]).map
        (·.map fun c => (c.name, c.key)) =
          [some (some "anonymous", "a.js:function:anonymous:0"),
            some (none, "a.js:function:anonymous:0")] :=
    ⟨_, _, _, rfl, rfl, by decide +kernel⟩
  have hpull : ∀ pair, some pair ∈ [some (some "anonymous", "a.js:function:anonymous:0"),
      some ((none : Option String), "a.js:function:anonymous:0")] →
      ∃ c, some c ∈ stream.answersOver [anonymousRepository, anonymousRepository] ∧
        (c.name, c.key) = pair := by
    intro pair hpair
    rw [← hpulls] at hpair
    obtain ⟨answer, hmem, hanswer⟩ := List.mem_map.mp hpair
    obtain ⟨c, rfl, hc⟩ := Option.map_eq_some_iff.mp hanswer
    exact ⟨c, hmem, hc⟩
  obtain ⟨c, hc, hcpair⟩ := hpull _ List.mem_cons_self
  obtain ⟨d, hd, hdpair⟩ := hpull _ (List.mem_cons_of_mem _ List.mem_cons_self)
  obtain ⟨hcname, hckey⟩ := Prod.mk.inj hcpair
  obtain ⟨hdname, hdkey⟩ := Prod.mk.inj hdpair
  exact ⟨s, stream, log, c, d, haccepted, hscan, hc, hd, hcname, hdname, by rw [hckey, hdkey]⟩

/-- Two chunks of one scan, one with a name and one without, have the same key and the same id. -/
theorem key_eq_anonymousRepository : ∃ s stream log c d,
    ofOptions anonymousRepository anonymousOptions = .ok s ∧
    s.scan anonymousRepository = .ok (stream, log) ∧
    some c ∈ stream.answersOver [anonymousRepository, anonymousRepository] ∧
    some d ∈ stream.answersOver [anonymousRepository, anonymousRepository] ∧
    c.name ≠ d.name ∧ c.key = d.key ∧ c.id = d.id := by
  obtain ⟨s, stream, log, c, d, haccepted, hscan, hc, hd, hcname, hdname, hkey⟩ :=
    answers_anonymousRepository
  refine ⟨s, stream, log, c, d, haccepted, hscan, hc, hd, by simp [hcname, hdname], hkey, ?_⟩
  rw [(isLabelled_of_mem_answersOver hscan hc).id_eq, hkey,
    (isLabelled_of_mem_answersOver hscan hd).id_eq]

/-- The two chunks agree in all parts of their keys but the name. -/
theorem key_eq_iff_anonymousRepository : ∃ s stream log c d,
    ofOptions anonymousRepository anonymousOptions = .ok s ∧
    s.scan anonymousRepository = .ok (stream, log) ∧
    some c ∈ stream.answersOver [anonymousRepository, anonymousRepository] ∧
    some d ∈ stream.answersOver [anonymousRepository, anonymousRepository] ∧
    c.name = some "anonymous" ∧ d.name = none ∧ c.filepath = d.filepath ∧ c.kind = d.kind ∧
    c.lineStart = d.lineStart := by
  obtain ⟨s, stream, log, c, d, haccepted, hscan, hc, hd, hcname, hdname, hkey⟩ :=
    answers_anonymousRepository
  obtain ⟨hpath, hkind, hline, -⟩ := (key_eq_iff hscan hc hd).2.2.mp hkey
  exact ⟨s, stream, log, c, d, haccepted, hscan, hc, hd, hcname, hdname, hpath, hkind, hline⟩

end Scanner

end SourceChunks
