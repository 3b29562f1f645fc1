import SourceChunks.SourceFile
import SourceChunks.Proofs.Path
import SourceChunks.Proofs.Registry
import SourceChunks.Proofs.Text.Decoding
import SourceChunks.Proofs.Text.Lowercase
import SourceChunks.Proofs.Language.Names

/-!
# Names of whole files

A whole file is named after the path that its chunk carries.  That path is text, put together from
decoded names; it is read as a path again, and its last name is taken.  For a path with a supported
language nothing is lost on the way: the name is what stands behind the last slash of the text
(`IsBaseName`), and it ends with a full stop and an extension without colons
(`SourceFile.wholeName_spec`).
-/

namespace SourceChunks

/-- **The base name of a path**: all of it, or what stands behind its last slash. -/
structure IsBaseName (path name : List Char) : Prop where
  slash_not_mem : '/' ∉ name
  ends : path = name ∨ '/' :: name <:+ path

namespace IsBaseName

variable {path name name' rest : List Char}

/-- A path has one base name. -/
theorem unique (h : IsBaseName path name) (h' : IsBaseName path name') : name = name' := by
  -- a slash before a base name is the last one, so it lies in no other base name
  have hinside : ∀ {a b : List Char}, '/' ∉ b → '/' :: a <:+ '/' :: b → a = b := by
    intro a b hb hab
    rcases List.suffix_cons_iff.mp hab with heq | hab
    · exact (List.cons.inj heq).2
    · exact absurd (hab.subset List.mem_cons_self) hb
  rcases h.ends with heq | hends
  · rcases h'.ends with heq' | hends'
    · rw [← heq, heq']
    · rw [heq] at hends'
      exact absurd (hends'.subset List.mem_cons_self) h.slash_not_mem
  · rcases h'.ends with heq' | hends'
    · rw [heq'] at hends
      exact absurd (hends.subset List.mem_cons_self) h'.slash_not_mem
    · rcases List.suffix_or_suffix_of_suffix hends hends' with hsub | hsub
      · exact hinside h'.slash_not_mem hsub
      · exact (hinside h.slash_not_mem hsub).symm

/-- What is added to a path without a slash is added to its base name. -/
theorem append (h : IsBaseName path name) (hrest : '/' ∉ rest) :
    IsBaseName (path ++ rest) (name ++ rest) where
  slash_not_mem := by
    rw [List.mem_append, not_or]
    exact ⟨h.slash_not_mem, hrest⟩
  ends := by
    rcases h.ends with heq | ⟨front, hfront⟩
    · exact Or.inl (by rw [heq])
    · refine Or.inr ⟨front, ?_⟩
      rw [← hfront, List.append_assoc, List.cons_append]

/-- **The base name is the last of the parts between slashes.** -/
theorem getLast?_splitAt (h : IsBaseName path name) : (splitAt '/' path).getLast? = some name := by
  rcases h.ends with heq | ⟨front, hfront⟩
  · rw [heq, splitAt_eq_singleton h.slash_not_mem]
    rfl
  · rw [← hfront, splitAt_append_cons, splitAt_eq_singleton h.slash_not_mem, List.getLast?_concat]

end IsBaseName

/-! ### Paths that spell a text -/

namespace Path

theorem isName_encodeChars {cs : List Char} (hslash : '/' ∉ cs) (hnil : cs ≠ [])
    (hdot : cs ≠ ['.']) (hdots : cs ≠ ['.', '.']) : IsName (Bytes.encodeChars cs) := by
  have hback : ∀ {b : Bytes}, Bytes.encodeChars cs = b → cs = Bytes.decodeChars b := by
    rintro b rfl
    rw [Bytes.decodeChars_encodeChars]
  refine ⟨fun h => hnil ?_, fun h => hdot ?_, fun h => hdots ?_,
    Bytes.not_mem_encodeChars (show Bytes.IsAscii slash by decide) hslash⟩
  · rw [hback h, Bytes.decodeChars_nil]
  · rw [hback h]
    decide
  · rw [hback h]
    decide

/-- **A name that is decoded is no less a name.**  What is no text becomes U+FFFD, so nothing turns
into a slash or a full stop. -/
theorem IsName.decodeChars {n : Bytes} (h : IsName n) :
    Bytes.decodeChars n ≠ [] ∧ Bytes.decodeChars n ≠ ['.'] ∧ Bytes.decodeChars n ≠ ['.', '.'] ∧
      '/' ∉ Bytes.decodeChars n := by
  obtain ⟨hnil, hdot, hdots, hslash⟩ := h
  have hfirst : ∀ {b : Bytes} {cs : List Char}, Bytes.decodeChars b = '.' :: cs →
      ∃ r, b = dot :: r ∧ Bytes.decodeChars r = cs :=
    Bytes.exists_of_decodeChars_eq_cons (show Bytes.IsAscii dot by decide)
  refine ⟨Bytes.decodeChars_eq_nil_iff.not.mpr hnil, ?_, ?_,
    Bytes.not_mem_decodeChars (show Bytes.IsAscii slash by decide) hslash⟩
  · intro heq
    obtain ⟨r, rfl, hr⟩ := hfirst heq
    exact hdot (by rw [Bytes.decodeChars_eq_nil_iff.mp hr])
  · intro heq
    obtain ⟨r, rfl, hr⟩ := hfirst heq
    obtain ⟨r', rfl, hr'⟩ := hfirst hr
    exact hdots (by rw [Bytes.decodeChars_eq_nil_iff.mp hr'])

/-- The name that a decoded name spells. -/
theorem IsName.encodeChars_decodeChars {n : Bytes} (h : IsName n) :
    IsName (Bytes.encodeChars (Bytes.decodeChars n)) :=
  isName_encodeChars h.decodeChars.2.2.2 h.decodeChars.1 h.decodeChars.2.1 h.decodeChars.2.2.1

/-- **A path that ends with a name has that file name.** -/
theorem fileName?_of_ends {bytes n : Bytes} (hn : IsName n)
    (h : bytes = n ∨ slash :: n <:+ bytes) : (⟨bytes⟩ : Path).fileName? = some n := by
  suffices hcomponents : ∃ front : List Component,
      (⟨bytes⟩ : Path).components = front ++ [.name n] by
    obtain ⟨front, hcomponents⟩ := hcomponents
    rw [fileName?, hcomponents, List.getLast?_concat]
  rcases h with rfl | ⟨front, rfl⟩
  · refine ⟨(⟨[]⟩ : Path).components, ?_⟩
    have hjoin := components_join ⟨[]⟩ hn
    rwa [join, isAbsolute_of_isName hn, if_neg Bool.false_ne_true, if_pos (Or.inl rfl)] at hjoin
  · exact ⟨_, components_append_name hn⟩

/-- **A text that ends with a name is a path with that file name.** -/
theorem fileName?_ofString {s : String} {name : List Char} (h : IsBaseName s.toList name)
    (hname : IsName (Bytes.encodeChars name)) :
    (ofString s).fileName? = some (Bytes.encodeChars name) := by
  apply fileName?_of_ends hname
  rw [Bytes.encode]
  rcases h.ends with heq | ⟨front, hfront⟩
  · exact Or.inl (by rw [heq])
  · refine Or.inr ⟨Bytes.encodeChars front, ?_⟩
    show _ = s.toList.flatMap String.utf8EncodeChar
    rw [← hfront, List.flatMap_append, List.flatMap_cons]
    rfl

/-! ### The text of a path below a root -/

theorem dropComponents?_eq_some_iff {ds cs rest : List Component} :
    dropComponents? ds cs = some rest ↔ cs = ds ++ rest := by
  constructor
  · intro h
    fun_induction dropComponents? ds cs with
    | case1 cs => exact Option.some.inj h
    | case2 => cases h
    | case3 d ds cs ih => rw [ih h, List.cons_append]
    | case4 => cases h
  · rintro rfl
    exact dropComponents?_append ds rest

theorem below_suffix (root p : Path) : below root p <:+ p.components := by
  rw [below]
  cases h : dropComponents? root.components p.components with
  | none => exact List.suffix_refl _
  | some rest => exact ⟨root.components, (dropComponents?_eq_some_iff.mp h).symm⟩

theorem getLast?_of_fileName? {p : Path} {n : Bytes} (h : p.fileName? = some n) :
    p.components.getLast? = some (.name n) := by
  unfold fileName? at h
  split at h
  · rename_i m hm
    rw [hm, Option.some.inj h]
  · cases h

theorem isName_of_fileName? {p : Path} {n : Bytes} (h : p.fileName? = some n) : IsName n :=
  isName_of_mem_names (List.mem_filterMap.mpr
    ⟨.name n, List.mem_of_getLast? (getLast?_of_fileName? h), rfl⟩)

/-- Below a root lies nothing, or something that ends with the file name. -/
theorem below_cases (root : Path) {p : Path} {n : Bytes} (h : p.fileName? = some n) :
    below root p = [] ∨ ∃ front, below root p = front ++ [.name n] := by
  have hlast := getLast?_of_fileName? h
  rcases List.eq_nil_or_concat (below root p) with hnil | ⟨front, last, hconcat⟩
  · exact Or.inl hnil
  · right
    obtain ⟨before, hbefore⟩ := below_suffix root p
    rw [← hbefore, hconcat, List.concat_eq_append, ← List.append_assoc,
      List.getLast?_concat] at hlast
    exact ⟨front, by rw [hconcat, List.concat_eq_append, Option.some.inj hlast]⟩

/-- Nothing lies below a root only of a path that means the root itself. -/
theorem components_eq_of_below {root p : Path} {n : Bytes} (h : p.fileName? = some n)
    (hbelow : below root p = []) : p.components = root.components := by
  have hne : p.components ≠ [] :=
    List.ne_nil_of_mem (List.mem_of_getLast? (getLast?_of_fileName? h))
  unfold below at hbelow
  cases hdrop : dropComponents? root.components p.components with
  | none =>
    rw [hdrop] at hbelow
    exact absurd hbelow hne
  | some rest =>
    rw [hdrop] at hbelow
    obtain rfl : rest = [] := hbelow
    rw [dropComponents?_eq_some_iff.mp hdrop, List.append_nil]

/-- Texts with slashes between them end with the last text. -/
theorem intercalate_ends (front : List (List Char)) (last : List Char) :
    ['/'].intercalate (front ++ [last]) = last ∨
      '/' :: last <:+ ['/'].intercalate (front ++ [last]) := by
  induction front with
  | nil => exact Or.inl List.intercalate_singleton
  | cons first rest ih =>
    right
    rw [List.cons_append, List.intercalate_cons_of_ne_nil (by simp), List.append_assoc,
      List.singleton_append]
    rcases ih with heq | hends
    · rw [heq]
      exact List.suffix_append _ _
    · exact hends.trans ((List.suffix_cons _ _).trans (List.suffix_append _ _))

/-- **The text of a path below a root ends with the decoded file name.** -/
theorem isBaseName_relativeTo {root p : Path} {n : Bytes} (h : p.fileName? = some n)
    (hbelow : below root p ≠ []) :
    IsBaseName (relativeTo root p).toList (Bytes.decodeChars n) := by
  obtain ⟨front, hfront⟩ := (below_cases root h).resolve_left hbelow
  have hnames : names (below root p) = names front ++ [n] := by
    rw [hfront, names, List.filterMap_append]
    rfl
  have hends := intercalate_ends ((names front).map Bytes.decodeChars) (Bytes.decodeChars n)
  refine ⟨(isName_of_fileName? h).decodeChars.2.2.2, ?_⟩
  rw [relativeTo, hnames, String.toList_intercalate, List.map_map, List.map_append,
    Bytes.toList_comp_decode]
  exact hends

/-- **The extension of a name** stands behind its last full stop, if anything stands before it. -/
theorem extensionOf?_append {ext : Bytes} (hext : dot ∉ ext) (stem : Bytes) :
    extensionOf? (stem ++ dot :: ext) = if stem = [] then none else some ext := by
  have hcount := length_splitAt dot stem
  unfold extensionOf?
  rw [splitAt_append_cons, splitAt_eq_singleton hext, List.reverse_append, List.reverse_singleton,
    List.singleton_append]
  by_cases hstem : dot ∈ stem
  · -- at least two pieces come before the last one
    have hne : stem ≠ [] := List.ne_nil_of_mem hstem
    have hpos := List.count_pos_iff.mpr hstem
    rw [if_neg hne]
    rcases hpieces : (splitAt dot stem).reverse with _ | ⟨x, _ | ⟨y, rest⟩⟩
    · rw [← List.length_reverse, hpieces, List.length_nil] at hcount
      omega
    · rw [← List.length_reverse, hpieces, List.length_singleton] at hcount
      omega
    · rfl
  · rw [splitAt_eq_singleton hstem]
    rfl

/-- What comes before an extension: some bytes, at least one, and a full stop. -/
theorem exists_of_extensionOf? {n ext : Bytes} (h : extensionOf? n = some ext) :
    ∃ stem, stem ≠ [] ∧ dot ∉ ext ∧ n = stem ++ dot :: ext := by
  have hdot : dot ∈ n := by
    by_contra hdot
    rw [extensionOf?, splitAt_eq_singleton hdot] at h
    cases h
  obtain ⟨stem, last, rfl, hlast⟩ := exists_last_of_mem hdot
  rw [extensionOf?_append hlast] at h
  split_ifs at h with hnil
  obtain rfl := Option.some.inj h
  exact ⟨stem, hnil, hlast, rfl⟩

/-- **A name without extension** has no full stop, or one in front and no other. -/
theorem extensionOf?_eq_none_iff {n : Bytes} :
    extensionOf? n = none ↔ dot ∉ n ∨ ∃ rest, n = dot :: rest ∧ dot ∉ rest := by
  constructor
  · intro h
    by_cases hdot : dot ∈ n
    · obtain ⟨stem, last, rfl, hlast⟩ := exists_last_of_mem hdot
      rw [extensionOf?_append hlast] at h
      split_ifs at h with hstem
      exact Or.inr ⟨last, by rw [hstem, List.nil_append], hlast⟩
    · exact Or.inl hdot
  · rintro (hdot | ⟨rest, rfl, hrest⟩)
    · rw [extensionOf?, splitAt_eq_singleton hdot]
      rfl
    · rw [← List.nil_append (dot :: rest), extensionOf?_append hrest, if_pos rfl]

/-- **The extension of a path** stands behind the last full stop of its file name, if anything
stands before it there. -/
theorem extension?_eq_some_iff {p : Path} {ext : Bytes} : p.extension? = some ext ↔
    ∃ stem, stem ≠ [] ∧ dot ∉ ext ∧ p.fileName? = some (stem ++ dot :: ext) := by
  constructor
  · intro h
    obtain ⟨n, hn, hof⟩ := Option.bind_eq_some_iff.mp h
    obtain ⟨stem, hstem, hdot, rfl⟩ := exists_of_extensionOf? hof
    exact ⟨stem, hstem, hdot, hn⟩
  · rintro ⟨stem, hstem, hdot, hn⟩
    rw [extension?, hn, Option.bind_some, extensionOf?_append hdot, if_neg hstem]

theorem extension?_eq_none_iff {p : Path} : p.extension? = none ↔
    ∀ n, p.fileName? = some n → dot ∉ n ∨ ∃ rest, n = dot :: rest ∧ dot ∉ rest := by
  simp only [extension?, Option.bind_eq_none_iff, extensionOf?_eq_none_iff]

end Path

/-! ### Supported extensions -/

namespace Registry

theorem isPlain_table : ∀ row ∈ table, ∀ ext ∈ row.extensions, ext.toList.all isPlain = true := by
  decide +kernel

/-- A text is made of plain characters if its lower-case form is. -/
theorem isPlain_of_lowercase {s : String} (h : (Lowercase.ofString s).toList.all isPlain = true) :
    ∀ c ∈ s.toList, isPlain c = true := by
  intro c hc
  by_contra hplain
  have hcases : c = ':' ∨ c = '.' := by
    by_contra hother
    rw [not_or] at hother
    exact hplain (by simp [isPlain, hother.1, hother.2])
  -- neither of the two marks has another lower-case form
  have hlower : c ∈ Lowercase.ofChar c := by
    rcases hcases with rfl | rfl <;> decide
  have hne : c ≠ 'Σ' := by
    rcases hcases with rfl | rfl <;> decide
  rw [List.all_eq_true] at h
  exact hplain (h c (Lowercase.mem_ofString hc hne hlower))

/-- **A path with a language ends with an extension of plain characters.** -/
theorem exists_extension {p : Path} (h : (builtin.resolve? p).isSome) :
    ∃ stem ext, p.fileName? = some (stem ++ Path.dot :: ext) ∧
      ∀ c ∈ Bytes.decodeChars ext, isPlain c = true := by
  rw [isSome_resolve?_builtin, Option.any_eq_true] at h
  obtain ⟨low, hlow, htable⟩ := h
  obtain ⟨text, hext, rfl⟩ := lowerExtension?_eq_some_iff.mp hlow
  obtain ⟨stem, -, -, hn⟩ := Path.extension?_eq_some_iff.mp hext
  obtain ⟨row, hrow, hcontains⟩ := List.any_eq_true.mp htable
  have hplain := isPlain_table row hrow _ (List.contains_iff_mem.mp hcontains)
  refine ⟨stem, Bytes.encode text, hn, ?_⟩
  rw [Bytes.encode, Bytes.decodeChars_encodeChars]
  exact isPlain_of_lowercase hplain

end Registry

/-! ### Whole files -/

/-- **The name of a whole file** of a supported language is the base name of the path that its chunk
carries, and ends with a full stop and an extension without colons.  (A path that is the root
itself has no name.) -/
theorem SourceFile.wholeName_spec {f : SourceFile} {root p : Path}
    (hlanguage : (Registry.builtin.resolve? p).isSome) (hpath : f.path = Path.relativeTo root p) :
    IsBaseName f.path.toList f.wholeName.toList ∧
      (f.wholeName = "" ∨ ∃ stem ext, f.wholeName.toList = stem ++ '.' :: ext ∧ ':' ∉ ext) := by
  obtain ⟨stem, ext, hn, hplain⟩ := Registry.exists_extension hlanguage
  have hname := Path.isName_of_fileName? hn
  have hdecode : Bytes.decodeChars (stem ++ Path.dot :: ext)
      = Bytes.decodeChars stem ++ '.' :: Bytes.decodeChars ext :=
    Bytes.decodeChars_append_cons (show Bytes.IsAscii Path.dot by decide) stem ext
  by_cases hbelow : Path.below root p = []
  · have hempty : Path.relativeTo root p = "" := by
      rw [Path.relativeTo, hbelow]
      rfl
    have hwhole : f.wholeName = "" := by
      rw [wholeName, hpath, hempty]
      rfl
    rw [hwhole, hpath, hempty]
    exact ⟨⟨List.not_mem_nil, Or.inl rfl⟩, Or.inl rfl⟩
  · have hbase := Path.isBaseName_relativeTo hn hbelow
    rw [← hpath] at hbase
    have hwhole : f.wholeName.toList = Bytes.decodeChars (stem ++ Path.dot :: ext) := by
      rw [wholeName, Path.fileName?_ofString hbase hname.encodeChars_decodeChars, Option.map_some,
        Option.getD_some, Bytes.decode, String.toList_ofList, Bytes.decodeChars_encodeChars]
    rw [hwhole]
    refine ⟨hbase, Or.inr ⟨_, _, hdecode, fun hcolon => ?_⟩⟩
    exact absurd (hplain ':' hcolon) (by decide)

end SourceChunks
