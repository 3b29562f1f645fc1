import SourceChunks.Proofs.Chunk.FileNames

/-!
# The language of a path

A path has the language of its extension, and its extension is that of its last component.  So
directories in front of a path and slashes behind it change nothing
(`Path.fileName?_append_slash_cons`, `Path.fileName?_append_slashes`), nor does the case of the
letters of the extension, as far as they are in ASCII (`Registry.resolve?_of_toLower`).  The
language is that of the first row that lists the extension in lower case
(`Registry.resolve?_eq_some_iff`).
-/

namespace SourceChunks

/-! ### The last component -/

namespace Path

section FileNames

variable {p : Path}

theorem bytes_ne_nil_of_fileName? (h : p.fileName?.isSome) : p.bytes ≠ [] := by
  intro hnil
  obtain rfl : p = ⟨[]⟩ := by rw [← hnil]
  exact absurd h (by decide)

theorem fileName?_of_components {q : Path} (h : q.components = p.components) :
    q.fileName? = p.fileName? := by
  rw [fileName?, fileName?, h]

/-- What stands before the first slash means a name, or no name as the beginning of a
path either. -/
theorem getLast?_leading {absolute : Bool} {first n : Bytes}
    (h : (leading absolute first).getLast? = some (.name n)) :
    component? first = some (.name n) := by
  unfold leading at h
  split_ifs at h
  · cases h
  · cases h
  · cases hfirst : component? first with
    | none =>
      rw [hfirst] at h
      cases h
    | some c =>
      rw [hfirst] at h
      exact h

/-- **A directory in front of a path does not change its file name.** -/
theorem fileName?_append_slash_cons (d : Bytes) (h : p.fileName?.isSome) :
    (⟨d ++ slash :: p.bytes⟩ : Path).fileName? = p.fileName? := by
  obtain ⟨n, hn⟩ := Option.isSome_iff_exists.mp h
  obtain ⟨first, rest, hsplit⟩ := List.exists_cons_of_ne_nil (splitAt_ne_nil slash p.bytes)
  have hlast := getLast?_of_fileName? hn
  rw [components_eq hsplit] at hlast
  -- the segments of the path mean the same behind the directory, and the last one means a name
  have hsegments : ((splitAt slash p.bytes).filterMap component?).getLast? = some (.name n) := by
    rw [hsplit]
    by_cases hrest : rest.filterMap component? = []
    · rw [hrest, List.append_nil] at hlast
      rw [List.filterMap_cons_some (getLast?_leading hlast), hrest]
      rfl
    · rw [List.getLast?_append_of_ne_nil _ hrest] at hlast
      rw [← List.singleton_append, List.filterMap_append, List.getLast?_append_of_ne_nil _ hrest,
        hlast]
  have hne : (splitAt slash p.bytes).filterMap component? ≠ [] :=
    List.ne_nil_of_mem (List.mem_of_getLast? hsegments)
  rw [hn, fileName?, components_append_slash_cons, List.getLast?_append_of_ne_nil _ hne, hsegments]

/-- **Joining a path to a directory keeps its file name.** -/
theorem fileName?_join (d : Path) (h : p.fileName?.isSome) :
    (d.join p).fileName? = p.fileName? := by
  by_cases habsolute : p.isAbsolute = true
  · rw [join, if_pos habsolute]
  · by_cases hnil : d.bytes = []
    · rw [join, if_neg habsolute, if_pos (Or.inl hnil), hnil, List.nil_append]
    · have hbytes : d.join p = ⟨d.stem ++ slash :: p.bytes⟩ := by
        rw [← bytes_join hnil (eq_false_of_ne_true habsolute)]
      rw [hbytes, fileName?_append_slash_cons _ h]

/-- **Slashes behind a path say nothing**, by induction on their number. -/
theorem components_append_slashes {bytes : Bytes} (h : bytes ≠ []) (k : Nat) :
    (⟨bytes ++ List.replicate k slash⟩ : Path).components = (⟨bytes⟩ : Path).components := by
  induction k with
  | zero => rw [List.replicate_zero, List.append_nil]
  | succ k ih =>
    rw [List.replicate_succ', ← List.append_assoc, components_append_slash (by simp [h]), ih]

/-- **A full stop behind a last slash says nothing.** -/
theorem components_append_here {bytes : Bytes} (h : bytes ≠ []) :
    (⟨bytes ++ [slash, dot]⟩ : Path).components = (⟨bytes⟩ : Path).components := by
  have hdot : (splitAt slash [dot]).filterMap component? = [] := by decide
  rw [components_append_slash_cons, hdot, List.append_nil, components_append_slash h]

end FileNames

/-! ### Extensions -/

section Extensions

variable {ext : Bytes}

/-- **What follows the last full stop of a path is its extension**, unless nothing stands before the
full stop, in front of the path or behind a slash. -/
theorem extension?_append (hne : ext ≠ []) (hslash : slash ∉ ext) (hdot : dot ∉ ext)
    (stem : Bytes) : (⟨stem ++ dot :: ext⟩ : Path).extension?
      = if stem = [] ∨ stem.getLast? = some slash then none else some ext := by
  -- a name that ends with such an extension is neither `.` nor `..`
  have hname : ∀ base, slash ∉ base → IsName (base ++ dot :: ext) := by
    intro base hbase
    refine ⟨by simp, fun h => ?_, fun h => ?_, ?_⟩
    · have hlength := congrArg List.length h
      rw [List.length_append, List.length_cons, List.length_singleton] at hlength
      exact hne (List.eq_nil_of_length_eq_zero (by omega))
    · have hlast := congrArg List.getLast? h
      rw [List.getLast?_append_of_ne_nil _ (List.cons_ne_nil _ _),
        List.getLast?_cons_of_ne_nil hne] at hlast
      exact hdot (List.mem_of_getLast? hlast)
    · rw [List.mem_append, List.mem_cons, not_or, not_or]
      exact ⟨hbase, by decide, hslash⟩
  by_cases hmem : slash ∈ stem
  · obtain ⟨front, base, rfl, hbase⟩ := exists_last_of_mem hmem
    have hends : slash :: (base ++ dot :: ext) <:+ (front ++ slash :: base) ++ dot :: ext :=
      ⟨front, by simp⟩
    rw [extension?, fileName?_of_ends (hname base hbase) (Or.inr hends), Option.bind_some,
      extensionOf?_append hdot]
    have hbare : (front ++ slash :: base = [] ∨ (front ++ slash :: base).getLast? = some slash) ↔
        base = [] := by
      rw [or_iff_right (by simp), List.getLast?_append_of_ne_nil _ (List.cons_ne_nil _ _)]
      constructor
      · intro hlast
        by_contra hnil
        rw [List.getLast?_cons_of_ne_nil hnil] at hlast
        exact hbase (List.mem_of_getLast? hlast)
      · rintro rfl
        rfl
    simp only [hbare]
  · rw [extension?, fileName?_of_ends (hname stem hmem) (Or.inl rfl), Option.bind_some,
      extensionOf?_append hdot]
    have hbare : (stem = [] ∨ stem.getLast? = some slash) ↔ stem = [] :=
      or_iff_left fun hlast => hmem (List.mem_of_getLast? hlast)
    simp only [hbare]

end Extensions

end Path

/-! ### Rows -/

namespace Registry

/-- **A registry that lists its extensions in lower case.** -/
def IsLowerCase (r : Registry) : Prop :=
  ∀ e ∈ r.entries, ∀ ext ∈ e.row.extensions, Lowercase.ofString ext = ext

instance (r : Registry) : Decidable r.IsLowerCase :=
  inferInstanceAs
    (Decidable (∀ e ∈ r.entries, ∀ ext ∈ e.row.extensions, Lowercase.ofString ext = ext))

section Rows

variable {r : Registry} {p : Path} {e : Entry}

/-- **The language is that of the first row that lists the extension in lower case.** -/
theorem resolve?_eq_some_iff : r.resolve? p = some e ↔
    ∃ ext before after, p.extension? = some (Bytes.encode ext) ∧ r.entries = before ++ e :: after ∧
      Lowercase.ofString ext ∈ e.row.extensions ∧
      ∀ e' ∈ before, Lowercase.ofString ext ∉ e'.row.extensions := by
  rw [resolve?, Option.bind_eq_some_iff]
  simp only [lowerExtension?_eq_some_iff, List.find?_eq_some_iff_append, List.contains_eq_mem,
    decide_eq_true_eq, Bool.not_eq_true', decide_eq_false_iff_not]
  constructor
  · rintro ⟨low, ⟨ext, hext, rfl⟩, hlists, before, after, hentries, hbefore⟩
    exact ⟨ext, before, after, hext, hentries, hlists, hbefore⟩
  · rintro ⟨ext, before, after, hext, hentries, hlists, hbefore⟩
    exact ⟨_, ⟨ext, hext, rfl⟩, hlists, before, after, hentries, hbefore⟩

/-- **There is no language** if there is no extension, or if no row lists it; no row
lists one that is no text. -/
theorem resolve?_eq_none_iff : r.resolve? p = none ↔
    p.extension? = none ∨ ∃ b, p.extension? = some b ∧
      ∀ ext, b = Bytes.encode ext → ∀ e ∈ r.entries, Lowercase.ofString ext ∉ e.row.extensions := by
  constructor
  · intro h
    cases hext : p.extension? with
    | none => exact Or.inl rfl
    | some b =>
      refine Or.inr ⟨b, rfl, ?_⟩
      rintro ext rfl e he hlists
      have hfind :=
        Option.bind_eq_none_iff.mp h _ (lowerExtension?_eq_some_iff.mpr ⟨ext, hext, rfl⟩)
      exact List.find?_eq_none.mp hfind e he (List.contains_iff_mem.mpr hlists)
  · intro h
    by_contra hsome
    obtain ⟨e, he⟩ := Option.ne_none_iff_exists'.mp hsome
    obtain ⟨ext, before, after, hext, hentries, hlists, -⟩ := resolve?_eq_some_iff.mp he
    rw [hext] at h
    rcases h with hnone | ⟨b, hb, hunlisted⟩
    · cases hnone
    · refine hunlisted ext (Option.some.inj hb).symm e ?_ hlists
      rw [hentries]
      exact List.mem_append_right _ List.mem_cons_self

/-- The extension of a path that is written with one, in lower case. -/
theorem lowerExtension?_append {ext : String} (hne : ext ≠ "") (hslash : '/' ∉ ext.toList)
    (hdot : '.' ∉ ext.toList) (stem : Bytes) :
    lowerExtension? ⟨stem ++ Path.dot :: Bytes.encode ext⟩
      = if stem = [] ∨ stem.getLast? = some Path.slash then none
        else some (Lowercase.ofString ext) := by
  have hbytes : Bytes.encode ext ≠ [] := by
    rwa [Bytes.encode, ne_eq, Bytes.encodeChars_eq_nil_iff, String.toList_eq_nil_iff]
  rw [lowerExtension?, Path.extension?_append hbytes
    (Bytes.not_mem_encodeChars (show Bytes.IsAscii Path.slash by decide) hslash)
    (Bytes.not_mem_encodeChars (show Bytes.IsAscii Path.dot by decide) hdot)]
  split_ifs
  · rfl
  · rw [Option.bind_some, Bytes.decode?_eq_some_iff.mpr rfl, Option.map_some]

/-- **The case of letters in ASCII does not matter** in an extension, whatever stands before it. -/
theorem resolve?_of_toLower (r : Registry) (stem : Bytes) {ext ext' : String}
    (hext : ∀ c ∈ ext.toList, Lowercase.IsAscii c ∧ c ≠ '/' ∧ c ≠ '.')
    (hsame : ext'.toList.map Char.toLower = ext.toList.map Char.toLower) :
    r.resolve? ⟨stem ++ Path.dot :: Bytes.encode ext'⟩
      = r.resolve? ⟨stem ++ Path.dot :: Bytes.encode ext⟩ := by
  have hlower : Lowercase.ofString ext' = Lowercase.ofString ext := by
    have h := Lowercase.ofString_eq_of_map_toLower (fun c hc => (hext c hc).1) hsame
    rwa [String.ofList_toList, String.ofList_toList] at h
  have hslash : '/' ∉ ext.toList := fun h => (hext _ h).2.1 rfl
  have hdot : '.' ∉ ext.toList := fun h => (hext _ h).2.2 rfl
  by_cases hne : ext = ""
  · have hne' : ext' = "" := by
      rw [hne] at hsame
      exact String.toList_eq_nil_iff.mp (List.map_eq_nil_iff.mp hsame)
    rw [hne, hne']
  · have hne' : ext' ≠ "" := by
      rintro rfl
      exact hne (String.toList_eq_nil_iff.mp (List.map_eq_nil_iff.mp hsame.symm))
    -- a slash or a full stop has no other case, so neither stands in the second extension
    have hslash' : '/' ∉ ext'.toList :=
      Lowercase.not_mem_of_map_toLower hsame (by decide) (by decide) hslash
    have hdot' : '.' ∉ ext'.toList :=
      Lowercase.not_mem_of_map_toLower hsame (by decide) (by decide) hdot
    rw [resolve?, resolve?, lowerExtension?_append hne hslash hdot,
      lowerExtension?_append hne' hslash' hdot', hlower]

/-- **In a registry in lower case** a path has a language if a row lists its
extension, in any case. -/
theorem isSome_resolve?_iff (hr : r.IsLowerCase) {ext : String}
    (hext : p.extension? = some (Bytes.encode ext)) : (r.resolve? p).isSome ↔
      ∃ e ∈ r.entries, ∃ listed ∈ e.row.extensions,
        Lowercase.ofString listed = Lowercase.ofString ext := by
  rw [resolve?, lowerExtension?_eq_some_iff.mpr ⟨ext, hext, rfl⟩, Option.bind_some,
    List.find?_isSome]
  constructor
  · rintro ⟨e, he, hlists⟩
    rw [List.contains_iff_mem] at hlists
    exact ⟨e, he, _, hlists, hr e he _ hlists⟩
  · rintro ⟨e, he, listed, hlisted, hsame⟩
    rw [hr e he listed hlisted] at hsame
    exact ⟨e, he, List.contains_iff_mem.mpr (hsame ▸ hlisted)⟩

/-- **The language of a path depends on the extension of its last component only, up to case.**
Directories before a path with a file name, slashes behind it and a last `/.` do not change its
language, and neither does the case of letters in ASCII behind its last full stop.  The
language is that of the first row that lists the extension in lower case; there is none exactly
if there is no extension or no row lists it.  A path has no extension if its file name, should
it have one, has no full stop or only one in front; otherwise its extension stands behind the
last full stop.  If all rows list their extensions in lower case, then a row that lists the
extension in any case is found. -/
theorem resolve?_by_extension (r : Registry) :
    (∀ p : Path, p.fileName?.isSome →
      (∀ d : Path, r.resolve? (d.join p) = r.resolve? p) ∧
      (∀ d : Bytes, r.resolve? ⟨d ++ Path.slash :: p.bytes⟩ = r.resolve? p) ∧
      (∀ k : Nat, r.resolve? ⟨p.bytes ++ List.replicate k Path.slash⟩ = r.resolve? p) ∧
      r.resolve? ⟨p.bytes ++ [Path.slash, Path.dot]⟩ = r.resolve? p) ∧
    (∀ (stem : Bytes) (ext ext' : String),
      (∀ c ∈ ext.toList, Lowercase.IsAscii c ∧ c ≠ '/' ∧ c ≠ '.') →
      ext'.toList.map Char.toLower = ext.toList.map Char.toLower →
        r.resolve? ⟨stem ++ Path.dot :: Bytes.encode ext'⟩
          = r.resolve? ⟨stem ++ Path.dot :: Bytes.encode ext⟩) ∧
    (∀ (p : Path) (e : Entry), r.resolve? p = some e ↔
      ∃ ext before after, p.extension? = some (Bytes.encode ext) ∧
        r.entries = before ++ e :: after ∧ Lowercase.ofString ext ∈ e.row.extensions ∧
        ∀ e' ∈ before, Lowercase.ofString ext ∉ e'.row.extensions) ∧
    (∀ p : Path, r.resolve? p = none ↔ p.extension? = none ∨ ∃ b, p.extension? = some b ∧
      ∀ ext, b = Bytes.encode ext → ∀ e ∈ r.entries, Lowercase.ofString ext ∉ e.row.extensions) ∧
    (∀ p : Path, p.extension? = none ↔ ∀ n, p.fileName? = some n →
      Path.dot ∉ n ∨ ∃ rest, n = Path.dot :: rest ∧ Path.dot ∉ rest) ∧
    (∀ (p : Path) (b : Bytes), p.extension? = some b ↔
      ∃ stem, stem ≠ [] ∧ Path.dot ∉ b ∧ p.fileName? = some (stem ++ Path.dot :: b)) ∧
    (r.IsLowerCase → ∀ (p : Path) (ext : String), p.extension? = some (Bytes.encode ext) →
      ((r.resolve? p).isSome ↔ ∃ e ∈ r.entries, ∃ listed ∈ e.row.extensions,
        Lowercase.ofString listed = Lowercase.ofString ext)) := by
  refine ⟨fun p hp => ⟨fun d => ?_, fun d => ?_, fun k => ?_, ?_⟩,
    fun stem ext ext' hext hsame => resolve?_of_toLower r stem hext hsame,
    fun p e => resolve?_eq_some_iff, fun p => resolve?_eq_none_iff,
    fun p => Path.extension?_eq_none_iff, fun p b => Path.extension?_eq_some_iff,
    fun hr p ext hext => isSome_resolve?_iff hr hext⟩
  · exact r.resolve?_of_fileName? (Path.fileName?_join d hp)
  · exact r.resolve?_of_fileName? (Path.fileName?_append_slash_cons d hp)
  · exact r.resolve?_of_fileName? (Path.fileName?_of_components
      (Path.components_append_slashes (Path.bytes_ne_nil_of_fileName? hp) k))
  · exact r.resolve?_of_fileName? (Path.fileName?_of_components
      (Path.components_append_here (Path.bytes_ne_nil_of_fileName? hp)))

/-- A path whose extension is not in lower case. -/
def mixedCase : Path := Path.ofString "./App.tar.JSX"

/-- The path is resolved by its extension alone, whatever stands around it; a name with one full
stop in front has none. -/
theorem resolve?_by_extension_mixedCase :
    builtin.IsLowerCase ∧ mixedCase.fileName?.isSome ∧
    builtin.resolve? ((Path.ofString "lib.py/").join mixedCase) = builtin.resolve? mixedCase ∧
    builtin.resolve? ⟨mixedCase.bytes ++ List.replicate 3 Path.slash⟩
      = builtin.resolve? mixedCase ∧
    (∀ c ∈ "JSX".toList, Lowercase.IsAscii c ∧ c ≠ '/' ∧ c ≠ '.') ∧
    "jSx".toList.map Char.toLower = "JSX".toList.map Char.toLower ∧
    builtin.resolve? ⟨Bytes.encode "./App.tar" ++ Path.dot :: Bytes.encode "jSx"⟩
      = builtin.resolve? ⟨Bytes.encode "./App.tar" ++ Path.dot :: Bytes.encode "JSX"⟩ ∧
    mixedCase.extension? = some (Bytes.encode "JSX") ∧
    (∃ e ∈ builtin.entries, ∃ listed ∈ e.row.extensions,
      Lowercase.ofString listed = Lowercase.ofString "JSX") ∧
    builtin.resolve? (Path.ofString "lib.py/.py") = none := by
  obtain ⟨haround, hcase, -, hnone, hbare, -, hlisted⟩ := resolve?_by_extension builtin
  have hlower : builtin.IsLowerCase := by decide +kernel
  have hname : mixedCase.fileName?.isSome := by decide
  have hascii : ∀ c ∈ "JSX".toList, Lowercase.IsAscii c ∧ c ≠ '/' ∧ c ≠ '.' := by
    show ∀ c ∈ ['J', 'S', 'X'], Lowercase.IsAscii c ∧ c ≠ '/' ∧ c ≠ '.'
    rw [List.forall_mem_cons, List.forall_mem_cons, List.forall_mem_singleton]
    decide
  have hsame : "jSx".toList.map Char.toLower = "JSX".toList.map Char.toLower := by decide
  have hext : mixedCase.extension? = some (Bytes.encode "JSX") := by decide
  have hsome : (builtin.resolve? mixedCase).isSome := by decide +kernel
  have hdotfile : (Path.ofString "lib.py/.py").fileName? = some (Bytes.encode ".py") := by decide
  refine ⟨hlower, hname, (haround _ hname).1 _, (haround _ hname).2.2.1 3, hascii, hsame,
    hcase _ _ _ hascii hsame, hext, (hlisted hlower _ _ hext).mp hsome,
    (hnone _).mpr (Or.inl ((hbare _).mpr fun n hn => ?_))⟩
  rw [hdotfile] at hn
  obtain rfl := Option.some.inj hn
  exact Or.inr ⟨Bytes.encode "py", by decide, by decide⟩

end Rows

end Registry

end SourceChunks
