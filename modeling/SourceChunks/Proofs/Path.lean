import SourceChunks.Files.Tree
import SourceChunks.Proofs.Text.Splitting

/-!
# Paths below a path

Joining a name to a path adds one component at its end and changes no other (`components_join`),
however the path is spelled.  So the names of a location, joined one after the other, are exactly
what lies below the path (`names_below_descend`).
-/

namespace SourceChunks.Path

/-- **A name that an entry of a directory can have**: it is not empty, it is neither `.` nor `..`,
and it has no slash. -/
def IsName (n : Bytes) : Prop := n ≠ [] ∧ n ≠ [dot] ∧ n ≠ [dot, dot] ∧ slash ∉ n

instance (n : Bytes) : Decidable (IsName n) :=
  inferInstanceAs (Decidable (n ≠ [] ∧ n ≠ [dot] ∧ n ≠ [dot, dot] ∧ slash ∉ n))

/-- The path of a location below a path: its names joined one after the other. -/
def descend (p : Path) (l : Location) : Path := l.foldl (fun p n => p.join ⟨n⟩) p

theorem descend_cons (p : Path) (n : Bytes) (l : Location) :
    p.descend (n :: l) = (p.join ⟨n⟩).descend l := rfl

/-! ### Components of a join -/

theorem component?_of_isName {n : Bytes} (h : IsName n) : component? n = some (.name n) := by
  obtain ⟨hnil, hdot, hdots, -⟩ := h
  rw [component?, if_neg (by simp [hnil, hdot]), if_neg hdots]

theorem isAbsolute_of_isName {n : Bytes} (h : IsName n) : (⟨n⟩ : Path).isAbsolute = false := by
  obtain ⟨hnil, -, -, hslash⟩ := h
  cases n with
  | nil => exact absurd rfl hnil
  | cons b rest =>
    have hb : b ≠ slash := fun heq => hslash (by rw [heq]; exact List.mem_cons_self)
    simp [isAbsolute, hb]

/-- What the first segment of a path means. -/
def leading (absolute : Bool) (first : Bytes) : List Component :=
  if absolute then [.root] else if first = [dot] then [.here] else (component? first).toList

theorem components_eq {p : Path} {first : Bytes} {rest : List Bytes}
    (h : splitAt slash p.bytes = first :: rest) :
    p.components = leading p.isAbsolute first ++ rest.filterMap component? := by
  rw [components, h]
  unfold leading
  dsimp only
  split_ifs
  · rfl
  · rfl
  · rfl

/-- What comes after a slash adds the components of its segments, whatever comes
before the slash. -/
theorem components_append_slash_cons (bytes more : Bytes) :
    (⟨bytes ++ slash :: more⟩ : Path).components
      = (⟨bytes ++ [slash]⟩ : Path).components ++ (splitAt slash more).filterMap component? := by
  obtain ⟨first, rest, hsplit⟩ := List.exists_cons_of_ne_nil (splitAt_ne_nil slash bytes)
  have hmore : splitAt slash (bytes ++ slash :: more) = first :: (rest ++ splitAt slash more) := by
    rw [splitAt_append_cons, hsplit]
    rfl
  have hslash : splitAt slash (bytes ++ [slash]) = first :: (rest ++ [[]]) := by
    rw [splitAt_append_cons, hsplit]
    rfl
  have habsolute : (⟨bytes ++ slash :: more⟩ : Path).isAbsolute
      = (⟨bytes ++ [slash]⟩ : Path).isAbsolute := by
    cases bytes with
    | nil => rfl
    | cons b bs => rfl
  -- the empty segment behind the last slash is no component
  have hempty : ([[]] : List Bytes).filterMap component? = [] := rfl
  rw [components_eq (p := ⟨bytes ++ slash :: more⟩) hmore,
    components_eq (p := ⟨bytes ++ [slash]⟩) hslash, habsolute, List.filterMap_append,
    List.filterMap_append, hempty, List.append_nil, List.append_assoc]

/-- A name after a slash is one component more. -/
theorem components_append_name {bytes n : Bytes} (h : IsName n) :
    (⟨bytes ++ slash :: n⟩ : Path).components
      = (⟨bytes ++ [slash]⟩ : Path).components ++ [.name n] := by
  rw [components_append_slash_cons, splitAt_eq_singleton h.2.2.2, List.filterMap_cons,
    component?_of_isName h]
  rfl

/-- A slash at the end of a path that is not empty says nothing. -/
theorem components_append_slash {bytes : Bytes} (h : bytes ≠ []) :
    (⟨bytes ++ [slash]⟩ : Path).components = (⟨bytes⟩ : Path).components := by
  obtain ⟨first, rest, hsplit⟩ := List.exists_cons_of_ne_nil (splitAt_ne_nil slash bytes)
  have hslash : splitAt slash (bytes ++ [slash]) = first :: (rest ++ [[]]) := by
    rw [splitAt_append_cons, hsplit]
    rfl
  have habsolute : (⟨bytes ++ [slash]⟩ : Path).isAbsolute = (⟨bytes⟩ : Path).isAbsolute := by
    cases bytes with
    | nil => exact absurd rfl h
    | cons b bs => rfl
  rw [components_eq (p := ⟨bytes ++ [slash]⟩) hslash, components_eq (p := ⟨bytes⟩) hsplit,
    habsolute, List.filterMap_append]
  simp [component?]

/-- **Joining a name adds one component at the end.** -/
theorem components_join (p : Path) {n : Bytes} (h : IsName n) :
    (p.join ⟨n⟩).components = p.components ++ [.name n] := by
  obtain ⟨bytes⟩ := p
  rw [join, isAbsolute_of_isName h, if_neg Bool.false_ne_true]
  dsimp only
  by_cases hnil : bytes = []
  · -- nothing to join to: the name is the whole path
    rw [if_pos (Or.inl hnil), hnil, List.nil_append,
      components_eq (p := ⟨n⟩) (splitAt_eq_singleton h.2.2.2), isAbsolute_of_isName h, leading,
      if_neg Bool.false_ne_true, if_neg h.2.1, component?_of_isName h]
    rfl
  by_cases hlast : bytes.getLast? = some slash
  · obtain ⟨start, hstart⟩ := List.getLast?_eq_some_iff.mp hlast
    rw [if_pos (Or.inr hlast), hstart, List.append_assoc, List.singleton_append]
    exact components_append_name h
  · rw [if_neg (by simp [hnil, hlast]), components_append_name h,
      components_append_slash hnil]

theorem components_descend (p : Path) {l : Location} (h : ∀ n ∈ l, IsName n) :
    (p.descend l).components = p.components ++ l.map .name := by
  induction l generalizing p with
  | nil => rw [descend, List.foldl_nil, List.map_nil, List.append_nil]
  | cons n rest ih =>
    rw [descend_cons, ih _ (fun m hm => h m (List.mem_cons_of_mem _ hm)),
      components_join p (h n List.mem_cons_self), List.append_assoc, List.map_cons]
    rfl

/-! ### What lies below a path -/

theorem dropComponents?_append (ds cs : List Component) :
    dropComponents? ds (ds ++ cs) = some cs := by
  induction ds with
  | nil => rfl
  | cons d ds ih => rw [List.cons_append, dropComponents?, if_pos rfl, ih]

theorem names_map_name (l : List Bytes) : names (l.map .name) = l := by
  induction l with
  | nil => rfl
  | cons n rest ih => rw [List.map_cons, names, List.filterMap_cons, ← names, ih]

/-- **Below a path lie the names that lead down from it.** -/
theorem names_below_descend (p : Path) {l : Location} (h : ∀ n ∈ l, IsName n) :
    names (below p (p.descend l)) = l := by
  rw [below, components_descend p h, dropComponents?_append, Option.getD_some, names_map_name]

/-! ### Spelling -/

/-- A path without the slash at its end, if it has one there. -/
def stem (p : Path) : Bytes := if p.bytes.getLast? = some slash then p.bytes.dropLast else p.bytes

theorem bytes_eq_stem (p : Path) : p.bytes = p.stem ∨ p.bytes = p.stem ++ [slash] := by
  unfold stem
  split_ifs with hlast
  · right
    obtain ⟨start, hstart⟩ := List.getLast?_eq_some_iff.mp hlast
    rw [hstart, List.dropLast_concat]
  · exact Or.inl rfl

theorem bytes_join {p rel : Path} (hp : p.bytes ≠ []) (hrel : rel.isAbsolute = false) :
    (p.join rel).bytes = p.stem ++ slash :: rel.bytes := by
  rw [join, hrel, if_neg Bool.false_ne_true, stem]
  by_cases hlast : p.bytes.getLast? = some slash
  · obtain ⟨start, hstart⟩ := List.getLast?_eq_some_iff.mp hlast
    rw [if_pos (Or.inr hlast), if_pos hlast, hstart, List.dropLast_concat, List.append_assoc,
      List.singleton_append]
  · rw [if_neg (by simp [hp, hlast]), if_neg hlast]

/-- A name has no slash at its end. -/
theorem stem_append_name (bytes : Bytes) {n : Bytes} (hn : IsName n) :
    (⟨bytes ++ slash :: n⟩ : Path).stem = bytes ++ slash :: n := by
  rw [stem, if_neg]
  intro hlast
  rw [List.getLast?_append_of_ne_nil _ (List.cons_ne_nil _ _), List.getLast?_cons_of_ne_nil hn.1]
    at hlast
  exact hn.2.2.2 (List.mem_of_getLast? hlast)

/-- **Names joined one after the other are spelled with a slash before each.** -/
theorem bytes_descend {p : Path} (hp : p.bytes ≠ []) {l : Location} (hl : l ≠ [])
    (h : ∀ n ∈ l, IsName n) : (p.descend l).bytes = p.stem ++ l.flatMap (slash :: ·) := by
  induction l generalizing p with
  | nil => exact absurd rfl hl
  | cons n rest ih =>
    rw [List.forall_mem_cons] at h
    rw [descend_cons, List.flatMap_cons]
    by_cases hrest : rest = []
    · rw [hrest, List.flatMap_nil, List.append_nil]
      exact bytes_join hp (isAbsolute_of_isName h.1)
    · have hjoin := bytes_join hp (isAbsolute_of_isName h.1)
      have hne : (p.join ⟨n⟩).bytes ≠ [] := by simp [hjoin]
      have hstem : (p.join ⟨n⟩).stem = (p.join ⟨n⟩).bytes := by
        have := stem_append_name p.stem h.1
        rwa [← hjoin] at this
      rw [ih hne hrest h.2, hstem, hjoin, List.append_assoc]

theorem isAbsolute_descend {p : Path} (hp : p.bytes ≠ []) {l : Location} (hl : l ≠ [])
    (h : ∀ n ∈ l, IsName n) : (p.descend l).isAbsolute = p.isAbsolute := by
  obtain ⟨n, rest, rfl⟩ := List.exists_cons_of_ne_nil hl
  rw [isAbsolute, isAbsolute, bytes_descend hp hl h]
  rcases bytes_eq_stem p with hstem | hstem
  · rw [← hstem, List.head?_append_of_ne_nil _ hp]
  · rw [hstem]
    cases p.stem with
    | nil => rfl
    | cons b bs => rfl

/-- The segments of such a spelling: those before the first name, and the names. -/
theorem splitAt_names {bytes : Bytes} {l : Location} (hl : l ≠ []) (h : ∀ n ∈ l, IsName n) :
    splitAt slash (bytes ++ l.flatMap (slash :: ·)) = splitAt slash bytes ++ l := by
  induction l generalizing bytes with
  | nil => exact absurd rfl hl
  | cons n rest ih =>
    rw [List.forall_mem_cons] at h
    rw [List.flatMap_cons, List.cons_append, splitAt_append_cons]
    congr 1
    by_cases hrest : rest = []
    · rw [hrest, List.flatMap_nil, List.append_nil, splitAt_eq_singleton h.1.2.2.2]
    · rw [ih hrest h.2, splitAt_eq_singleton h.1.2.2.2, List.singleton_append]

/-! ### Names of a path -/

theorem isName_of_component? {segment n : Bytes} (hslash : slash ∉ segment)
    (h : component? segment = some (.name n)) : IsName n := by
  unfold component? at h
  split_ifs at h with hskip hparent
  · cases h
  · rw [not_or] at hskip
    obtain rfl := Component.name.inj (Option.some.inj h)
    exact ⟨hskip.1, hskip.2, hparent, hslash⟩

/-- **The names of a path are names**, however it is spelled. -/
theorem isName_of_mem_names {p : Path} {n : Bytes} (h : n ∈ names p.components) : IsName n := by
  obtain ⟨first, rest, hsplit⟩ := List.exists_cons_of_ne_nil (splitAt_ne_nil slash p.bytes)
  have hslash : ∀ segment ∈ first :: rest, slash ∉ segment := by
    rw [← hsplit]
    exact fun _ => not_mem_of_mem_splitAt
  rw [List.forall_mem_cons] at hslash
  have hmem : Component.name n ∈ p.components := by
    obtain ⟨c, hc, hname⟩ := List.mem_filterMap.mp h
    cases c with
    | name m =>
      obtain rfl := Option.some.inj hname
      exact hc
    | root => cases hname
    | here => cases hname
    | parent => cases hname
  rw [components_eq hsplit, List.mem_append] at hmem
  rcases hmem with hfirst | hrest
  · unfold leading at hfirst
    split_ifs at hfirst
    · cases List.mem_singleton.mp hfirst
    · cases List.mem_singleton.mp hfirst
    · exact isName_of_component? hslash.1 (Option.mem_toList.mp hfirst)
  · obtain ⟨segment, hsegment, hname⟩ := List.mem_filterMap.mp hrest
    exact isName_of_component? (hslash.2 segment hsegment) hname

/-! ### Paths under a path -/

/-- **A path lies under another one** if its components begin with those of the other. -/
def Under (dir p : Path) : Prop := dir.components <+: p.components

instance (dir p : Path) : Decidable (Under dir p) :=
  inferInstanceAs (Decidable (dir.components <+: p.components))

theorem below_of_components_eq {dir p : Path} {rest : List Component}
    (h : p.components = dir.components ++ rest) : below dir p = rest := by
  rw [below, h, dropComponents?_append, Option.getD_some]

/-- **What is joined to a path lies under it**, however the two are spelled. -/
theorem under_join (dir : Path) {rel : Path} (hrel : rel.isAbsolute = false) :
    dir.Under (dir.join rel) := by
  unfold Under
  by_cases hnil : dir.bytes = []
  · have hempty : dir = ⟨[]⟩ := by rw [← hnil]
    have hcomponents : (⟨[]⟩ : Path).components = [] := by decide
    rw [hempty, hcomponents]
    exact List.nil_prefix
  · -- the slash between the two adds nothing to the path before it
    have hstem : dir.components = (⟨dir.stem ++ [slash]⟩ : Path).components := by
      rcases bytes_eq_stem dir with hsame | hslash
      · have hne : dir.stem ≠ [] := by rwa [← hsame]
        rw [components_append_slash hne, ← hsame]
      · rw [← hslash]
    have hjoin : dir.join rel = ⟨dir.stem ++ slash :: rel.bytes⟩ := by
      rw [← bytes_join hnil hrel]
    rw [hjoin, components_append_slash_cons, hstem]
    exact List.prefix_append _ _

end SourceChunks.Path
