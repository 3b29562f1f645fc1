import SourceChunks.PathFilter
import SourceChunks.Proofs.Text.Decoding

/-!
# Globs of literal characters

A pattern without stars, question marks and brackets is never read as a glob: it is compared with
the names of a path as text.  If it has no braces and no backslash either, reading it as a glob
would make no difference.  The reader stays outside everything and takes each character as it stands
(`ReadState.IsPlain.foldlM`), commas, closing brackets and slashes included.  The matcher, which
carries sets of places over the name, comes to the place behind the bytes of these characters if
they stand there, and to no other place (`Places.has_afterBytes`).  So the glob matches the name
that the pattern spells and no other one (`isMatch_literal_iff`), and both ways of comparing ignore
the same names (`IgnorePattern.exact_agrees_with_glob`).
-/

namespace SourceChunks

namespace Glob

/-- The characters that can mean something else than themselves outside classes. -/
def special : List Char := ['*', '?', '[', '\x7b', '\x7d', '\\']

/-! ### Reading -/

namespace ReadState

/-- **Between two characters that stand for themselves**: the reader is outside everything. -/
structure IsPlain (st : ReadState) : Prop where
  mode_eq : st.mode = .plain
  groups_eq : st.groups = []

variable {st : ReadState}

theorem IsPlain.readPlain (h : st.IsPlain) {c : Char} (hc : c ∉ special) :
    st.readPlain c = .ok (st.push (.literal c)) := by
  unfold ReadState.readPlain
  split
  · exact absurd (by decide) hc
  · exact absurd (by decide) hc
  · exact absurd (by decide) hc
  · exact absurd (by decide) hc
  · exact absurd (by decide) hc
  · exact absurd (by decide) hc
  · -- a comma separates branches inside a group only
    rw [h.groups_eq]
  · rfl

/-- **A character that is not special adds itself**, and the reader stays outside everything. -/
theorem IsPlain.step (h : st.IsPlain) {c : Char} (hc : c ∉ special) :
    ∃ st', st.step c = .ok st' ∧ st'.IsPlain ∧ st'.parts = .literal c :: st.parts := by
  have hread : st.readChar c = st.readPlain c := by
    unfold readChar
    rw [h.mode_eq]
  have hplain : ReadState.IsPlain { st.push (.literal c) with last := some c } :=
    ⟨rfl, h.groups_eq⟩
  refine ⟨_, ?_, hplain, rfl⟩
  rw [ReadState.step, hread, h.readPlain hc]
  rfl

/-- **So do any number of them**, by induction on the text that is read. -/
theorem IsPlain.foldlM (h : st.IsPlain) {cs : List Char} (hcs : ∀ c ∈ cs, c ∉ special) :
    ∃ st', cs.foldlM ReadState.step st = .ok st' ∧ st'.IsPlain ∧
      st'.parts = (cs.map Part.literal).reverse ++ st.parts := by
  induction cs generalizing st with
  | nil => exact ⟨st, rfl, h, rfl⟩
  | cons c cs ih =>
    rw [List.forall_mem_cons] at hcs
    obtain ⟨first, hstep, hplain, hparts⟩ := h.step hcs.1
    obtain ⟨st', hrest, hplain', hparts'⟩ := ih hplain hcs.2
    refine ⟨st', ?_, hplain', ?_⟩
    · rw [List.foldlM_cons, hstep]
      exact hrest
    · rw [hparts', hparts, List.map_cons, List.reverse_cons, List.append_assoc]
      rfl

theorem IsPlain.finish (h : st.IsPlain) : st.finish = .ok ⟨st.parts.reverse⟩ := by
  have hsettle : st.settle none = st := by
    unfold settle
    rw [h.mode_eq]
  unfold ReadState.finish
  rw [h.mode_eq, h.groups_eq, hsettle]
  rfl

end ReadState

/-- **A text without special characters is a glob** that is made of them one by one. -/
theorem ofString_of_not_special {pattern : String} (h : ∀ c ∈ pattern.toList, c ∉ special) :
    ofString pattern = .ok ⟨pattern.toList.map .literal⟩ := by
  have hstart : ReadState.IsPlain {} := ⟨rfl, rfl⟩
  obtain ⟨st, hread, hplain, hparts⟩ := hstart.foldlM h
  rw [List.append_nil] at hparts
  rw [ofString, hread]
  show st.finish = _
  rw [hplain.finish, hparts, List.reverse_reverse]

/-! ### Places -/

namespace Places

variable {name : Bytes} {ps : Places}

/-- Is a place, counted from zero, in the set? -/
def Has (ps : Places) (i : Nat) : Prop := ps[i]? = some true

theorem has_start (name : Bytes) (i : Nat) : (start name).Has i ↔ i = 0 := by
  unfold Has start
  cases i with
  | zero => simp
  | succ i =>
    have hnone : (name.map fun _ => false)[i]? ≠ some true := by
      rw [List.getElem?_map]
      cases name[i]? <;> simp
    simp only [List.getElem?_cons_succ, hnone, Nat.succ_ne_zero]

theorem length_after (accepts : UInt8 → Bool) (h : ps.length = name.length + 1) :
    (ps.after name accepts).length = name.length + 1 := by
  unfold after
  rw [List.length_cons, List.length_zipWith, h]
  omega

/-- **One byte leads from a place to the next one**, if it is accepted. -/
theorem has_after (accepts : UInt8 → Bool) (j : Nat) :
    (ps.after name accepts).Has j ↔
      ∃ i, j = i + 1 ∧ ps.Has i ∧ ∃ b, name[i]? = some b ∧ accepts b = true := by
  unfold Has after
  cases j with
  | zero => simp
  | succ i =>
    have hzip : (List.zipWith (fun b p => p && accepts b) name ps)[i]? = some true ↔
        ps[i]? = some true ∧ ∃ b, name[i]? = some b ∧ accepts b = true := by
      rw [List.getElem?_zipWith]
      cases hname : name[i]? with
      | none => simp
      | some b =>
        cases hps : ps[i]? with
        | none => simp
        | some p => simp
    rw [List.getElem?_cons_succ, hzip]
    constructor
    · intro h
      exact ⟨i, rfl, h⟩
    · rintro ⟨i', hi, h⟩
      obtain rfl : i = i' := by omega
      exact h

/-- The places after some bytes in a row. -/
def afterBytes (name bs : Bytes) (ps : Places) : Places :=
  bs.foldl (fun ps b => ps.after name (· == b)) ps

theorem length_afterBytes (bs : Bytes) (h : ps.length = name.length + 1) :
    (ps.afterBytes name bs).length = name.length + 1 := by
  induction bs generalizing ps with
  | nil => exact h
  | cons b bs ih => exact ih (length_after _ h)

theorem cons_prefix_drop_iff {b : UInt8} {bs : Bytes} {i : Nat} :
    b :: bs <+: name.drop i ↔ name[i]? = some b ∧ bs <+: name.drop (i + 1) := by
  have hhead : (name.drop i).head? = name[i]? := List.head?_drop
  have htail : (name.drop i).tail = name.drop (i + 1) := List.tail_drop
  rw [← hhead, ← htail]
  cases name.drop i with
  | nil => simp
  | cons c cs => simp [List.cons_prefix_cons, eq_comm]

/-- **Bytes in a row lead from a place to the one behind them**, if they stand there.  By induction
on the bytes, for all sets of places. -/
theorem has_afterBytes (bs : Bytes) (j : Nat) :
    (ps.afterBytes name bs).Has j ↔ ∃ i, j = i + bs.length ∧ ps.Has i ∧ bs <+: name.drop i := by
  induction bs generalizing ps with
  | nil => simp [afterBytes]
  | cons b bs ih =>
    have hstep : ps.afterBytes name (b :: bs) = (ps.after name (· == b)).afterBytes name bs := rfl
    have hlength : ∀ i, i + (b :: bs).length = i + 1 + bs.length := by
      intro i
      rw [List.length_cons]
      omega
    rw [hstep, ih]
    constructor
    · rintro ⟨next, hj, hnext, hbs⟩
      obtain ⟨i, rfl, hi, b', hb', heq⟩ := (has_after _ _).mp hnext
      obtain rfl := eq_of_beq heq
      exact ⟨i, by rw [hj, hlength], hi, cons_prefix_drop_iff.mpr ⟨hb', hbs⟩⟩
    · rintro ⟨i, hj, hi, hbegins⟩
      obtain ⟨hb, hbs⟩ := cons_prefix_drop_iff.mp hbegins
      have hnext : (ps.after name (· == b)).Has (i + 1) :=
        (has_after _ _).mpr ⟨i, rfl, hi, b, hb, beq_self_eq_true b⟩
      exact ⟨i + 1, by rw [hj, hlength], hnext, hbs⟩

theorem atEnd_iff (h : ps.length = name.length + 1) : ps.atEnd = true ↔ ps.Has name.length := by
  have hlast : ps.getLast? = ps[name.length]? := by
    rw [List.getLast?_eq_getElem?, h, Nat.add_sub_cancel]
  unfold atEnd Has
  rw [hlast]
  cases ps[name.length]? <;> simp

end Places

/-! ### Matching -/

theorem carryAll_literal (name : Bytes) (ps : Places) (cs : List Char) :
    carryAll name ps (cs.map .literal) = ps.afterBytes name (Bytes.encodeChars cs) := by
  induction cs generalizing ps with
  | nil => simp [carryAll, Places.afterBytes, Bytes.encodeChars]
  | cons c cs ih =>
    -- a character is followed as the bytes that it is written with
    have hfirst : Part.carry name ps (.literal c)
        = ps.afterBytes name (String.utf8EncodeChar c) := by
      rw [Part.carry]
      rfl
    have hencode : Bytes.encodeChars (c :: cs)
        = String.utf8EncodeChar c ++ Bytes.encodeChars cs := rfl
    rw [List.map_cons, carryAll, hfirst, ih, hencode, Places.afterBytes, Places.afterBytes,
      Places.afterBytes, List.foldl_append]

/-- **A glob of literal characters matches one name**: the one that they spell. -/
theorem isMatch_literal_iff (cs : List Char) (name : Bytes) :
    isMatch ⟨cs.map .literal⟩ name = true ↔ name = Bytes.encodeChars cs := by
  have hnot : isEverything ⟨cs.map .literal⟩ = false := by
    unfold isEverything
    cases cs <;> rfl
  have hlength : (Places.start name).length = name.length + 1 := by
    rw [Places.start, List.length_cons, List.length_map]
  rw [isMatch, hnot, Bool.false_or]
  show (carryAll name (Places.start name) (cs.map .literal)).atEnd = true ↔ _
  rw [carryAll_literal, Places.atEnd_iff (Places.length_afterBytes _ hlength),
    Places.has_afterBytes]
  constructor
  · -- the bytes begin at the first place and end at the last one
    rintro ⟨i, hend, hstart, hbegins⟩
    obtain rfl := (Places.has_start name i).mp hstart
    rw [List.drop_zero] at hbegins
    have hlength : (Bytes.encodeChars cs).length = name.length := by omega
    exact (hbegins.eq_of_length hlength).symm
  · rintro rfl
    have hbegins : Bytes.encodeChars cs <+: (Bytes.encodeChars cs).drop 0 := List.prefix_refl _
    exact ⟨0, (Nat.zero_add _).symm, (Places.has_start _ 0).mpr rfl, hbegins⟩

end Glob

/-! ### Patterns -/

namespace IgnorePattern

theorem isGlob_of_not_special {pattern : String} (h : ∀ c ∈ pattern.toList, c ∉ Glob.special) :
    isGlob pattern = false := by
  unfold isGlob
  rw [List.any_eq_false]
  intro c hc hmark
  have hcases : (c = '*' ∨ c = '?') ∨ c = '[' := by simpa using hmark
  apply h c hc
  rcases hcases with (rfl | rfl) | rfl
  · decide
  · decide
  · decide

/-- A glob of literal characters ignores the name that they spell.  A name that is no text is held
against it as it is shown, in both ways. -/
theorem ignores_literal (cs : List Char) (segment : Bytes) :
    (glob ⟨cs.map .literal⟩).ignores segment = (exact (String.ofList cs)).ignores segment := by
  have hinjective : Bytes.encodeChars (Bytes.decodeChars segment) = Bytes.encodeChars cs ↔
      Bytes.decodeChars segment = cs := by
    constructor
    · intro h
      have hdecoded := congrArg Bytes.decodeChars h
      rwa [Bytes.decodeChars_encodeChars, Bytes.decodeChars_encodeChars] at hdecoded
    · intro h
      rw [h]
  rw [Bool.eq_iff_iff]
  show Glob.isMatch _ (Bytes.encode (Bytes.decode segment)) = true ↔
    (Bytes.decode segment == String.ofList cs) = true
  rw [Glob.isMatch_literal_iff, Bytes.encode, Bytes.decode, String.toList_ofList, hinjective,
    beq_iff_eq, String.ofList_inj]

/-- **Comparing as text agrees with matching as a glob.**  A pattern without special characters is
read as the name that it spells.  It is a glob as well, which matches this name and no other one;
the two ignore the same segments of paths, and in any filter one can stand for the other. -/
theorem exact_agrees_with_glob (pattern : String) (h : ∀ c ∈ pattern.toList, c ∉ Glob.special) :
    ofString pattern = .ok (.exact pattern) ∧
    ∃ g, Glob.ofString pattern = .ok g ∧
      (∀ name, g.isMatch name = true ↔ name = Bytes.encode pattern) ∧
      (∀ segment, (exact pattern).ignores segment = (glob g).ignores segment) ∧
      ∀ (root : Path) (before after : List IgnorePattern) (size : Nat) (p : Path),
        PathFilter.isIgnored ⟨root, before ++ .exact pattern :: after, size⟩ p
          = PathFilter.isIgnored ⟨root, before ++ .glob g :: after, size⟩ p := by
  have hexact : ofString pattern = .ok (.exact pattern) := by
    rw [ofString, isGlob_of_not_special h]
    rfl
  have hsame : ∀ segment, (exact pattern).ignores segment
      = (glob ⟨pattern.toList.map .literal⟩).ignores segment := by
    intro segment
    rw [ignores_literal, String.ofList_toList]
  refine ⟨hexact, _, Glob.ofString_of_not_special h, Glob.isMatch_literal_iff _, hsame, ?_⟩
  intro root before after size p
  have hnames : PathFilter.ignoresName ⟨root, before ++ .exact pattern :: after, size⟩
      = PathFilter.ignoresName
          ⟨root, before ++ .glob ⟨pattern.toList.map .literal⟩ :: after, size⟩ := by
    funext n
    simp only [PathFilter.ignoresName, List.any_append, List.any_cons, hsame]
  rw [PathFilter.isIgnored, PathFilter.isIgnored, hnames]

/-- Marks that mean something inside a class or a group only, and a character of two bytes. -/
theorem exact_agrees_with_glob_marks :
    (∀ c ∈ "],!-^/é".toList, c ∉ Glob.special) ∧
    ofString "],!-^/é" = .ok (.exact "],!-^/é") ∧
    ∃ g, Glob.ofString "],!-^/é" = .ok g ∧
      (∀ name, g.isMatch name = true ↔ name = Bytes.encode "],!-^/é") ∧
      ∀ segment, (exact "],!-^/é").ignores segment = (glob g).ignores segment := by
  have hmarks : ∀ c ∈ "],!-^/é".toList, c ∉ Glob.special := by
    have hcheck : "],!-^/é".toList.all (!Glob.special.contains ·) = true := by decide
    intro c hc hspecial
    have hnot := List.all_eq_true.mp hcheck c hc
    simp [hspecial] at hnot
  obtain ⟨hexact, g, hglob, hmatch, hsame, -⟩ := exact_agrees_with_glob "],!-^/é" hmarks
  exact ⟨hmarks, hexact, g, hglob, hmatch, hsame⟩

/-- With braces the two differ: as text the pattern ignores itself, as a glob one of
its branches. -/
example : (ofString "\x7bgen,out\x7d").toOption.map (·.ignores (Bytes.encode "gen")) = some false ∧
    (Glob.ofString "\x7bgen,out\x7d").toOption.map (·.isMatch (Bytes.encode "gen"))
      = some true := by
  decide +kernel

end IgnorePattern

end SourceChunks
