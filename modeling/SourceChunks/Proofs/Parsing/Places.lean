import SourceChunks.Parsing.Indentation
import SourceChunks.Proofs.Parsing.NameNodes
import Mathlib.Data.List.Induction

/-!
# Places and offsets

A place counts glyphs, an offset counts characters.  A layout adds marks and neither drops nor
changes a character (`Indentation.chars_layout_prefix`), and the offset of a place is the number of
characters before it (`Input.offsets_getElem?`), so the glyphs between two places and the text
between their offsets have the same characters (`Input.Spells.slice`).
-/

namespace SourceChunks.Parsing

/-! ### The characters of an input -/

namespace Input

/-- The characters among some glyphs. -/
def charsOf (gs : List Glyph) : List Char :=
  gs.filterMap fun g => match g with
    | .char c => some c
    | .mark _ => none

@[simp]
theorem charsOf_append (gs gs' : List Glyph) : charsOf (gs ++ gs') = charsOf gs ++ charsOf gs' :=
  List.filterMap_append

@[simp]
theorem charsOf_map_char (cs : List Char) : charsOf (cs.map .char) = cs := by
  induction cs with
  | nil => rfl
  | cons c cs ih => rw [List.map_cons, charsOf, List.filterMap_cons, ← charsOf, ih]

@[simp]
theorem charsOf_map_mark (ms : List Mark) : charsOf (ms.map .mark) = [] := by
  induction ms with
  | nil => rfl
  | cons m ms ih => rw [List.map_cons, charsOf, List.filterMap_cons, ← charsOf, ih]

theorem mem_charsOf {gs : List Glyph} {c : Char} : c ∈ charsOf gs ↔ Glyph.char c ∈ gs := by
  rw [charsOf, List.mem_filterMap]
  constructor
  · rintro ⟨g, hg, hc⟩
    cases g with
    | char d =>
      obtain rfl := Option.some.inj hc
      exact hg
    | mark m => cases hc
  · exact fun h => ⟨.char c, h, rfl⟩

theorem char?_eq_some_iff {t : Input} {i : Nat} {c : Char} :
    t.char? i = some c ↔ t.toList[i]? = some (.char c) := by
  rw [char?, Array.getElem?_toList]
  cases t[i]? with
  | none => simp
  | some g => cases g <;> simp

/-- **The offset of a place is the number of characters before it.** -/
theorem offsets_getElem? (t : Input) :
    t.offsets.size = t.size + 1 ∧
      ∀ i ≤ t.size, t.offsets[i]? = some (charsOf (t.toList.take i)).length := by
  obtain ⟨gs⟩ := t
  rw [offsets, ← Array.foldl_toList]
  show _ = gs.length + 1 ∧ ∀ i ≤ gs.length, _ = some (charsOf (gs.take i)).length
  -- by induction on the last glyph: it adds one offset at the end
  induction gs using List.reverseRecOn with
  | nil => simp [charsOf]
  | append_singleton gs g ih =>
    obtain ⟨hsize, hget⟩ := ih
    rw [List.foldl_append, List.foldl_cons, List.foldl_nil]
    generalize List.foldl _ #[0] gs = acc at hsize hget ⊢
    have hback : acc.back? = some (charsOf gs).length := by
      rw [Array.back?_eq_getElem?, hsize, Nat.add_sub_cancel, hget gs.length (Nat.le_refl _),
        List.take_length]
    refine ⟨by simp [hsize], fun i hi => ?_⟩
    rw [List.length_append, List.length_singleton] at hi
    by_cases hlast : i = gs.length + 1
    · rw [hlast, ← hsize, Array.getElem?_push_size, hback, hsize, List.take_of_length_le (by simp)]
      cases g <;> simp [charsOf]
    · rw [Array.getElem?_push, if_neg (by omega), hget i (by omega),
        List.take_append_of_le_length (by omega)]

/-- **What is spelled between two places stands in the text between their offsets.** -/
theorem Spells.slice {p : Char → Bool} {t : Input} {i j : Nat} (h : t.Spells p i j)
    {text : List Char} (ht : charsOf t.toList <+: text) (other : Nat) :
    ∀ c ∈ (text.drop (t.offsets.getD i other)).take
      (t.offsets.getD j other - t.offsets.getD i other), p c = true := by
  obtain ⟨hij, hglyphs⟩ := h
  by_cases hlt : i < j
  · -- the last glyph lies in the input, so both places do
    have hj : j ≤ t.size := by
      obtain ⟨c, hc, -⟩ := hglyphs (j - 1) (by omega) (by omega)
      rw [char?_eq_some_iff] at hc
      have := (List.getElem?_eq_some_iff.mp hc).1
      rw [Array.length_toList] at this
      omega
    have hoffset : ∀ k ≤ t.size, t.offsets.getD k other = (charsOf (t.toList.take k)).length := by
      intro k hk
      rw [Array.getD_eq_getD_getElem?, t.offsets_getElem?.2 k hk, Option.getD_some]
    have hsplit : t.toList.take j = t.toList.take i ++ (t.toList.take j).drop i := by
      conv_lhs => rw [← List.take_append_drop i (t.toList.take j)]
      rw [List.take_take, Nat.min_eq_left hij]
    obtain ⟨rest, rfl⟩ := ht
    have htext : charsOf t.toList = charsOf (t.toList.take i) ++
        charsOf ((t.toList.take j).drop i) ++ charsOf (t.toList.drop j) := by
      rw [← charsOf_append, ← hsplit, ← charsOf_append, List.take_append_drop]
    rw [hoffset i (by omega), hoffset j hj, hsplit, charsOf_append, List.length_append,
      Nat.add_sub_cancel_left, htext, List.append_assoc, List.append_assoc, List.drop_left,
      List.take_left]
    intro c hc
    rw [mem_charsOf, List.mem_iff_getElem?] at hc
    obtain ⟨k, hk⟩ := hc
    rw [List.getElem?_drop, List.getElem?_take] at hk
    split_ifs at hk with hkj
    obtain ⟨d, hd, hp⟩ := hglyphs (i + k) (by omega) hkj
    rw [char?_eq_some_iff, hk] at hd
    obtain rfl := Glyph.char.inj (Option.some.inj hd)
    exact hp
  · have heq : i = j := by omega
    rw [heq, Nat.sub_self, List.take_zero]
    exact fun c hc => absurd hc List.not_mem_nil

theorem toList_ofChars (cs : List Char) : (ofChars cs).toList = cs.map .char := rfl

theorem char?_ofChars {cs : List Char} {i : Nat} {c : Char} (h : (ofChars cs).char? i = some c) :
    cs[i]? = some c := by
  rw [char?_eq_some_iff, toList_ofChars, List.getElem?_map] at h
  obtain ⟨d, hd, hc⟩ := Option.map_eq_some_iff.mp h
  rw [hd, Glyph.char.inj hc]

end Input

/-! ### Quoted text goes forward -/

namespace Indentation

/-- Every character is allowed. -/
theorem le_of_chars {cs : List Char} {t : Input} {i j : Nat} (h : Scan.chars cs t i = some j) :
    i ≤ j :=
  (Scan.within_chars (fun _ _ => rfl) t i j h : t.Spells (fun _ => true) i j).1

theorem le_repeated (q : Char → Bool) (t : Input) (fuel i : Nat) :
    i ≤ Scan.repeated (Scan.satisfy q) t fuel i :=
  ((Scan.within_satisfy fun _ h => h).repeated t fuel i : t.Spells q i _).1

/-- **The end of a quoted text lies behind its beginning**, and so do the ends of its parts. -/
theorem le_stringEnd (t : Input) (fuel : Nat) :
    (∀ quote formatted i j, stringEnd? t quote formatted fuel i = some j → i ≤ j) ∧
    (∀ depth i j, holeEnd? t fuel depth i = some j → i ≤ j) ∧
    (∀ i j, formatEnd? t fuel i = some j → i ≤ j) ∧
    (∀ i j, stringAt? t fuel i = some j → i ≤ j) := by
  induction fuel with
  | zero =>
    refine ⟨fun quote formatted i j h => ?_, fun depth i j h => ?_, fun i j h => ?_,
      fun i j h => ?_⟩
    · rw [stringEnd?] at h
      cases h
    · rw [holeEnd?] at h
      cases h
    · rw [formatEnd?] at h
      cases h
    · rw [stringAt?] at h
      cases h
  | succ fuel ih =>
    obtain ⟨ihString, ihHole, ihFormat, ihAt⟩ := ih
    refine ⟨fun quote formatted i j h => ?_, fun depth i j h => ?_, fun i j h => ?_,
      fun i j h => ?_⟩
    · rw [stringEnd?] at h
      split at h
      · rename_i k hk
        obtain rfl := Option.some.inj h
        exact le_of_chars hk
      split at h
      · cases h
      split_ifs at h
      · have := ihString _ _ _ _ h
        omega
      · have := ihString _ _ _ _ h
        omega
      · split at h
        · rename_i k hk
          have := ihHole _ _ _ hk
          have := ihString _ _ _ _ h
          omega
        · cases h
      · have := ihString _ _ _ _ h
        omega
    · rw [holeEnd?] at h
      split at h
      · cases h
      split_ifs at h
      · have := Option.some.inj h
        omega
      · have := ihHole _ _ _ h
        omega
      · have := ihHole _ _ _ h
        omega
      · have := ihFormat _ _ h
        omega
      · split at h
        · rename_i k hk
          have := ihAt _ _ hk
          have := ihHole _ _ _ h
          omega
        · have := ihHole _ _ _ h
          omega
    · rw [formatEnd?] at h
      split at h
      · cases h
      split_ifs at h
      · have := Option.some.inj h
        omega
      · split at h
        · rename_i k hk
          have := ihHole _ _ _ hk
          have := ihFormat _ _ h
          omega
        · cases h
      · have := ihFormat _ _ h
        omega
    · rw [stringAt?] at h
      dsimp only at h
      have hflags := le_repeated isFlag t 4 i
      split at h
      · cases h
      · have := ihString _ _ _ _ h
        omega

/-! ### A layout keeps the characters -/

/-- A beginning of a text, laid out: the characters of what was written so far. -/
def Copied (text : List Char) (i : Nat) (out : Input) : Prop :=
  Input.charsOf out.toList = text.take i

variable {text : List Char} {i j : Nat} {out : Input}

theorem Copied.marks (h : Copied text i out) (ms : List Mark) :
    Copied text i (out ++ (ms.map Glyph.mark).toArray) := by
  rw [Copied, Array.toList_append, Input.charsOf_append, h]
  simp

theorem Copied.push (h : Copied text i out) {c : Char}
    (hc : (Input.ofChars text).char? i = some c) : Copied text (i + 1) (out.push (.char c)) := by
  have hget := Input.char?_ofChars hc
  rw [Copied, Array.toList_push, Input.charsOf_append, h, List.take_add_one, hget]
  rfl

theorem Copied.copy (h : Copied text i out) (hij : i ≤ j) :
    Copied text j (copy (Input.ofChars text) i j out) := by
  rw [Copied, Indentation.copy, Array.toList_append, Input.charsOf_append, h, Array.toList_extract,
    Input.toList_ofChars, List.extract_eq_take_drop, ← List.map_drop, ← List.map_take,
    Input.charsOf_map_char, ← List.take_add, Nat.add_sub_cancel' hij]

/-- **Laying out keeps the characters**: what is written is a beginning of the text, up to any
place that the layout reaches. -/
theorem layOut_prefix (isInner : Char → Bool) (fuel : Nat) (s : State)
    (h : Copied text i out) :
    Input.charsOf (layOut isInner (Input.ofChars text) fuel i s out).toList <+: text := by
  induction fuel generalizing i s out with
  | zero =>
    rw [layOut, h]
    exact List.take_prefix i text
  | succ fuel ih =>
    rw [layOut]
    split
    · -- the end of the text: only marks follow
      have hend := h.marks (endLine ⟨none, 0⟩ s).1
      rw [Copied] at hend
      dsimp only
      rw [hend]
      exact List.take_prefix i text
    · rename_i c hc
      dsimp only
      split
      · exact ih _ ((h.marks _).push hc)
      split
      · exact ih _ (h.push hc)
      split
      · -- a comment up to the end of its line
        refine ih _ (h.copy ?_)
        cases hline : Scan.restOfLine (Input.ofChars text) i with
        | none => exact Nat.le_succ i
        | some j =>
          obtain rfl := Option.some.inj hline
          exact le_repeated _ _ _ _
      split
      · refine ih _ (h.copy ?_)
        split
        · omega
        · omega
      split
      · rename_i j hj
        exact ih _ (h.copy ((le_stringEnd _ _).2.2.2 i j hj))
      split
      · exact ih _ (h.copy (le_repeated _ _ _ _))
      · exact ih _ (h.push hc)

/-- **A layout adds nothing but marks.** -/
theorem chars_layout_prefix (isInner : Char → Bool) (text : List Char) :
    Input.charsOf (layout isInner text).toList <+: text :=
  layOut_prefix isInner _ _ rfl

end Indentation

end SourceChunks.Parsing
