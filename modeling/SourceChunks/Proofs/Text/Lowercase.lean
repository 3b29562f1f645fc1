import SourceChunks.Text.Lowercase
import Mathlib.Data.List.Basic

/-!
# Lower case, letter by letter

What a letter becomes depends on its place only if it is Σ.  Every other letter brings its own
lower-case form into the text (`mem_ofString`), and a text in ASCII is changed one letter at a time
(`ofString_ascii`), so that texts which differ in the case of such letters have one lower-case form.
-/

namespace SourceChunks.Lowercase

/-- **A character of ASCII.** -/
def IsAscii (c : Char) : Prop := c.toNat < 0x80

instance (c : Char) : Decidable (IsAscii c) := inferInstanceAs (Decidable (c.toNat < 0x80))

theorem ofCharBetween_of_ne {c : Char} (h : c ≠ 'Σ') (before after : List Char) :
    ofCharBetween before c after = ofChar c := if_neg h

/-- The lower-case form of a text holds that of each letter but Σ. -/
theorem mem_ofCharsAfter {before cs : List Char} {c d : Char} (hc : c ∈ cs) (hne : c ≠ 'Σ')
    (hd : d ∈ ofChar c) : d ∈ ofCharsAfter before cs := by
  induction cs generalizing before with
  | nil => exact absurd hc List.not_mem_nil
  | cons first rest ih =>
    rw [ofCharsAfter, List.mem_append]
    rcases List.mem_cons.mp hc with rfl | hrest
    · exact Or.inl (by rwa [ofCharBetween_of_ne hne])
    · exact Or.inr (ih hrest)

theorem mem_ofString {s : String} {c d : Char} (hc : c ∈ s.toList) (hne : c ≠ 'Σ')
    (hd : d ∈ ofChar c) : d ∈ (ofString s).toList := by
  rw [ofString, String.toList_ofList]
  exact mem_ofCharsAfter hc hne hd

theorem IsAscii.ofCharBetween {c : Char} (h : IsAscii c) (before after : List Char) :
    Lowercase.ofCharBetween before c after = [c.toLower] := by
  have hne : c ≠ 'Σ' := by
    rintro rfl
    exact absurd h (by decide)
  rw [ofCharBetween_of_ne hne]
  exact if_pos h

theorem ofCharsAfter_ascii {before cs : List Char} (h : ∀ c ∈ cs, IsAscii c) :
    ofCharsAfter before cs = cs.map Char.toLower := by
  induction cs generalizing before with
  | nil => rfl
  | cons c rest ih =>
    rw [List.forall_mem_cons] at h
    rw [ofCharsAfter, h.1.ofCharBetween, ih h.2, List.map_cons, List.singleton_append]

/-- **A text in ASCII is changed one letter at a time.** -/
theorem ofString_ascii {cs : List Char} (h : ∀ c ∈ cs, IsAscii c) :
    ofString (String.ofList cs) = String.ofList (cs.map Char.toLower) := by
  rw [ofString, String.toList_ofList, ofCharsAfter_ascii h]

/-- **A capital moves to its small letter**, and every other character stays. -/
theorem toLower_cases (c : Char) :
    (0x41 ≤ c.toNat ∧ c.toNat ≤ 0x5A ∧ c.toLower.toNat = c.toNat + 0x20) ∨ c.toLower = c := by
  unfold Char.toLower
  split_ifs with h
  · left
    have hfirst : 0x41 ≤ c.toNat := UInt32.le_iff_toNat_le.mp h.1
    have hlast : c.toNat ≤ 0x5A := UInt32.le_iff_toNat_le.mp h.2
    have hsum : (c.val + ('a'.val - 'A'.val)).toNat = (c.toNat + 0x20) % 2 ^ 32 :=
      UInt32.toNat_add c.val ('a'.val - 'A'.val)
    refine ⟨hfirst, hlast, ?_⟩
    show (c.val + ('a'.val - 'A'.val)).toNat = c.toNat + 0x20
    omega
  · exact Or.inr rfl

/-- The lower-case form of a letter is in ASCII if and only if the letter is. -/
theorem isAscii_toLower {c : Char} : IsAscii c.toLower ↔ IsAscii c := by
  unfold IsAscii
  rcases toLower_cases c with ⟨-, hlast, hsum⟩ | hsame
  · omega
  · rw [hsame]

/-- A character before the small letters is the lower-case form of no other one. -/
theorem eq_of_toLower_eq {c d : Char} (h : c.toLower = d) (hd : d.toNat < 0x61) : c = d := by
  rcases toLower_cases c with ⟨hfirst, -, hsum⟩ | hsame
  · rw [h] at hsum
    omega
  · rw [← hsame, h]

/-- Texts that differ in the case of letters only hold the same marks. -/
theorem not_mem_of_map_toLower {cs ds : List Char} {mark : Char}
    (hsame : ds.map Char.toLower = cs.map Char.toLower) (hmark : mark.toNat < 0x61)
    (hself : mark.toLower = mark) (h : mark ∉ cs) : mark ∉ ds := by
  intro hmem
  have hmapped : mark ∈ cs.map Char.toLower := by
    rw [← hsame]
    exact List.mem_map.mpr ⟨mark, hmem, hself⟩
  obtain ⟨c, hc, hcmark⟩ := List.mem_map.mp hmapped
  rw [eq_of_toLower_eq hcmark hmark] at hc
  exact h hc

/-- **Texts in ASCII that differ in the case of letters only have the same lower-case form.** -/
theorem ofString_eq_of_map_toLower {cs ds : List Char} (h : ∀ c ∈ cs, IsAscii c)
    (hsame : ds.map Char.toLower = cs.map Char.toLower) :
    ofString (String.ofList ds) = ofString (String.ofList cs) := by
  have hds : ∀ d ∈ ds, IsAscii d := by
    intro d hd
    have hmem : d.toLower ∈ cs.map Char.toLower := by
      rw [← hsame]
      exact List.mem_map_of_mem hd
    obtain ⟨c, hc, hlower⟩ := List.mem_map.mp hmem
    rw [← isAscii_toLower, ← hlower, isAscii_toLower]
    exact h c hc
  rw [ofString_ascii h, ofString_ascii hds, hsame]

/-- Behind a letter the letter Σ becomes ς if no other letter follows; an apostrophe is no end. -/
example : ofString "Σ.ΑΣ" = "σ.ας" ∧ ofString "ΑΣ'Α" = "ασ'α" ∧ ofString "ΑΣ'" = "ας'" := by
  decide +kernel

end SourceChunks.Lowercase
