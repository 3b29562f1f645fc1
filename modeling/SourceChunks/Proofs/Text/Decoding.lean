import SourceChunks.Text.Bytes
import SourceChunks.Proofs.Text.Splitting

/-!
# Decoding, one character at a time

`decodeOnto` reads with an accumulator and looks up to four bytes ahead.  Here it is taken apart: a
lead byte says what its tail has to be (`tailTests?`), the tail is followed as far as it fits
(`follow`), and this gives the first character and the bytes after it (`decodeFirst`).  Decoding is
that step repeated (`decodeChars_cons`), with an induction rule of its own (`decode_induction`).

Two facts follow.  Decoding undoes encoding (`decode_encode`).  And it neither swallows nor makes a
character of one byte: such a byte is never a part of a longer character, not even of a broken one,
so cutting at it and decoding change places (`splitAt_decodeChars`), and the lines of a decoded text
are the decoded lines of its bytes (`linesOf_decode`).
-/

namespace SourceChunks.Bytes

/-! ### The first character -/

/-- What the bytes after a lead byte have to be, one test for each; `none` if the byte begins no
character. -/
def tailTests? (b₀ : UInt8) : Option (List (UInt8 → Bool)) :=
  if b₀ < 0x80 then some []
  else if 0xC2 ≤ b₀ && b₀ ≤ 0xDF then some [isContinuation]
  else if 0xE0 ≤ b₀ && b₀ ≤ 0xEF then some [secondOfThree b₀, isContinuation]
  else if 0xF0 ≤ b₀ && b₀ ≤ 0xF4 then some [secondOfFour b₀, isContinuation, isContinuation]
  else none

/-- Follows some tests: the bytes that pass them, or `none` if one fails, and the bytes after
those that passed. -/
def follow : List (UInt8 → Bool) → Bytes → Option Bytes × Bytes
  | [], r => (some [], r)
  | _ :: _, [] => (none, [])
  | t :: ts, b :: r =>
    if t b then ((follow ts r).1.map (b :: ·), (follow ts r).2) else (none, b :: r)

/-- The character of a lead byte and its tail. -/
def charOf (b₀ : UInt8) : Bytes → Char
  | [] => Char.ofNat b₀.toNat
  | [b₁] => charOfTwo b₀ b₁
  | [b₁, b₂] => charOfThree b₀ b₁ b₂
  | [b₁, b₂, b₃] => charOfFour b₀ b₁ b₂ b₃
  | _ => replacement

/-- **The first character of some bytes**, with U+FFFD for an invalid part, and the bytes after
it. -/
def decodeFirst (b₀ : UInt8) (r₀ : Bytes) : Char × Bytes :=
  match tailTests? b₀ with
  | none => (replacement, r₀)
  | some ts => (((follow ts r₀).1.map (charOf b₀)).getD replacement, (follow ts r₀).2)

/-- Decoding reads the first character and goes on with the rest. -/
theorem decodeOnto_cons (acc : List Char) (b₀ : UInt8) (r₀ : Bytes) :
    decodeOnto acc (b₀ :: r₀)
      = decodeOnto ((decodeFirst b₀ r₀).1 :: acc) (decodeFirst b₀ r₀).2 := by
  have hnil : ∀ acc, decodeOnto acc [] = acc.reverse := fun _ => by rw [decodeOnto.eq_def]
  rw [decodeOnto.eq_def]
  unfold decodeFirst tailTests?
  dsimp only
  split_ifs with hone htwo hthree hfour
  · rfl
  · rcases r₀ with _ | ⟨b₁, r₁⟩
    · simp [follow, hnil]
    · cases h₁ : isContinuation b₁ <;> simp [follow, h₁, charOf]
  · rcases r₀ with _ | ⟨b₁, r₁⟩
    · simp [follow, hnil]
    cases h₁ : secondOfThree b₀ b₁
    · simp [follow, h₁]
    rcases r₁ with _ | ⟨b₂, r₂⟩
    · simp [follow, h₁, hnil]
    · cases h₂ : isContinuation b₂ <;> simp [follow, h₁, h₂, charOf]
  · rcases r₀ with _ | ⟨b₁, r₁⟩
    · simp [follow, hnil]
    cases h₁ : secondOfFour b₀ b₁
    · simp [follow, h₁]
    rcases r₁ with _ | ⟨b₂, r₂⟩
    · simp [follow, h₁, hnil]
    cases h₂ : isContinuation b₂
    · simp [follow, h₁, h₂]
    rcases r₂ with _ | ⟨b₃, r₃⟩
    · simp [follow, h₁, h₂, hnil]
    cases h₃ : isContinuation b₃
    · simp [follow, h₁, h₂, h₃]
    · have hfollow : follow [secondOfFour b₀, isContinuation, isContinuation] (b₁ :: b₂ :: b₃ :: r₃)
          = (some [b₁, b₂, b₃], r₃) := by
        simp [follow, h₁, h₂, h₃]
      have hchar : charOf b₀ [b₁, b₂, b₃] = charOfFour b₀ b₁ b₂ b₃ := by rw [charOf]
      dsimp only
      rw [if_pos h₁, if_pos h₂, if_pos h₃, hfollow]
      dsimp only
      rw [Option.map_some, Option.getD_some, hchar]
  · rfl

/-- What is left after some tests is an end of the bytes. -/
theorem follow_suffix (ts : List (UInt8 → Bool)) (r : Bytes) : (follow ts r).2 <:+ r := by
  fun_induction follow ts r with
  | case1 r => exact List.suffix_refl _
  | case2 => exact List.suffix_refl _
  | case3 t ts b r _ ih => exact ih.trans (List.suffix_cons _ _)
  | case4 => exact List.suffix_refl _

/-- What is left after the first character is an end of the bytes. -/
theorem decodeFirst_suffix (b₀ : UInt8) (r₀ : Bytes) : (decodeFirst b₀ r₀).2 <:+ r₀ := by
  unfold decodeFirst
  split
  · exact List.suffix_refl _
  · exact follow_suffix _ _

/-- **Induction along decoding**: from what is left after the first character to the whole. -/
theorem decode_induction {motive : Bytes → Prop} (nil : motive [])
    (cons : ∀ b₀ r₀, motive (decodeFirst b₀ r₀).2 → motive (b₀ :: r₀)) (b : Bytes) : motive b := by
  match b with
  | [] => exact nil
  | b₀ :: r₀ =>
    have hle := (decodeFirst_suffix b₀ r₀).length_le
    exact cons b₀ r₀ (decode_induction nil cons _)
termination_by b.length
decreasing_by
  rw [List.length_cons]
  omega

/-- Characters read before stay in front. -/
theorem decodeOnto_eq (acc : List Char) (b : Bytes) :
    decodeOnto acc b = acc.reverse ++ decodeChars b := by
  induction b using decode_induction generalizing acc with
  | nil => simp [decodeChars, decodeOnto]
  | cons b₀ r₀ ih =>
    have hwhole : decodeChars (b₀ :: r₀)
        = decodeOnto [(decodeFirst b₀ r₀).1] (decodeFirst b₀ r₀).2 :=
      decodeOnto_cons [] b₀ r₀
    rw [decodeOnto_cons, ih, hwhole, ih, List.reverse_cons, List.append_assoc]
    rfl

@[simp]
theorem decodeChars_nil : decodeChars [] = [] := by simp [decodeChars, decodeOnto]

/-- **Decoding is reading the first character, repeated.** -/
theorem decodeChars_cons (b₀ : UInt8) (r₀ : Bytes) :
    decodeChars (b₀ :: r₀) = (decodeFirst b₀ r₀).1 :: decodeChars (decodeFirst b₀ r₀).2 := by
  rw [decodeChars, decodeOnto_cons, decodeOnto_eq]
  rfl

theorem decodeChars_eq_nil_iff {b : Bytes} : decodeChars b = [] ↔ b = [] := by
  cases b with
  | nil => simp
  | cons b₀ r₀ => simp [decodeChars_cons]

/-! ### Tests in numbers -/

theorem isContinuation_iff {b : UInt8} :
    isContinuation b = true ↔ 0x80 ≤ b.toNat ∧ b.toNat ≤ 0xBF := by
  simp [isContinuation, UInt8.le_iff_toNat_le]

theorem secondOfThree_iff {b₀ b₁ : UInt8} :
    secondOfThree b₀ b₁ = true ↔ (0x80 ≤ b₁.toNat ∧ b₁.toNat ≤ 0xBF) ∧
      (b₀.toNat = 0xE0 → 0xA0 ≤ b₁.toNat) ∧ (b₀.toNat = 0xED → b₁.toNat ≤ 0x9F) := by
  simp only [secondOfThree, Bool.and_eq_true, Bool.or_eq_true, isContinuation_iff, bne_iff_ne,
    decide_eq_true_eq, UInt8.le_iff_toNat_le, ne_eq, ← UInt8.toNat_inj]
  simp only [UInt8.reduceToNat]
  omega

theorem secondOfFour_iff {b₀ b₁ : UInt8} :
    secondOfFour b₀ b₁ = true ↔ (0x80 ≤ b₁.toNat ∧ b₁.toNat ≤ 0xBF) ∧
      (b₀.toNat = 0xF0 → 0x90 ≤ b₁.toNat) ∧ (b₀.toNat = 0xF4 → b₁.toNat ≤ 0x8F) := by
  simp only [secondOfFour, Bool.and_eq_true, Bool.or_eq_true, isContinuation_iff, bne_iff_ne,
    decide_eq_true_eq, UInt8.le_iff_toNat_le, ne_eq, ← UInt8.toNat_inj]
  simp only [UInt8.reduceToNat]
  omega

/-- The kind of a lead byte, in numbers. -/
theorem tailTests?_eq (b₀ : UInt8) : tailTests? b₀ =
    if b₀.toNat < 0x80 then some []
    else if 0xC2 ≤ b₀.toNat ∧ b₀.toNat ≤ 0xDF then some [isContinuation]
    else if 0xE0 ≤ b₀.toNat ∧ b₀.toNat ≤ 0xEF then some [secondOfThree b₀, isContinuation]
    else if 0xF0 ≤ b₀.toNat ∧ b₀.toNat ≤ 0xF4 then
      some [secondOfFour b₀, isContinuation, isContinuation]
    else none := by
  simp only [tailTests?, Bool.and_eq_true, decide_eq_true_eq, UInt8.lt_iff_toNat_lt,
    UInt8.le_iff_toNat_le, UInt8.reduceToNat]

/-- Bytes that pass some tests are followed, whatever comes after them. -/
theorem follow_append {ts : List (UInt8 → Bool)} {taken : Bytes}
    (h : List.Forall₂ (fun t b => t b = true) ts taken) (r : Bytes) :
    follow ts (taken ++ r) = (some taken, r) := by
  induction h with
  | nil => rfl
  | cons ht _ ih => rw [List.cons_append, follow, if_pos ht, ih]; rfl

/-- Bytes that are followed pass the tests. -/
theorem forall₂_of_follow {ts : List (UInt8 → Bool)} {r taken : Bytes}
    (h : (follow ts r).1 = some taken) : List.Forall₂ (fun t b => t b = true) ts taken := by
  fun_induction follow ts r generalizing taken with
  | case1 r =>
    obtain rfl := Option.some.inj h
    exact List.Forall₂.nil
  | case2 => cases h
  | case3 t ts b r ht ih =>
    obtain ⟨rest, hrest, rfl⟩ := Option.map_eq_some_iff.mp h
    exact List.Forall₂.cons ht (ih hrest)
  | case4 => cases h

/-- A lead byte with a tail that fits is decoded on its own. -/
theorem decodeChars_of_tail {b₀ : UInt8} {ts : List (UInt8 → Bool)} {taken : Bytes} {c : Char}
    (hts : tailTests? b₀ = some ts) (h : List.Forall₂ (fun t b => t b = true) ts taken)
    (hc : charOf b₀ taken = c) (r : Bytes) :
    decodeChars (b₀ :: (taken ++ r)) = c :: decodeChars r := by
  have hfirst : decodeFirst b₀ (taken ++ r) = (charOf b₀ taken, r) := by
    rw [decodeFirst, hts]
    dsimp only
    rw [follow_append h]
    rfl
  rw [decodeChars_cons, hfirst, hc]

/-! ### Decoding undoes encoding -/

/-- **A character that was encoded is the first one decoded.** -/
theorem decodeChars_utf8EncodeChar_append (c : Char) (r : Bytes) :
    decodeChars (String.utf8EncodeChar c ++ r) = c :: decodeChars r := by
  have hvalid : c.val.toNat < 0xD800 ∨ (0xDFFF < c.val.toNat ∧ c.val.toNat < 0x110000) := c.valid
  have hchar : ∀ n, n = c.val.toNat → Char.ofNat n = c := by
    rintro n rfl
    exact Char.ofNat_toNat c
  have hbyte : ∀ n, n < 256 → (UInt8.ofNat n).toNat = n := fun n hn =>
    UInt8.toNat_ofNat_of_lt hn
  unfold String.utf8EncodeChar
  dsimp only
  generalize c.val.toNat = v at hvalid hchar
  split_ifs with hone htwo hthree
  · -- one byte
    have hts : tailTests? (UInt8.ofNat v) = some [] := by
      rw [tailTests?_eq, hbyte v (by omega), if_pos (by omega)]
    have hc : charOf (UInt8.ofNat v) [] = c := by
      rw [charOf, hbyte v (by omega)]
      exact hchar v rfl
    exact decodeChars_of_tail hts .nil hc r
  · -- two bytes
    have h₀ := hbyte (v / 64 % 32 + 192) (by omega)
    have h₁ := hbyte (v % 64 + 128) (by omega)
    have hts : tailTests? (UInt8.ofNat (v / 64 % 32 + 192)) = some [isContinuation] := by
      rw [tailTests?_eq, h₀, if_neg (by omega), if_pos (by omega)]
    have hc : charOf (UInt8.ofNat (v / 64 % 32 + 192)) [UInt8.ofNat (v % 64 + 128)] = c := by
      rw [charOf, charOfTwo, payload, h₀, h₁]
      apply hchar
      omega
    refine decodeChars_of_tail hts (.cons ?_ .nil) hc r
    rw [isContinuation_iff, h₁]
    omega
  · -- three bytes
    have h₀ := hbyte (v / 4096 % 16 + 224) (by omega)
    have h₁ := hbyte (v / 64 % 64 + 128) (by omega)
    have h₂ := hbyte (v % 64 + 128) (by omega)
    have hts : tailTests? (UInt8.ofNat (v / 4096 % 16 + 224))
        = some [secondOfThree (UInt8.ofNat (v / 4096 % 16 + 224)), isContinuation] := by
      rw [tailTests?_eq, h₀, if_neg (by omega), if_neg (by omega), if_pos (by omega)]
    have hc : charOf (UInt8.ofNat (v / 4096 % 16 + 224))
        [UInt8.ofNat (v / 64 % 64 + 128), UInt8.ofNat (v % 64 + 128)] = c := by
      rw [charOf, charOfThree, payload, payload, h₀, h₁, h₂]
      apply hchar
      omega
    refine decodeChars_of_tail hts (.cons ?_ (.cons ?_ .nil)) hc r
    · rw [secondOfThree_iff, h₀, h₁]
      omega
    · rw [isContinuation_iff, h₂]
      omega
  · -- four bytes
    have h₀ := hbyte (v / 262144 % 8 + 240) (by omega)
    have h₁ := hbyte (v / 4096 % 64 + 128) (by omega)
    have h₂ := hbyte (v / 64 % 64 + 128) (by omega)
    have h₃ := hbyte (v % 64 + 128) (by omega)
    have hts : tailTests? (UInt8.ofNat (v / 262144 % 8 + 240))
        = some [secondOfFour (UInt8.ofNat (v / 262144 % 8 + 240)), isContinuation,
            isContinuation] := by
      rw [tailTests?_eq, h₀, if_neg (by omega), if_neg (by omega), if_neg (by omega),
        if_pos (by omega)]
    have hc : charOf (UInt8.ofNat (v / 262144 % 8 + 240)) [UInt8.ofNat (v / 4096 % 64 + 128),
        UInt8.ofNat (v / 64 % 64 + 128), UInt8.ofNat (v % 64 + 128)] = c := by
      rw [charOf, charOfFour, payload, payload, payload, h₀, h₁, h₂, h₃]
      apply hchar
      omega
    refine decodeChars_of_tail hts (.cons ?_ (.cons ?_ (.cons ?_ .nil))) hc r
    · rw [secondOfFour_iff, h₀, h₁]
      omega
    · rw [isContinuation_iff, h₂]
      omega
    · rw [isContinuation_iff, h₃]
      omega

/-- Decoding undoes encoding, whatever comes after. -/
theorem decodeChars_encodeChars_append (cs : List Char) (r : Bytes) :
    decodeChars (encodeChars cs ++ r) = cs ++ decodeChars r := by
  induction cs with
  | nil => rfl
  | cons c cs ih =>
    rw [encodeChars, List.flatMap_cons, ← encodeChars, List.append_assoc,
      decodeChars_utf8EncodeChar_append, ih]
    rfl

theorem decodeChars_encodeChars (cs : List Char) : decodeChars (encodeChars cs) = cs := by
  have h := decodeChars_encodeChars_append cs []
  rwa [List.append_nil, decodeChars_nil, List.append_nil] at h

theorem encodeChars_eq_nil_iff {cs : List Char} : encodeChars cs = [] ↔ cs = [] := by
  rw [← decodeChars_eq_nil_iff, decodeChars_encodeChars]

/-- **Decoding undoes encoding.** -/
theorem decode_encode (s : String) : decode (encode s) = s := by
  rw [decode, encode, decodeChars_encodeChars, String.ofList_toList]

/-- **Bytes are text if they encode it.** -/
theorem decode?_eq_some_iff {b : Bytes} {s : String} : decode? b = some s ↔ b = encode s := by
  constructor
  · intro h
    unfold decode? at h
    split_ifs at h with htext
    rw [← Option.some.inj h, htext]
  · rintro rfl
    rw [decode?, decode_encode, if_pos rfl]

theorem toList_comp_decode : String.toList ∘ decode = decodeChars := by
  funext b
  exact String.toList_ofList

/-! ### Characters of one byte -/

/-- A byte that is a character of its own, other than zero. -/
def IsAscii (a : UInt8) : Prop := 0 < a.toNat ∧ a.toNat < 0x80

instance (a : UInt8) : Decidable (IsAscii a) :=
  inferInstanceAs (Decidable (0 < a.toNat ∧ a.toNat < 0x80))

section Ascii

variable {a : UInt8}

/-- No byte after a lead byte is a character of its own. -/
theorem tailTests?_ascii (ha : IsAscii a) {b₀ : UInt8} {ts : List (UInt8 → Bool)}
    (h : tailTests? b₀ = some ts) : ∀ t ∈ ts, t a = false := by
  have hcont : isContinuation a = false := by
    rw [Bool.eq_false_iff, ne_eq, isContinuation_iff]
    have := ha.2
    omega
  have hthree : secondOfThree b₀ a = false := by simp [secondOfThree, hcont]
  have hfour : secondOfFour b₀ a = false := by simp [secondOfFour, hcont]
  rw [tailTests?_eq] at h
  split_ifs at h
  all_goals
    obtain rfl := Option.some.inj h
    simp [hcont, hthree, hfour]

theorem follow_append_cons (ts : List (UInt8 → Bool)) (h : ∀ t ∈ ts, t a = false) (u v : Bytes) :
    follow ts (u ++ a :: v) = ((follow ts u).1, (follow ts u).2 ++ a :: v) := by
  fun_induction follow ts u with
  | case1 r => rfl
  | case2 t ts => rw [List.nil_append, follow, h t List.mem_cons_self]; rfl
  | case3 t ts b r ht ih =>
    rw [List.cons_append, follow, if_pos ht, ih fun t' ht' => h t' (List.mem_cons_of_mem _ ht')]
  | case4 t ts b r ht => rw [List.cons_append, follow, if_neg ht]

/-- Such a byte after some bytes does not change how they begin. -/
theorem decodeFirst_append_cons (ha : IsAscii a) (b₀ : UInt8) (u v : Bytes) :
    decodeFirst b₀ (u ++ a :: v) = ((decodeFirst b₀ u).1, (decodeFirst b₀ u).2 ++ a :: v) := by
  unfold decodeFirst
  split
  · rfl
  · rename_i ts hts
    rw [follow_append_cons ts (tailTests?_ascii ha hts)]

theorem decodeFirst_ascii (ha : IsAscii a) (r : Bytes) :
    decodeFirst a r = (Char.ofNat a.toNat, r) := by
  rw [decodeFirst, tailTests?_eq, if_pos ha.2]
  rfl

/-- **A character of one byte is decoded on its own**: what stands before it and after it is decoded
as if the other were not there, even if a character is cut short. -/
theorem decodeChars_append_cons (ha : IsAscii a) (u v : Bytes) :
    decodeChars (u ++ a :: v) = decodeChars u ++ Char.ofNat a.toNat :: decodeChars v := by
  induction u using decode_induction with
  | nil => rw [List.nil_append, decodeChars_cons, decodeFirst_ascii ha]; rfl
  | cons b₀ r₀ ih =>
    rw [List.cons_append, decodeChars_cons, decodeFirst_append_cons ha, ih, decodeChars_cons]
    rfl

/-- Only its own number gives such a character. -/
theorem eq_toNat_of_ofNat (ha : IsAscii a) {n : Nat} (h : Char.ofNat n = Char.ofNat a.toNat) :
    n = a.toNat := by
  have hvalid : ∀ {m : Nat}, m.isValidChar → (Char.ofNat m).toNat = m := by
    intro m hm
    rw [Char.ofNat, dif_pos hm]
    rfl
  have hascii : a.toNat.isValidChar := Or.inl (by have := ha.2; omega)
  by_cases hn : n.isValidChar
  · rw [← hvalid hn, h, hvalid hascii]
  · -- a number that is no character gives the one with number zero
    have hzero : (Char.ofNat n).toNat = 0 := by
      rw [Char.ofNat, dif_neg hn]
      rfl
    rw [h, hvalid hascii] at hzero
    have := ha.1
    omega

/-- A tail that fits makes such a character only of the byte itself: no overlong form passes. -/
theorem charOf_ne_ascii (ha : IsAscii a) {b₀ : UInt8} {ts : List (UInt8 → Bool)} {taken : Bytes}
    (hts : tailTests? b₀ = some ts) (h : List.Forall₂ (fun t b => t b = true) ts taken)
    (hb : b₀ ≠ a) : charOf b₀ taken ≠ Char.ofNat a.toNat := by
  have hsmall := ha.2
  rw [tailTests?_eq] at hts
  split_ifs at hts with hone htwo hthree hfour
  · obtain rfl := Option.some.inj hts
    cases h
    intro hc
    exact hb (UInt8.toNat_inj.mp (eq_toNat_of_ofNat ha hc))
  · obtain rfl := Option.some.inj hts
    rcases h with _ | ⟨h₁, _ | _⟩
    intro hc
    have := eq_toNat_of_ofNat ha hc
    omega
  · obtain rfl := Option.some.inj hts
    rcases h with _ | ⟨h₁, _ | ⟨h₂, _ | _⟩⟩
    rw [secondOfThree_iff] at h₁
    intro hc
    have := eq_toNat_of_ofNat ha hc
    rw [payload, payload] at this
    omega
  · obtain rfl := Option.some.inj hts
    rcases h with _ | ⟨h₁, _ | ⟨h₂, _ | ⟨h₃, _ | _⟩⟩⟩
    rw [secondOfFour_iff] at h₁
    intro hc
    have := eq_toNat_of_ofNat ha hc
    rw [payload, payload, payload] at this
    omega

theorem decodeFirst_ne_ascii (ha : IsAscii a) {b₀ : UInt8} (hb : b₀ ≠ a) (r₀ : Bytes) :
    (decodeFirst b₀ r₀).1 ≠ Char.ofNat a.toNat := by
  have hreplacement : replacement ≠ Char.ofNat a.toNat := by
    intro h
    have hnat := eq_toNat_of_ofNat ha (show Char.ofNat 0xFFFD = _ from h)
    have := ha.2
    omega
  unfold decodeFirst
  split
  · exact hreplacement
  · rename_i ts hts
    cases hfollow : (follow ts r₀).1 with
    | none => exact hreplacement
    | some taken => exact charOf_ne_ascii ha hts (forall₂_of_follow hfollow) hb

/-- Bytes without such a byte are decoded without its character. -/
theorem not_mem_decodeChars (ha : IsAscii a) {b : Bytes} (h : a ∉ b) :
    Char.ofNat a.toNat ∉ decodeChars b := by
  induction b using decode_induction with
  | nil => exact List.not_mem_nil
  | cons b₀ r₀ ih =>
    rw [List.mem_cons, not_or] at h
    rw [decodeChars_cons, List.mem_cons, not_or]
    refine ⟨(decodeFirst_ne_ascii ha (Ne.symm h.1) r₀).symm, ih fun hmem => ?_⟩
    exact h.2 ((decodeFirst_suffix b₀ r₀).subset hmem)

/-- Text without such a character is encoded without its byte. -/
theorem not_mem_encodeChars (ha : IsAscii a) {cs : List Char} (h : Char.ofNat a.toNat ∉ cs) :
    a ∉ encodeChars cs := by
  intro hmem
  obtain ⟨before, after, hsplit⟩ := List.append_of_mem hmem
  have hcs : cs = decodeChars before ++ Char.ofNat a.toNat :: decodeChars after := by
    rw [← decodeChars_append_cons ha, ← hsplit, decodeChars_encodeChars]
  rw [hcs] at h
  exact h (List.mem_append_right _ List.mem_cons_self)

/-- A character of one byte in front was that byte in front. -/
theorem exists_of_decodeChars_eq_cons (ha : IsAscii a) {b : Bytes} {cs : List Char}
    (h : decodeChars b = Char.ofNat a.toNat :: cs) : ∃ r, b = a :: r ∧ decodeChars r = cs := by
  cases b with
  | nil =>
    rw [decodeChars_nil] at h
    cases h
  | cons b₀ r₀ =>
    rw [decodeChars_cons] at h
    obtain ⟨hfirst, hrest⟩ := List.cons.inj h
    obtain rfl : b₀ = a := by
      by_contra hb
      exact decodeFirst_ne_ascii ha hb r₀ hfirst
    rw [decodeFirst_ascii ha] at hrest
    exact ⟨r₀, rfl, hrest⟩

/-- **Cutting at a character of one byte and decoding change places.** -/
theorem splitAt_decodeChars (ha : IsAscii a) (b : Bytes) :
    splitAt (Char.ofNat a.toNat) (decodeChars b) = (splitAt a b).map decodeChars := by
  -- by induction on the number of bytes, one piece at a time
  induction hn : b.length using Nat.strongRecOn generalizing b with
  | _ n ih =>
  subst hn
  by_cases h : a ∈ b
  · obtain ⟨piece, rest, rfl, hpiece⟩ := List.eq_append_cons_of_mem h
    have hrest := ih rest.length (by rw [List.length_append, List.length_cons]; omega) rest rfl
    rw [decodeChars_append_cons ha, splitAt_append_cons, splitAt_append_cons, hrest,
      splitAt_eq_singleton hpiece, splitAt_eq_singleton (not_mem_decodeChars ha hpiece)]
    rfl
  · rw [splitAt_eq_singleton h, splitAt_eq_singleton (not_mem_decodeChars ha h)]
    rfl

end Ascii

/-! ### Lines -/

/-- The byte of a line feed. -/
def lineFeed : UInt8 := 0x0A

/-- The lines of some bytes, as bytes. -/
def lines (b : Bytes) : List Bytes := splitAt lineFeed b

theorem length_lines (b : Bytes) : b.lines.length = b.count lineFeed + 1 :=
  length_splitAt lineFeed b

/-- **The lines of a decoded text are the decoded lines of its bytes.** -/
theorem linesOf_decode (b : Bytes) : linesOf (decode b) = b.lines.map decode := by
  have hsplit : splitAt '\n' (decodeChars b) = (splitAt lineFeed b).map decodeChars :=
    splitAt_decodeChars (show IsAscii lineFeed by decide) b
  rw [linesOf, decode, String.toList_ofList, hsplit, lines, List.map_map]
  rfl

end SourceChunks.Bytes
