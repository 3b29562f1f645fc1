import SourceChunks.Proofs.Text.Decoding
import Mathlib.Algebra.BigOperators.Group.List.Basic
import Mathlib.Algebra.GroupWithZero.Nat
import Mathlib.Data.List.Flatten

/-!
# The parts that characters are read from

Decoding reads one character after the other, each from a part of the bytes (`parts`).  A part is
either the encoding of its character, or it is no text and its character is U+FFFD
(`firstPart_cases`); the latter are the `brokenParts`.  A broken part has at most three bytes and
its replacement has three, so bytes that are decoded and encoded again never become fewer, and the
`surplus` counts how many are added (`length_encode_decode`).
-/

namespace SourceChunks.Bytes

/-! ### Encoding undoes decoding, character by character -/

theorem utf8EncodeChar_ofNat {n : Nat} (h : n.isValidChar) :
    String.utf8EncodeChar (Char.ofNat n) =
      if n ≤ 127 then [UInt8.ofNat n]
      else if n ≤ 2047 then [UInt8.ofNat (n / 64 % 32 + 192), UInt8.ofNat (n % 64 + 128)]
      else if n ≤ 65535 then
        [UInt8.ofNat (n / 4096 % 16 + 224), UInt8.ofNat (n / 64 % 64 + 128),
          UInt8.ofNat (n % 64 + 128)]
      else
        [UInt8.ofNat (n / 262144 % 8 + 240), UInt8.ofNat (n / 4096 % 64 + 128),
          UInt8.ofNat (n / 64 % 64 + 128), UInt8.ofNat (n % 64 + 128)] := by
  have hval : (Char.ofNat n).val.toNat = n := by
    rw [Char.ofNat, dif_pos h]
    rfl
  rw [String.utf8EncodeChar, hval]

theorem ofNat_eq_of_toNat {n : Nat} {b : UInt8} (h : n = b.toNat) : UInt8.ofNat n = b := by
  rw [h]
  exact UInt8.ofNat_toNat

/-- **A lead byte and a tail that fits are the encoding of their character**: the tests let no
overlong form pass. -/
theorem utf8EncodeChar_charOf {b₀ : UInt8} {ts : List (UInt8 → Bool)} {taken : Bytes}
    (hts : tailTests? b₀ = some ts) (h : List.Forall₂ (fun t b => t b = true) ts taken) :
    String.utf8EncodeChar (charOf b₀ taken) = b₀ :: taken := by
  rw [tailTests?_eq] at hts
  split_ifs at hts with hone htwo hthree hfour
  · obtain rfl := Option.some.inj hts
    cases h
    rw [charOf, utf8EncodeChar_ofNat (Or.inl (by omega)), if_pos (by omega),
      ofNat_eq_of_toNat rfl]
  · obtain rfl := Option.some.inj hts
    rcases h with _ | ⟨h₁, _ | _⟩
    rename_i b₁
    rw [isContinuation_iff] at h₁
    rw [charOf, charOfTwo, payload, utf8EncodeChar_ofNat (Or.inl (by omega)), if_neg (by omega),
      if_pos (by omega), ofNat_eq_of_toNat (b := b₀) (by omega),
      ofNat_eq_of_toNat (b := b₁) (by omega)]
  · obtain rfl := Option.some.inj hts
    rcases h with _ | ⟨h₁, _ | ⟨h₂, _ | _⟩⟩
    rename_i b₁ b₂
    rw [secondOfThree_iff] at h₁
    rw [isContinuation_iff] at h₂
    -- the second byte keeps the number out of the surrogates
    have hvalid : (b₀.toNat % 0x10 * 0x1000 + b₁.toNat % 0x40 * 0x40
        + b₂.toNat % 0x40).isValidChar := by
      unfold Nat.isValidChar
      omega
    rw [charOf, charOfThree, payload, payload, utf8EncodeChar_ofNat hvalid, if_neg (by omega),
      if_neg (by omega), if_pos (by omega), ofNat_eq_of_toNat (b := b₀) (by omega),
      ofNat_eq_of_toNat (b := b₁) (by omega), ofNat_eq_of_toNat (b := b₂) (by omega)]
  · obtain rfl := Option.some.inj hts
    rcases h with _ | ⟨h₁, _ | ⟨h₂, _ | ⟨h₃, _ | _⟩⟩⟩
    rename_i b₁ b₂ b₃
    rw [secondOfFour_iff] at h₁
    rw [isContinuation_iff] at h₂ h₃
    have hvalid : (b₀.toNat % 8 * 0x40000 + b₁.toNat % 0x40 * 0x1000 + b₂.toNat % 0x40 * 0x40
        + b₃.toNat % 0x40).isValidChar := by
      unfold Nat.isValidChar
      omega
    rw [charOf, charOfFour, payload, payload, payload, utf8EncodeChar_ofNat hvalid,
      if_neg (by omega), if_neg (by omega), if_neg (by omega),
      ofNat_eq_of_toNat (b := b₀) (by omega), ofNat_eq_of_toNat (b := b₁) (by omega),
      ofNat_eq_of_toNat (b := b₂) (by omega), ofNat_eq_of_toNat (b := b₃) (by omega)]

/-! ### One part -/

/-- Bytes that pass all tests come first, and the others remain. -/
theorem follow_some_append {ts : List (UInt8 → Bool)} {r taken : Bytes}
    (h : (follow ts r).1 = some taken) : taken ++ (follow ts r).2 = r := by
  fun_induction follow ts r generalizing taken with
  | case1 r =>
    obtain rfl := Option.some.inj h
    rfl
  | case2 => cases h
  | case3 t ts b r ht ih =>
    obtain ⟨rest, hrest, rfl⟩ := Option.map_eq_some_iff.mp h
    rw [List.cons_append, ih hrest]
  | case4 => cases h

/-- Where a test fails, fewer bytes than tests have passed, and they fail on their own as well. -/
theorem exists_of_follow_none {ts : List (UInt8 → Bool)} {r : Bytes}
    (h : (follow ts r).1 = none) :
    ∃ taken, taken ++ (follow ts r).2 = r ∧ taken.length < ts.length ∧
      follow ts taken = (none, []) := by
  fun_induction follow ts r with
  | case1 r => cases h
  | case2 t ts => exact ⟨[], rfl, Nat.succ_pos _, rfl⟩
  | case3 t ts b r ht ih =>
    obtain ⟨taken, happend, hlength, hfollow⟩ := ih (Option.map_eq_none_iff.mp h)
    refine ⟨b :: taken, by rw [List.cons_append, happend], by simpa using hlength, ?_⟩
    rw [follow, if_pos ht, hfollow]
    rfl
  | case4 t ts b r ht => exact ⟨[], rfl, Nat.succ_pos _, rfl⟩

theorem length_tailTests? {b₀ : UInt8} {ts : List (UInt8 → Bool)} (h : tailTests? b₀ = some ts) :
    ts.length ≤ 3 := by
  unfold tailTests? at h
  split_ifs at h
  all_goals
    obtain rfl := Option.some.inj h
    simp

/-- The bytes that the first character is read from. -/
def firstPart (b₀ : UInt8) (r₀ : Bytes) : Bytes :=
  b₀ :: r₀.take (r₀.length - (decodeFirst b₀ r₀).2.length)

theorem firstPart_eq {b₀ : UInt8} {r₀ taken : Bytes}
    (h : taken ++ (decodeFirst b₀ r₀).2 = r₀) : firstPart b₀ r₀ = b₀ :: taken := by
  have hlength := congrArg List.length h
  rw [List.length_append] at hlength
  have htake : r₀.take (r₀.length - (decodeFirst b₀ r₀).2.length) = taken := by
    rw [show r₀.length - (decodeFirst b₀ r₀).2.length = taken.length by omega]
    conv_lhs => rw [← h]
    exact List.take_left
  rw [firstPart, htake]

theorem firstPart_append (b₀ : UInt8) (r₀ : Bytes) :
    firstPart b₀ r₀ ++ (decodeFirst b₀ r₀).2 = b₀ :: r₀ := by
  obtain ⟨taken, htaken⟩ := decodeFirst_suffix b₀ r₀
  rw [firstPart_eq htaken, List.cons_append, htaken]

/-- **Bytes that are no text**: encoding what they decode to gives other bytes. -/
def isBroken (part : Bytes) : Bool := (decode? part).isNone

theorem isBroken_iff {part : Bytes} :
    isBroken part = true ↔ encodeChars (decodeChars part) ≠ part := by
  have hencode : encode (decode part) = encodeChars (decodeChars part) := by
    rw [encode, decode, String.toList_ofList]
  unfold isBroken decode?
  rw [hencode]
  split_ifs with h <;> simp [h]

theorem length_encodeChars_replacement : (encodeChars [replacement]).length = 3 := by decide

/-- **The first part is its character, or it is broken.** -/
theorem firstPart_cases (b₀ : UInt8) (r₀ : Bytes) :
    (isBroken (firstPart b₀ r₀) = false ∧
      encodeChars [(decodeFirst b₀ r₀).1] = firstPart b₀ r₀) ∨
    (isBroken (firstPart b₀ r₀) = true ∧ (decodeFirst b₀ r₀).1 = replacement ∧
      0 < (firstPart b₀ r₀).length ∧ (firstPart b₀ r₀).length ≤ 3) := by
  cases hts : tailTests? b₀ with
  | none =>
    -- one byte that begins no character
    have hfirst : ∀ r, decodeFirst b₀ r = (replacement, r) := fun r => by rw [decodeFirst, hts]
    have hpart : firstPart b₀ r₀ = [b₀] := firstPart_eq (by rw [hfirst]; rfl)
    have hdecode : decodeChars [b₀] = [replacement] := by
      rw [decodeChars_cons, hfirst, decodeChars_nil]
    refine Or.inr ⟨?_, by rw [hfirst], by simp [hpart], by simp [hpart]⟩
    rw [isBroken_iff, hpart, hdecode]
    intro h
    have hlength := congrArg List.length h
    rw [length_encodeChars_replacement] at hlength
    cases hlength
  | some ts =>
    have hfirst : ∀ r, decodeFirst b₀ r
        = (((follow ts r).1.map (charOf b₀)).getD replacement, (follow ts r).2) := fun r => by
      rw [decodeFirst, hts]
    cases hfollow : (follow ts r₀).1 with
    | some taken =>
      have hpart : firstPart b₀ r₀ = b₀ :: taken :=
        firstPart_eq (by rw [hfirst]; exact follow_some_append hfollow)
      have hencode : encodeChars [(decodeFirst b₀ r₀).1] = firstPart b₀ r₀ := by
        rw [hpart, hfirst, hfollow, encodeChars, List.flatMap_singleton]
        exact utf8EncodeChar_charOf hts (forall₂_of_follow hfollow)
      refine Or.inl ⟨?_, hencode⟩
      rw [Bool.eq_false_iff, ne_eq, isBroken_iff, not_not, ← hencode, decodeChars_encodeChars]
    | none =>
      obtain ⟨taken, happend, hlength, hshort⟩ := exists_of_follow_none hfollow
      have hpart : firstPart b₀ r₀ = b₀ :: taken := firstPart_eq (by rw [hfirst]; exact happend)
      have hdecode : decodeChars (b₀ :: taken) = [replacement] := by
        rw [decodeChars_cons, hfirst, hshort]
        exact congrArg (replacement :: ·) decodeChars_nil
      have hthree := length_tailTests? hts
      refine Or.inr ⟨?_, by rw [hfirst, hfollow]; rfl, by rw [hpart]; exact Nat.succ_pos _, ?_⟩
      · -- the replacement itself is text, so the tests would have passed
        rw [isBroken_iff, hpart, hdecode]
        intro h
        obtain ⟨rfl, rfl⟩ := List.cons.inj h
        obtain rfl := Option.some.inj hts
        cases hshort
      · rw [hpart, List.length_cons]
        omega

/-! ### All parts -/

/-- **The parts of some bytes**: decoding reads one character from each. -/
def parts : Bytes → List Bytes
  | [] => []
  | b₀ :: r₀ => firstPart b₀ r₀ :: parts (decodeFirst b₀ r₀).2
termination_by b => b.length
decreasing_by
  have := (decodeFirst_suffix b₀ r₀).length_le
  rw [List.length_cons]
  omega

/-- The parts are all of the bytes. -/
theorem flatten_parts (b : Bytes) : (parts b).flatten = b := by
  induction b using decode_induction with
  | nil => rw [parts, List.flatten_nil]
  | cons b₀ r₀ ih => rw [parts, List.flatten_cons, ih, firstPart_append]

/-- **The broken parts**: each is read as U+FFFD. -/
def brokenParts (b : Bytes) : List Bytes := (parts b).filter isBroken

theorem length_of_mem_brokenParts {b part : Bytes} (h : part ∈ brokenParts b) :
    0 < part.length ∧ part.length ≤ 3 := by
  obtain ⟨hmem, hbroken⟩ := List.mem_filter.mp h
  clear h
  induction b using decode_induction with
  | nil =>
    rw [parts] at hmem
    cases hmem
  | cons b₀ r₀ ih =>
    rw [parts] at hmem
    rcases List.mem_cons.mp hmem with rfl | hmem
    · obtain ⟨hwhole, -⟩ | ⟨-, -, hpos, hle⟩ := firstPart_cases b₀ r₀
      · rw [hwhole] at hbroken
        cases hbroken
      · exact ⟨hpos, hle⟩
    · exact ih hmem

/-- Bytes that decoding adds: the replacement of a broken part has three bytes. -/
def surplus (b : Bytes) : Nat := ((brokenParts b).map fun part => 3 - part.length).sum

/-- **Decoding adds the surplus**, and no byte otherwise. -/
theorem length_encode_decode (b : Bytes) : (encode (decode b)).length = b.length + surplus b := by
  rw [encode, decode, String.toList_ofList]
  induction b using decode_induction with
  | nil => rw [decodeChars_nil, surplus, brokenParts, parts]; rfl
  | cons b₀ r₀ ih =>
    have hlength := congrArg List.length (firstPart_append b₀ r₀)
    have hcons : ∀ c cs, (encodeChars (c :: cs)).length
        = (encodeChars [c]).length + (encodeChars cs).length := by
      intro c cs
      rw [← List.length_append, encodeChars, encodeChars, encodeChars, ← List.flatMap_append]
      rfl
    rw [List.length_append] at hlength
    rw [decodeChars_cons, hcons, ih, ← hlength, surplus, surplus, brokenParts, brokenParts]
    rw [parts.eq_def (b₀ :: r₀)]
    obtain ⟨hwhole, hencode⟩ | ⟨hbroken, hchar, hpos, hle⟩ := firstPart_cases b₀ r₀
    · rw [List.filter_cons_of_neg (by rw [hwhole]; exact Bool.false_ne_true), hencode]
      omega
    · rw [List.filter_cons_of_pos hbroken, List.map_cons, List.sum_cons, hchar,
        length_encodeChars_replacement]
      omega

theorem surplus_eq_zero_iff {b : Bytes} :
    surplus b = 0 ↔ ∀ part ∈ brokenParts b, part.length = 3 := by
  rw [surplus, List.sum_eq_zero_iff_forall_eq_nat, List.forall_mem_map]
  refine forall₂_congr fun part hpart => ?_
  have := (length_of_mem_brokenParts hpart).2
  omega

/-- The surplus is at most twice the number of bytes: the shortest broken part has one. -/
theorem surplus_le (b : Bytes) : surplus b ≤ 2 * b.length := by
  have hsum : ∀ ps : List Bytes, (∀ part ∈ ps, 0 < part.length) →
      (ps.map fun part => 3 - part.length).sum ≤ 2 * ps.flatten.length := by
    intro ps hps
    induction ps with
    | nil => exact Nat.le_refl 0
    | cons part ps ih =>
      rw [List.forall_mem_cons] at hps
      have := ih hps.2
      rw [List.map_cons, List.sum_cons, List.flatten_cons, List.length_append]
      omega
  have hbroken := hsum (brokenParts b) fun part hpart => (length_of_mem_brokenParts hpart).1
  have hall : (brokenParts b).flatten.length ≤ b.length := by
    conv_rhs => rw [← flatten_parts b]
    exact (List.filter_sublist.flatten).length_le
  rw [surplus]
  omega

/-- Text has no broken part. -/
theorem surplus_of_decode? {b : Bytes} (h : (decode? b).isSome = true) : surplus b = 0 := by
  have hencode : encode (decode b) = b := by
    unfold decode? at h
    split_ifs at h with htext
    · exact htext
    · cases h
  have hlength := length_encode_decode b
  rw [hencode] at hlength
  omega

/-- The bytes of a text in memory are those of its encoding. -/
theorem length_encode (s : String) : (encode s).length = s.utf8ByteSize := by
  have hbytes : s.toByteArray = (encode s).toByteArray := by
    conv_lhs => rw [← String.ofList_toList (s := s)]
    exact String.toByteArray_ofList
  rw [← List.size_toByteArray, ← hbytes]
  rfl

end SourceChunks.Bytes
