import SourceChunks.Digest.Hex
import SourceChunks.Digest.Sha256
import Mathlib.Data.List.Basic

/-!
# Two digits for each byte

Hexadecimal text is read back exactly: `decode?` accepts what `encodeChars` writes and nothing else
(`decode?_eq_some_iff`).  Since every byte has two digits, also a small one, the digits of a byte
string are cut after an even number of them where its bytes are cut (`take_encodeChars`).
-/

namespace SourceChunks.Hex

/-- **A lower-case hexadecimal digit.** -/
def IsDigit (c : Char) : Prop := c ∈ "0123456789abcdef".toList

instance (c : Char) : Decidable (IsDigit c) :=
  inferInstanceAs (Decidable (c ∈ "0123456789abcdef".toList))

/-! ### Digits -/

section Digits

variable {c hi lo : Char} {n : Nat}

theorem isDigit_digit (h : n < 16) : IsDigit (digit n) := by
  have hall : ∀ m < 16, IsDigit (digit m) := by decide
  exact hall n h

theorem value?_digit (h : n < 16) : value? (digit n) = some n := by
  have hall : ∀ m < 16, value? (digit m) = some m := by decide
  exact hall n h

/-- **A character has a value if it is the digit of that value.** -/
theorem value?_eq_some_iff : value? c = some n ↔ n < 16 ∧ c = digit n := by
  constructor
  · intro h
    simp only [value?, Bool.and_eq_true, decide_eq_true_eq] at h
    split_ifs at h with hdecimal hletter
    · obtain rfl := Option.some.inj h
      have hchar : 0x30 + (c.toNat - 0x30) = c.toNat := by omega
      refine ⟨by omega, ?_⟩
      rw [digit, if_pos (by omega), hchar, Char.ofNat_toNat]
    · obtain rfl := Option.some.inj h
      have hchar : 0x57 + (c.toNat - 0x57) = c.toNat := by omega
      refine ⟨by omega, ?_⟩
      rw [digit, if_neg (by omega), hchar, Char.ofNat_toNat]
  · rintro ⟨hn, rfl⟩
    exact value?_digit hn

theorem digits_of_byte (b : UInt8) :
    value? (digit (b.toNat / 16)) = some (b.toNat / 16) ∧
      value? (digit (b.toNat % 16)) = some (b.toNat % 16) ∧
      UInt8.ofNat (b.toNat / 16 * 16 + b.toNat % 16) = b := by
  have hbyte : b.toNat < 256 := b.toNat_lt
  refine ⟨value?_digit (by omega), value?_digit (by omega), ?_⟩
  rw [show b.toNat / 16 * 16 + b.toNat % 16 = b.toNat by omega, UInt8.ofNat_toNat]

/-- Two digits are those of the byte that they are read as. -/
theorem ofByte_of_values {h l : Nat} (hhi : value? hi = some h) (hlo : value? lo = some l) :
    ofByte (UInt8.ofNat (h * 16 + l)) = [hi, lo] := by
  obtain ⟨hh, rfl⟩ := value?_eq_some_iff.mp hhi
  obtain ⟨hl, rfl⟩ := value?_eq_some_iff.mp hlo
  have hbyte : (UInt8.ofNat (h * 16 + l)).toNat = h * 16 + l :=
    UInt8.toNat_ofNat_of_lt (show h * 16 + l < 256 by omega)
  rw [ofByte, hbyte, show (h * 16 + l) / 16 = h by omega, show (h * 16 + l) % 16 = l by omega]

end Digits

/-! ### Byte strings -/

section Strings

variable {acc bs : Bytes} {cs : List Char}

theorem encodeChars_cons (b : UInt8) (bs : Bytes) :
    encodeChars (b :: bs) = digit (b.toNat / 16) :: digit (b.toNat % 16) :: encodeChars bs := rfl

theorem encodeChars_append (as bs : Bytes) :
    encodeChars (as ++ bs) = encodeChars as ++ encodeChars bs := List.flatMap_append

theorem length_encodeChars (bs : Bytes) : (encodeChars bs).length = 2 * bs.length := by
  induction bs with
  | nil => rfl
  | cons b bs ih =>
    rw [encodeChars_cons, List.length_cons, List.length_cons, List.length_cons, ih]
    omega

theorem isDigit_of_mem_encodeChars : ∀ c ∈ encodeChars bs, IsDigit c := by
  intro c hc
  obtain ⟨b, -, hc⟩ := List.mem_flatMap.mp hc
  have hbyte : b.toNat < 256 := b.toNat_lt
  rcases List.mem_pair.mp hc with rfl | rfl
  · exact isDigit_digit (by omega)
  · exact isDigit_digit (by omega)

/-- The digits of the first bytes are the first digits. -/
theorem take_encodeChars (n : Nat) (bs : Bytes) :
    (encodeChars bs).take (2 * n) = encodeChars (bs.take n) := by
  induction n generalizing bs with
  | zero => rfl
  | succ n ih =>
    cases bs with
    | nil => rfl
    | cons b bs =>
      rw [Nat.mul_succ, encodeChars_cons, List.take_succ_cons, List.take_succ_cons, ih,
        List.take_succ_cons, encodeChars_cons]

theorem decodeOnto_encodeChars (acc bs : Bytes) :
    decodeOnto acc (encodeChars bs) = some (acc.reverse ++ bs) := by
  induction bs generalizing acc with
  | nil =>
    rw [List.append_nil]
    rfl
  | cons b bs ih =>
    obtain ⟨hhi, hlo, hbyte⟩ := digits_of_byte b
    rw [encodeChars_cons, decodeOnto, hhi, hlo]
    dsimp only
    rw [hbyte, ih, List.reverse_cons, List.append_assoc, List.singleton_append]

/-- What is read was written by the digits: none is passed over. -/
theorem exists_of_decodeOnto (h : decodeOnto acc cs = some bs) :
    ∃ rest, bs = acc.reverse ++ rest ∧ cs = encodeChars rest := by
  fun_induction decodeOnto acc cs with
  | case1 acc => exact ⟨[], by rw [← Option.some.inj h, List.append_nil], rfl⟩
  | case2 => cases h
  | case3 acc hi lo cs high low hlo hhi ih =>
    obtain ⟨rest, rfl, rfl⟩ := ih h
    refine ⟨UInt8.ofNat (high * 16 + low) :: rest, ?_, ?_⟩
    · rw [List.reverse_cons, List.append_assoc, List.singleton_append]
    · show hi :: lo :: encodeChars rest = ofByte _ ++ encodeChars rest
      rw [ofByte_of_values hhi hlo]
      rfl
  | case4 => cases h

/-- **Reading accepts exactly what writing produces.** -/
theorem decode?_eq_some_iff : decode? cs = some bs ↔ cs = encodeChars bs := by
  constructor
  · intro h
    obtain ⟨rest, hbs, hcs⟩ := exists_of_decodeOnto h
    rw [hcs, hbs, List.reverse_nil, List.nil_append]
  · rintro rfl
    exact decodeOnto_encodeChars [] bs

theorem encodeChars_injective : Function.Injective encodeChars := by
  intro as bs h
  have hread := decode?_eq_some_iff.mpr h
  rw [decode?_eq_some_iff.mpr rfl] at hread
  exact Option.some.inj hread

end Strings

end SourceChunks.Hex

namespace SourceChunks.Sha256

theorem State.length_bytes (s : State) : s.bytes.length = 32 := rfl

/-- **A hash has 32 bytes.** -/
theorem length_digest (m : Bytes) : (digest m).length = 32 := State.length_bytes _

end SourceChunks.Sha256
