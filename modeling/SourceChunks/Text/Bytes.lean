/-!
# Bytes and the text they hold

Files and file names are plain bytes; every answer is text.  `Bytes.decode` reads bytes as UTF-8
and puts one U+FFFD in the place of each maximal invalid part: the longest run of bytes that
begins a character and cannot be completed, or one byte that begins none.  `Bytes.encode` is the
way back, and bytes are valid exactly when encoding what was decoded gives them again.
-/

namespace SourceChunks

/-- Raw bytes, as a file or a file name holds them. -/
abbrev Bytes := List UInt8

namespace Bytes

/-- The character that stands for bytes that are no text. -/
def replacement : Char := '\uFFFD'

/-- The UTF-8 bytes of a list of characters. -/
def encodeChars (cs : List Char) : Bytes := cs.flatMap String.utf8EncodeChar

/-- The UTF-8 bytes of a text. -/
def encode (s : String) : Bytes := encodeChars s.toList

/-- A byte that continues a character (`10xxxxxx`). -/
def isContinuation (b : UInt8) : Bool := 0x80 ≤ b && b ≤ 0xBF

/-- The six payload bits of a continuation byte. -/
def payload (b : UInt8) : Nat := b.toNat % 0x40

/-- May `b₁` follow the lead byte `b₀` of a three-byte character?  Overlong forms and surrogates
are excluded by the second byte. -/
def secondOfThree (b₀ b₁ : UInt8) : Bool :=
  isContinuation b₁ && (b₀ != 0xE0 || 0xA0 ≤ b₁) && (b₀ != 0xED || b₁ ≤ 0x9F)

/-- May `b₁` follow the lead byte `b₀` of a four-byte character?  Overlong forms and code points
above U+10FFFF are excluded by the second byte. -/
def secondOfFour (b₀ b₁ : UInt8) : Bool :=
  isContinuation b₁ && (b₀ != 0xF0 || 0x90 ≤ b₁) && (b₀ != 0xF4 || b₁ ≤ 0x8F)

/-- The character written by a two-byte sequence. -/
def charOfTwo (b₀ b₁ : UInt8) : Char := Char.ofNat (b₀.toNat % 0x20 * 0x40 + payload b₁)

/-- The character written by a three-byte sequence. -/
def charOfThree (b₀ b₁ b₂ : UInt8) : Char :=
  Char.ofNat (b₀.toNat % 0x10 * 0x1000 + payload b₁ * 0x40 + payload b₂)

/-- The character written by a four-byte sequence. -/
def charOfFour (b₀ b₁ b₂ b₃ : UInt8) : Char :=
  Char.ofNat (b₀.toNat % 8 * 0x40000 + payload b₁ * 0x1000 + payload b₂ * 0x40 + payload b₃)

/-- **Lossy decoding**, with the characters read so far in reverse order in `acc`. -/
def decodeOnto (acc : List Char) : Bytes → List Char
  | [] => acc.reverse
  | b₀ :: r₀ =>
    if b₀ < 0x80 then decodeOnto (Char.ofNat b₀.toNat :: acc) r₀
    else if 0xC2 ≤ b₀ && b₀ ≤ 0xDF then
      match r₀ with
      | [] => (replacement :: acc).reverse
      | b₁ :: r₁ =>
        if isContinuation b₁ then decodeOnto (charOfTwo b₀ b₁ :: acc) r₁
        else decodeOnto (replacement :: acc) (b₁ :: r₁)
    else if 0xE0 ≤ b₀ && b₀ ≤ 0xEF then
      match r₀ with
      | [] => (replacement :: acc).reverse
      | b₁ :: r₁ =>
        if secondOfThree b₀ b₁ then
          match r₁ with
          | [] => (replacement :: acc).reverse
          | b₂ :: r₂ =>
            if isContinuation b₂ then decodeOnto (charOfThree b₀ b₁ b₂ :: acc) r₂
            else decodeOnto (replacement :: acc) (b₂ :: r₂)
        else decodeOnto (replacement :: acc) (b₁ :: r₁)
    else if 0xF0 ≤ b₀ && b₀ ≤ 0xF4 then
      match r₀ with
      | [] => (replacement :: acc).reverse
      | b₁ :: r₁ =>
        if secondOfFour b₀ b₁ then
          match r₁ with
          | [] => (replacement :: acc).reverse
          | b₂ :: r₂ =>
            if isContinuation b₂ then
              match r₂ with
              | [] => (replacement :: acc).reverse
              | b₃ :: r₃ =>
                if isContinuation b₃ then decodeOnto (charOfFour b₀ b₁ b₂ b₃ :: acc) r₃
                else decodeOnto (replacement :: acc) (b₃ :: r₃)
            else decodeOnto (replacement :: acc) (b₂ :: r₂)
        else decodeOnto (replacement :: acc) (b₁ :: r₁)
    else decodeOnto (replacement :: acc) r₀

/-- The characters that `b` holds, with U+FFFD for each maximal invalid part. -/
def decodeChars (b : Bytes) : List Char := decodeOnto [] b

/-- The text that `b` holds, with U+FFFD for each maximal invalid part. -/
def decode (b : Bytes) : String := String.ofList (decodeChars b)

/-- The text that `b` holds, if `b` is valid UTF-8. -/
def decode? (b : Bytes) : Option String :=
  if encode (decode b) = b then some (decode b) else none

/-- Byte-by-byte order: the first difference decides, and a proper beginning comes first. -/
def le : Bytes → Bytes → Bool
  | [], _ => true
  | _ :: _, [] => false
  | a :: as, b :: bs => a < b || (a == b && le as bs)

end Bytes

end SourceChunks
