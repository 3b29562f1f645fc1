import SourceChunks.Text.Bytes

/-!
# Hexadecimal text

Two lower-case digits for each byte, the high half first, and the way back.
-/

namespace SourceChunks.Hex

/-- The lower-case digit of a value below sixteen. -/
def digit (n : Nat) : Char :=
  if n < 10 then Char.ofNat (0x30 + n) else Char.ofNat (0x57 + n)

/-- The two digits of a byte. -/
def ofByte (b : UInt8) : List Char := [digit (b.toNat / 16), digit (b.toNat % 16)]

/-- The digits of a byte string. -/
def encodeChars (bs : Bytes) : List Char := bs.flatMap ofByte

/-- The digits of a byte string, as text. -/
def encode (bs : Bytes) : String := String.ofList (encodeChars bs)

/-- The value of a lower-case digit. -/
def value? (c : Char) : Option Nat :=
  let n := c.toNat
  if 0x30 ≤ n && n ≤ 0x39 then some (n - 0x30)
  else if 0x61 ≤ n && n ≤ 0x66 then some (n - 0x57)
  else none

/-- The byte string that some digits write, with the bytes read so far in reverse order. -/
def decodeOnto (acc : Bytes) : List Char → Option Bytes
  | [] => some acc.reverse
  | [_] => none
  | hi :: lo :: rest =>
    match value? hi, value? lo with
    | some h, some l => decodeOnto (UInt8.ofNat (h * 16 + l) :: acc) rest
    | _, _ => none

/-- The byte string that some lower-case digits write, two for each byte. -/
def decode? (cs : List Char) : Option Bytes := decodeOnto [] cs

end SourceChunks.Hex
