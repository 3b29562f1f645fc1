import SourceChunks.Chunk.Id
import SourceChunks.Proofs.Digest.Hex
import SourceChunks.Proofs.Text.Decoding

/-!
# The digits of an id

The hash of a key is written with two digits for each of its 32 bytes, and the text is cut after
sixteen bytes.  A digit is one byte of text, so the cut falls between two digits and an id is made
of sixteen of them (`ChunkId.truncate?_encode_digest`); and since a byte of the hash has two digits,
these are all digits of the first eight bytes of the hash and no others
(`ChunkId.ofParts_eq_encode`).
-/

namespace SourceChunks

/-- **The text in the first bytes of a text**: all of it if it has no more bytes than that, and none
if the last of them lies inside a character. -/
def truncate? (s : String) (size : Nat) : Option String :=
  Bytes.decode? ((Bytes.encode s).take size)

/-- Characters of one byte are cut where their bytes are cut. -/
theorem Bytes.take_encodeChars {cs : List Char}
    (h : ∀ c ∈ cs, (String.utf8EncodeChar c).length = 1) (size : Nat) :
    (encodeChars cs).take size = encodeChars (cs.take size) := by
  induction cs generalizing size with
  | nil =>
    rw [List.take_nil]
    exact List.take_nil
  | cons c cs ih =>
    rw [List.forall_mem_cons] at h
    obtain ⟨b, hb⟩ := List.length_eq_one_iff.mp h.1
    have hcons : ∀ ds, encodeChars (c :: ds) = b :: encodeChars ds := by
      intro ds
      rw [encodeChars, List.flatMap_cons, hb, List.singleton_append, ← encodeChars]
    cases size with
    | zero => rfl
    | succ size => rw [hcons, List.take_succ_cons, List.take_succ_cons, hcons, ih h.2]

theorem Hex.IsDigit.length_utf8EncodeChar {c : Char} (h : Hex.IsDigit c) :
    (String.utf8EncodeChar c).length = 1 := by
  have hall : "0123456789abcdef".toList.all (fun d => (String.utf8EncodeChar d).length == 1) := by
    decide
  exact eq_of_beq (List.all_eq_true.mp hall c h)

namespace ChunkId

variable {path path' : String} {kind kind' : ChunkKind} {name name' : Option String}
  {start start' : Nat}

/-- **The hash that an id is taken from.** -/
def digest (path : String) (kind : ChunkKind) (name : Option String) (start : Nat) : Bytes :=
  Sha256.digest (Bytes.encode (key path kind name start))

/-- **An id writes the first eight bytes of the hash.** -/
theorem ofParts_eq_encode :
    ofParts path kind name start = Hex.encode ((digest path kind name start).take 8) := by
  rw [ofParts, Hex.encode, ← Hex.take_encodeChars]
  rfl

theorem length_ofParts : (ofParts path kind name start).toList.length = length := by
  rw [ofParts_eq_encode, Hex.encode, String.toList_ofList, Hex.length_encodeChars, List.length_take,
    digest, Sha256.length_digest]
  rfl

/-- **The cut of the written hash succeeds**, and what it leaves is the id. -/
theorem truncate?_encode_digest :
    truncate? (Hex.encode (digest path kind name start)) length
      = some (ofParts path kind name start) := by
  rw [truncate?, Bytes.decode?_eq_some_iff, Bytes.encode, Hex.encode, String.toList_ofList,
    Bytes.take_encodeChars fun c hc => (Hex.isDigit_of_mem_encodeChars c hc).length_utf8EncodeChar]
  rw [Bytes.encode, ofParts, String.toList_ofList]
  rfl

/-- Ids are equal if and only if the hashes begin alike. -/
theorem ofParts_eq_ofParts_iff :
    ofParts path kind name start = ofParts path' kind' name' start' ↔
      (digest path kind name start).take 8 = (digest path' kind' name' start').take 8 := by
  rw [ofParts_eq_encode, ofParts_eq_encode, Hex.encode, Hex.encode, String.ofList_inj,
    Hex.encodeChars_injective.eq_iff]

/-- **Ids are faithful to the hash.**  Hexadecimal text has two lower-case digits for each byte, the
bytes in their order, and is read back as the bytes that it was written from and as no others.  So,
whatever an id is made from, the written hash can be cut after sixteen bytes and the id is what is
left, sixteen lower-case digits; and two ids are equal if and only if the first eight bytes of the
hashes of their keys are. -/
theorem ofParts_faithful :
    (∀ bs : Bytes, (Hex.encode bs).length = 2 * bs.length ∧
      (∀ c ∈ (Hex.encode bs).toList, Hex.IsDigit c) ∧
      ∀ s : String, Hex.decode? s.toList = some bs ↔ s = Hex.encode bs) ∧
    (∀ as bs : Bytes, Hex.encode (as ++ bs) = Hex.encode as ++ Hex.encode bs) ∧
    (∀ (path : String) (kind : ChunkKind) (name : Option String) (start : Nat),
      truncate? (Hex.encode (digest path kind name start)) 16
        = some (ofParts path kind name start) ∧
      (ofParts path kind name start).length = 16 ∧
      ∀ c ∈ (ofParts path kind name start).toList, Hex.IsDigit c) ∧
    ∀ (path path' : String) (kind kind' : ChunkKind) (name name' : Option String)
      (start start' : Nat),
      ofParts path kind name start = ofParts path' kind' name' start' ↔
        (digest path kind name start).take 8 = (digest path' kind' name' start').take 8 := by
  refine ⟨fun bs => ⟨?_, ?_, fun s => ?_⟩, fun as bs => ?_, fun path kind name start => ?_, ?_⟩
  · rw [Hex.encode, String.length_ofList, Hex.length_encodeChars]
  · rw [Hex.encode, String.toList_ofList]
    exact Hex.isDigit_of_mem_encodeChars
  · rw [Hex.decode?_eq_some_iff, Hex.encode, ← String.toList_inj, String.toList_ofList]
  · rw [Hex.encode, Hex.encodeChars_append, String.ofList_append]
    rfl
  · refine ⟨truncate?_encode_digest, ?_, ?_⟩
    · rw [← String.length_toList, length_ofParts]
      rfl
    · rw [ofParts_eq_encode, Hex.encode, String.toList_ofList]
      exact Hex.isDigit_of_mem_encodeChars
  · intro path path' kind kind' name name' start start'
    exact ofParts_eq_ofParts_iff

/-- Small bytes keep their zeros, and two units of one line have ids of their own. -/
theorem ofParts_faithful_smallBytes :
    Hex.encode [0x00, 0x0A, 0xF0] = "000af0" ∧ (∀ c ∈ "000af0".toList, Hex.IsDigit c) ∧
    Hex.decode? "000af0".toList = some [0x00, 0x0A, 0xF0] ∧
    truncate? (Hex.encode (digest "a.py" .function none 0)) 16 = some "ca232e3557d51da1" ∧
    (∀ c ∈ "ca232e3557d51da1".toList, Hex.IsDigit c) ∧
    ofParts "a.py" .function none 0 ≠ ofParts "a.py" .function (some "f") 0 := by
  obtain ⟨hbytes, -, hids, hsame⟩ := ofParts_faithful
  have hsmall : Hex.encode [0x00, 0x0A, 0xF0] = "000af0" := by decide
  have hid : ofParts "a.py" .function none 0 = "ca232e3557d51da1" := by decide +kernel
  obtain ⟨-, hdigits, hread⟩ := hbytes [0x00, 0x0A, 0xF0]
  obtain ⟨hcut, -, hiddigits⟩ := hids "a.py" .function none 0
  rw [hid] at hcut hiddigits
  rw [hsmall] at hdigits
  refine ⟨hsmall, hdigits, (hread _).mpr hsmall.symm, hcut, hiddigits, ?_⟩
  rw [ne_eq, hsame]
  decide +kernel

end ChunkId

end SourceChunks
