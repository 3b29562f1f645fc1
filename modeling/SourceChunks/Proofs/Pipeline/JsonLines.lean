import SourceChunks.Pipeline.Sink
import SourceChunks.Proofs.Json.RoundTrip
import SourceChunks.Proofs.Text.Decoding

/-!
# JSON lines decode back to the chunks

A written chunk has no control character in it (`isPrintable_writeChunk`), for whatever its texts
hold is escaped, so the only line feed of its line is the last byte.  Hence the line feeds of an
output can be counted instead of its chunks: any beginning of the output, cut wherever one likes,
has as many complete lines as line feeds, and these are the lines of the first chunks
(`completeLines_of_beginning`).  Each of them is read back (`readLine_lineBody`).

A writer of bytes may take less than it is offered, or nothing, and the sink gives up at its first
refusal.  What an appending writer then holds is a beginning of the whole output
(`ByteWriter.Appends.writeEach`), so the same is true of it.
-/

namespace SourceChunks

namespace Json

/-! ### No control characters -/

/-- **A text without control characters.** -/
def IsPrintable (text : List Char) : Prop := ∀ c ∈ text, 0x20 ≤ c.toNat

instance (text : List Char) : Decidable (IsPrintable text) :=
  List.decidableBAll (fun c : Char => 0x20 ≤ c.toNat) text

theorem isPrintable_cons {c : Char} {text : List Char} :
    IsPrintable (c :: text) ↔ 0x20 ≤ c.toNat ∧ IsPrintable text := List.forall_mem_cons

theorem isPrintable_append {text text' : List Char} :
    IsPrintable (text ++ text') ↔ IsPrintable text ∧ IsPrintable text' := List.forall_mem_append

theorem isPrintable_flatMap {f : α → List Char} {as : List α} (h : ∀ a ∈ as, IsPrintable (f a)) :
    IsPrintable (as.flatMap f) := by
  intro c hc
  obtain ⟨a, ha, hc⟩ := List.mem_flatMap.mp hc
  exact h a ha c hc

/-- **Escaping leaves no control character**, in any of its branches. -/
theorem isPrintable_escape (c : Char) : IsPrintable (escape c) := by
  have hdigit : ∀ n < 16, 0x20 ≤ (Hex.digit n).toNat := by decide
  unfold escape
  split_ifs with hquote hslash hback hform hline hreturn htab hcontrol
  · decide
  · decide
  · decide
  · decide
  · decide
  · decide
  · decide
  · -- the escape that is left writes a control character with digits
    have hhigh := hdigit (c.toNat / 16) (by omega)
    have hlow := hdigit (c.toNat % 16) (by omega)
    simp only [isPrintable_cons]
    exact ⟨by decide, by decide, by decide, by decide, hhigh, hlow, List.forall_mem_nil _⟩
  · rw [isPrintable_cons]
    exact ⟨by omega, List.forall_mem_nil _⟩

theorem isPrintable_writeText (s : String) : IsPrintable (writeText s) := by
  rw [writeText, isPrintable_cons, isPrintable_append]
  exact ⟨by decide, isPrintable_flatMap fun c _ => isPrintable_escape c, by decide⟩

theorem isPrintable_writeNat (n : Nat) : IsPrintable (writeNat n) := by
  intro c hc
  have hdigit := isDigit_of_mem_writeNat hc
  rw [Char.isDigit, Bool.and_eq_true, decide_eq_true_eq, decide_eq_true_eq] at hdigit
  have hle : (48 : Nat) ≤ c.toNat := hdigit.1
  omega

theorem isPrintable_writeOption {write : α → List Char} (h : ∀ a, IsPrintable (write a))
    (a? : Option α) : IsPrintable (writeOption write a?) := by
  cases a? with
  | none => exact (by decide : IsPrintable ['n', 'u', 'l', 'l'])
  | some a => exact h a

theorem isPrintable_separated {items : List (List Char)} (h : ∀ item ∈ items, IsPrintable item) :
    IsPrintable (separated items) := by
  cases items with
  | nil => exact List.forall_mem_nil _
  | cons item items =>
    rw [List.forall_mem_cons] at h
    rw [separated_cons, isPrintable_append]
    refine ⟨h.1, isPrintable_flatMap fun next hnext => ?_⟩
    rw [isPrintable_cons]
    exact ⟨by decide, h.2 next hnext⟩

theorem isPrintable_writeList {write : α → List Char} (h : ∀ a, IsPrintable (write a))
    (as : List α) : IsPrintable (writeList write as) := by
  rw [writeList, isPrintable_cons, isPrintable_append]
  refine ⟨by decide, isPrintable_separated fun item hitem => ?_, by decide⟩
  obtain ⟨a, -, rfl⟩ := List.mem_map.mp hitem
  exact h a

theorem isPrintable_writeObject {fields : List (String × List Char)}
    (h : ∀ m ∈ fields, IsPrintable m.2) : IsPrintable (writeObject fields) := by
  rw [writeObject, isPrintable_cons, isPrintable_append]
  refine ⟨by decide, isPrintable_separated fun item hitem => ?_, by decide⟩
  obtain ⟨m, hm, rfl⟩ := List.mem_map.mp hitem
  rw [member, isPrintable_append, isPrintable_cons]
  exact ⟨isPrintable_writeText m.1, by decide, h m hm⟩

theorem isPrintable_optionalField {name : String} {write : α → List Char} {a? : Option α}
    (h : ∀ a, IsPrintable (write a)) : ∀ m ∈ optionalField name write a?, IsPrintable m.2 := by
  cases a? with
  | none => exact List.forall_mem_nil _
  | some a =>
    intro m hm
    obtain rfl := List.mem_singleton.mp hm
    exact h a

theorem isPrintable_writeMetadata (m : Metadata) : IsPrintable (writeMetadata m) := by
  apply isPrintable_writeObject
  simp only [List.forall_mem_append, List.forall_mem_cons]
  exact ⟨⟨⟨⟨isPrintable_writeList isPrintable_writeText _, isPrintable_writeNat _,
    List.forall_mem_nil _⟩, isPrintable_optionalField isPrintable_writeNat⟩,
    isPrintable_optionalField isPrintable_writeNat⟩,
    isPrintable_optionalField isPrintable_writeText⟩

/-- **A written chunk has no control character in it.** -/
theorem isPrintable_writeChunk (c : Chunk) : IsPrintable (writeChunk c) := by
  apply isPrintable_writeObject
  simp only [List.forall_mem_cons]
  exact ⟨isPrintable_writeText _, isPrintable_writeText _, isPrintable_writeText _,
    isPrintable_writeText _, isPrintable_writeText _,
    isPrintable_writeOption isPrintable_writeText _, isPrintable_writeNat _,
    isPrintable_writeNat _, isPrintable_writeMetadata _, List.forall_mem_nil _⟩

/-- **The bytes of a printable text are no control characters either**: a character of several
bytes has none below `0x80`. -/
theorem IsPrintable.le_of_mem_encodeChars {text : List Char} (h : IsPrintable text) {b : UInt8}
    (hb : b ∈ Bytes.encodeChars text) : 0x20 ≤ b := by
  obtain ⟨c, hc, hb⟩ := List.mem_flatMap.mp hb
  have hle : 0x20 ≤ c.val.toNat := h c hc
  have hbyte : ∀ n, 0x20 ≤ n → n < 256 → 0x20 ≤ UInt8.ofNat n := by
    intro n hn hlt
    have htoNat : (UInt8.ofNat n).toNat = n := UInt8.toNat_ofNat_of_lt hlt
    rw [UInt8.le_iff_toNat_le, htoNat]
    exact hn
  unfold String.utf8EncodeChar at hb
  dsimp only at hb
  split_ifs at hb with hone htwo hthree <;>
    simp only [List.mem_cons, List.not_mem_nil, or_false] at hb
  · rw [hb]
    exact hbyte _ hle (by omega)
  · rcases hb with rfl | rfl <;> exact hbyte _ (by omega) (by omega)
  · rcases hb with rfl | rfl | rfl <;> exact hbyte _ (by omega) (by omega)
  · rcases hb with rfl | rfl | rfl | rfl <;> exact hbyte _ (by omega) (by omega)

/-! ### One line -/

/-- **Decodes a line**: it has to be text, and the text a chunk. -/
def readLine (line : Bytes) : Except ReadError Chunk :=
  match Bytes.decode? line with
  | some s => readAll readChunk s
  | none => .error .malformed

/-- The line of a chunk, up to its line feed. -/
def lineBody (c : Chunk) : Bytes := Bytes.encodeChars (writeChunk c)

theorem le_of_mem_lineBody {c : Chunk} {b : UInt8} (h : b ∈ lineBody c) : 0x20 ≤ b :=
  (isPrintable_writeChunk c).le_of_mem_encodeChars h

theorem lineFeed_not_mem_lineBody (c : Chunk) : Bytes.lineFeed ∉ lineBody c :=
  fun h => absurd (le_of_mem_lineBody h) (by decide)

/-- **The line of a chunk is read back.** -/
theorem readLine_lineBody {c : Chunk} (h : ChunkFits c) : readLine (lineBody c) = .ok c := by
  have htext : lineBody c = Bytes.encode (String.ofList (writeChunk c)) := by
    rw [Bytes.encode, String.toList_ofList, lineBody]
  rw [readLine, Bytes.decode?_eq_some_iff.mpr htext]
  exact readAll_readsBack (readsBack_writeChunk h)

end Json

/-! ### Complete lines -/

namespace Bytes

/-- **The complete lines of some bytes**: all pieces that end in a line feed. -/
def completeLines (b : Bytes) : List Bytes := b.lines.dropLast

/-- Lines, each with a line feed at its end. -/
def framed (bodies : List Bytes) : Bytes := bodies.flatMap (· ++ [lineFeed])

theorem framed_cons (body : Bytes) (bodies : List Bytes) :
    framed (body :: bodies) = body ++ lineFeed :: framed bodies := by
  rw [framed, List.flatMap_cons, List.append_assoc, List.singleton_append, framed]

theorem lines_append_lineFeed {body : Bytes} (h : lineFeed ∉ body) (b : Bytes) :
    (body ++ lineFeed :: b).lines = body :: b.lines := by
  rw [lines, splitAt_append_cons, splitAt_eq_singleton h, List.singleton_append, lines]

theorem lines_ne_nil (b : Bytes) : b.lines ≠ [] := by
  rw [← List.length_pos_iff, length_lines]
  omega

/-- **Framed lines are all complete**, and nothing comes after them. -/
theorem lines_framed {bodies : List Bytes} (h : ∀ body ∈ bodies, lineFeed ∉ body) :
    (framed bodies).lines = bodies ++ [[]] := by
  induction bodies with
  | nil => rfl
  | cons body bodies ih =>
    rw [List.forall_mem_cons] at h
    rw [framed_cons, lines_append_lineFeed h.1, ih h.2, List.cons_append]

/-- **A beginning of framed lines has as many complete lines as line feeds**, and they are the first
ones.  By induction on the lines: the beginning ends inside the first one, or goes past it. -/
theorem completeLines_of_beginning {bodies : List Bytes} (h : ∀ body ∈ bodies, lineFeed ∉ body)
    {b : Bytes} (hb : b <+: framed bodies) :
    b.completeLines = bodies.take (b.count lineFeed) := by
  induction bodies generalizing b with
  | nil =>
    obtain rfl := List.prefix_nil.mp hb
    rfl
  | cons body bodies ih =>
    rw [List.forall_mem_cons] at h
    rw [framed_cons] at hb
    rcases List.prefix_or_prefix_of_prefix hb (List.prefix_append body _) with
      hinside | ⟨after, rfl⟩
    · -- no line is complete
      have hnot : lineFeed ∉ b := fun hmem => h.1 (hinside.subset hmem)
      rw [completeLines, lines, splitAt_eq_singleton hnot, List.count_eq_zero.mpr hnot]
      rfl
    · -- the first line is complete if its line feed is there
      rw [List.prefix_append_right_inj] at hb
      have hzero : body.count lineFeed = 0 := List.count_eq_zero.mpr h.1
      cases after with
      | nil =>
        rw [List.append_nil, completeLines, lines, splitAt_eq_singleton h.1, hzero]
        rfl
      | cons x after =>
        obtain ⟨rfl, hafter⟩ := List.cons_prefix_cons.mp hb
        rw [completeLines, lines_append_lineFeed h.1, List.dropLast_cons_of_ne_nil (lines_ne_nil _),
          ← completeLines, ih h.2 hafter, List.count_append, hzero, List.count_cons_self,
          Nat.zero_add, List.take_succ_cons]

end Bytes

/-! ### Writers that append -/

section Appending

variable {ω : Type} {w : ByteWriter ω} {valid : ω → Prop} {contents : ω → Bytes}

/-- **A writer that appends.**  In its valid states, it adds what it says that it took to what it
holds, and nothing else changes what it holds. -/
structure ByteWriter.Appends (w : ByteWriter ω) (valid : ω → Prop) (contents : ω → Bytes) :
    Prop where
  write_valid : ∀ s bytes, valid s → valid (w.write s bytes).2
  write_ok : ∀ s bytes n, valid s → (w.write s bytes).1 = .ok n →
    contents (w.write s bytes).2 = contents s ++ bytes.take n
  write_error : ∀ s bytes e, valid s → (w.write s bytes).1 = .error e →
    contents (w.write s bytes).2 = contents s
  flush_valid : ∀ s, valid s → valid (w.flush s).2
  flush_contents : ∀ s, valid s → contents (w.flush s).2 = contents s

/-- **What writing comes to**: a beginning of the bytes was added, and all of them if nothing was
refused. -/
structure ByteWriter.Added (contents : ω → Bytes) (before : ω) (bytes : Bytes)
    (refusal? : Option WriteError) (after : ω) : Prop where
  added : ∃ taken, taken <+: bytes ∧ contents after = contents before ++ taken ∧
    (refusal? = none → taken = bytes)

namespace ByteWriter

variable {s after : ω} {bytes : Bytes} {refusal? : Option WriteError}

theorem Added.refused {e : WriteError} (h : contents after = contents s) :
    Added contents s bytes (some e) after :=
  ⟨[], List.nil_prefix, by rw [h, List.append_nil], fun hnone => absurd hnone (by simp)⟩

/-- A piece that was taken whole comes before what is written next. -/
theorem Added.append {middle : ω} {first : Bytes} (hfirst : contents middle = contents s ++ first)
    (h : Added contents middle bytes refusal? after) :
    Added contents s (first ++ bytes) refusal? after := by
  obtain ⟨taken, htaken, hcontents, hall⟩ := h.added
  refine ⟨first ++ taken, (List.prefix_append_right_inj first).mpr htaken, ?_, ?_⟩
  · rw [hcontents, hfirst, List.append_assoc]
  · intro hnone
    rw [hall hnone]

/-- **Offering bytes until all are taken adds a beginning of them.** -/
theorem Appends.writeAllWith (hw : w.Appends valid contents) (fuel : Nat) (hs : valid s)
    (bytes : Bytes) :
    valid (w.writeAllWith fuel s bytes).2 ∧
      Added contents s bytes (w.writeAllWith fuel s bytes).1 (w.writeAllWith fuel s bytes).2 := by
  fun_induction ByteWriter.writeAllWith w fuel s bytes with
  | case1 fuel s => exact ⟨hs, [], List.prefix_refl _, (List.append_nil _).symm, fun _ => rfl⟩
  | case2 s b bytes => exact ⟨hs, .refused rfl⟩
  | case3 fuel s bytes hne e s' hwrite =>
    have hvalid := hw.write_valid s bytes hs
    have hcontents := hw.write_error s bytes e hs (by rw [hwrite])
    rw [hwrite] at hvalid hcontents
    exact ⟨hvalid, .refused hcontents⟩
  | case4 fuel s bytes hne s' hwrite =>
    have hvalid := hw.write_valid s bytes hs
    have hcontents := hw.write_ok s bytes 0 hs (by rw [hwrite])
    rw [hwrite] at hvalid hcontents
    exact ⟨hvalid, .refused (by rw [hcontents, List.take_zero, List.append_nil])⟩
  | case5 fuel s bytes hne n hn s' hwrite ih =>
    have hvalid := hw.write_valid s bytes hs
    have hcontents := hw.write_ok s bytes n hs (by rw [hwrite])
    rw [hwrite] at hvalid hcontents
    obtain ⟨hvalid', hadded⟩ := ih hvalid
    refine ⟨hvalid', ?_⟩
    have hwhole := hadded.append hcontents
    rwa [List.take_append_drop] at hwhole

end ByteWriter

/-! ### The sink -/

/-- **Writes chunks one after the other**, up to the first refusal. -/
def JsonLines.writeEach (w : ByteWriter ω) :
    JsonLines.State ω → List Chunk → Option WriteError × JsonLines.State ω
  | s, [] => (none, s)
  | s, c :: cs =>
    match JsonLines.write w s c with
    | (some e, s) => (some e, s)
    | (none, s) => writeEach w s cs

variable {s : JsonLines.State ω}

/-- **One chunk adds a beginning of its line.** -/
theorem ByteWriter.Appends.write (hw : w.Appends valid contents) (hs : valid s.writer) (c : Chunk) :
    valid (JsonLines.write w s c).2.writer ∧
      Added contents s.writer (Json.chunkLine c) (JsonLines.write w s c).1
        (JsonLines.write w s c).2.writer := by
  obtain ⟨hvalid, hadded⟩ := hw.writeAllWith (Json.chunkLine c).length hs (Json.chunkLine c)
  unfold JsonLines.write ByteWriter.writeAll
  split
  · rename_i e out hwrite
    rw [hwrite] at hvalid hadded
    exact ⟨hvalid, hadded⟩
  · rename_i out hwrite
    rw [hwrite] at hvalid hadded
    have hvalid' := hw.flush_valid out hvalid
    have hcontents := hw.flush_contents out hvalid
    -- flushing leaves the contents alone, and a refusal to flush comes after the whole line
    obtain ⟨taken, htaken, hout, hall⟩ := hadded.added
    split <;> rename_i hflush <;> rw [hflush] at hvalid' hcontents
    · exact ⟨hvalid', taken, htaken, by rw [hcontents, hout], fun _ => hall rfl⟩
    · exact ⟨hvalid', taken, htaken, by rw [hcontents, hout], hall⟩

/-- **Chunks add a beginning of their lines**, and all of them if none was refused.  By induction on
the chunks. -/
theorem ByteWriter.Appends.writeEach (hw : w.Appends valid contents) (hs : valid s.writer)
    (cs : List Chunk) :
    Added contents s.writer (cs.flatMap Json.chunkLine) (JsonLines.writeEach w s cs).1
      (JsonLines.writeEach w s cs).2.writer := by
  induction cs generalizing s with
  | nil => exact ⟨[], List.prefix_refl _, (List.append_nil _).symm, fun _ => rfl⟩
  | cons c cs ih =>
    obtain ⟨hvalid, hadded⟩ := hw.write hs c
    obtain ⟨taken, htaken, hcontents, hall⟩ := hadded.added
    rw [JsonLines.writeEach, List.flatMap_cons]
    split <;> rename_i hwrite <;> rw [hwrite] at hvalid hcontents hall
    · exact ⟨taken, htaken.trans (List.prefix_append _ _), hcontents,
        fun hnone => absurd hnone (by simp)⟩
    · rw [hall rfl] at hcontents
      exact (ih hvalid).append hcontents

end Appending

namespace BoundedBuffer

/-- A buffer that, when full, says that it took nothing. -/
def IsHonest (b : BoundedBuffer) : Prop := ∀ n, b.whenFull = .ok n → n = 0

theorem cut_begins (bound : Option Nat) (bytes : Bytes) : cut bound bytes <+: bytes := by
  cases bound with
  | none => exact List.prefix_refl _
  | some n => exact List.take_prefix n bytes

/-- **Honest buffers append**, whatever their bounds. -/
theorem appends : writer.Appends IsHonest contents where
  write_valid b bytes h := by
    show IsHonest (write b bytes).2
    unfold write
    dsimp only
    split_ifs <;> exact h
  write_ok b bytes n h hn := by
    change (write b bytes).1 = .ok n at hn
    show (write b bytes).2.contents = _
    unfold write at hn ⊢
    dsimp only at hn ⊢
    split_ifs at hn ⊢ with hfull
    · rw [h n hn, List.take_zero, List.append_nil]
    · obtain rfl := Except.ok.inj hn
      have hprefix := (cut_begins (b.capacity.map (· - b.size)) _).trans
        (cut_begins b.maxWrite bytes)
      rw [contents, contents, List.reverse_cons, List.flatten_append, List.flatten_singleton,
        ← List.prefix_iff_eq_take.mp hprefix]
  write_error b bytes e h he := by
    change (write b bytes).1 = .error e at he
    show (write b bytes).2.contents = _
    unfold write at he ⊢
    dsimp only at he ⊢
    split_ifs at he ⊢
    rfl
  flush_valid b h := h
  flush_contents b h := rfl

/-- A buffer without bounds. -/
def IsUnbounded (b : BoundedBuffer) : Prop :=
  b.capacity = none ∧ b.maxWrite = none ∧ b.whenFlushed = none

/-- A buffer without bounds takes all it is offered, at once. -/
theorem IsUnbounded.writeAll {b : BoundedBuffer} (h : b.IsUnbounded) (bytes : Bytes) :
    (writer.writeAll b bytes).1 = none ∧ (writer.writeAll b bytes).2.IsUnbounded := by
  cases bytes with
  | nil => exact ⟨rfl, h⟩
  | cons x bytes =>
    have hwrite : writer.write b (x :: bytes) = (.ok (bytes.length + 1),
        { b with pieces := (x :: bytes) :: b.pieces, size := b.size + (bytes.length + 1) }) := by
      show write b (x :: bytes) = _
      simp only [write, h.1, h.2.1, cut, Option.map_none, List.length_cons, reduceCtorEq, if_false]
    simp only [ByteWriter.writeAll, List.length_cons, ByteWriter.writeAllWith, hwrite,
      List.drop_succ_cons, List.drop_length]
    exact ⟨trivial, h⟩

theorem IsUnbounded.writeEach {s : JsonLines.State BoundedBuffer} (h : s.writer.IsUnbounded)
    (cs : List Chunk) : (JsonLines.writeEach writer s cs).1 = none := by
  induction cs generalizing s with
  | nil => rfl
  | cons c cs ih =>
    obtain ⟨hnone, hafter⟩ := h.writeAll (Json.chunkLine c)
    have hwrite : JsonLines.write writer s c
        = (none, ⟨(writer.writeAll s.writer (Json.chunkLine c)).2, s.written + 1⟩) := by
      unfold JsonLines.write
      split
      · rename_i e out heq
        rw [heq] at hnone
        cases hnone
      · rename_i out heq
        rw [heq] at hafter ⊢
        have hflush : writer.flush out = (none, out) := by
          show (out.whenFlushed, out) = _
          rw [hafter.2.2]
        rw [hflush]
    rw [JsonLines.writeEach, hwrite]
    exact ih hafter

end BoundedBuffer

namespace JsonLines

/-- **The output of the sink**: what it writes into an empty buffer without bounds. -/
def output (cs : List Chunk) : Bytes :=
  (writeEach BoundedBuffer.writer ⟨{}, 0⟩ cs).2.writer.contents

theorem output_eq (cs : List Chunk) : output cs = cs.flatMap Json.chunkLine := by
  have hunbounded : (⟨{}, 0⟩ : State BoundedBuffer).writer.IsUnbounded := ⟨rfl, rfl, rfl⟩
  have hhonest : (⟨{}, 0⟩ : State BoundedBuffer).writer.IsHonest := by
    intro n hn
    cases hn
  obtain ⟨taken, -, hcontents, hall⟩ := (BoundedBuffer.appends.writeEach hhonest cs).added
  rw [output, hcontents, hall (hunbounded.writeEach cs)]
  rfl

theorem output_eq_framed (cs : List Chunk) : output cs = Bytes.framed (cs.map Json.lineBody) := by
  rw [output_eq, Bytes.framed, List.flatMap_map]
  rfl

/-- **Bytes that decode to some chunks**, even when they are cut short. -/
structure DecodesTo (b : Bytes) (cs : List Chunk) : Prop where
  /-- There is one line feed for each chunk. -/
  count_lineFeed : b.count Bytes.lineFeed = cs.length
  /-- No line holds a control character. -/
  printable : ∀ line ∈ b.lines, ∀ x ∈ line, 0x20 ≤ x
  /-- After the last line feed comes nothing. -/
  lines_eq : b.lines = b.completeLines ++ [[]]
  /-- The lines decode to the chunks. -/
  readLine_eq : b.completeLines.map Json.readLine = cs.map Except.ok
  /-- The complete lines of a beginning decode to as many chunks as it has line feeds. -/
  cut_short : ∀ b' : Bytes, b' <+: b →
    b'.completeLines.map Json.readLine = (cs.take (b'.count Bytes.lineFeed)).map Except.ok

theorem lineFeed_not_mem_bodies (cs : List Chunk) :
    ∀ body ∈ cs.map Json.lineBody, Bytes.lineFeed ∉ body := by
  intro body hbody
  obtain ⟨c, -, rfl⟩ := List.mem_map.mp hbody
  exact Json.lineFeed_not_mem_lineBody c

theorem map_readLine_lineBody {cs : List Chunk} (h : ∀ c ∈ cs, Json.ChunkFits c) :
    (cs.map Json.lineBody).map Json.readLine = cs.map Except.ok := by
  rw [List.map_map]
  refine List.map_congr_left fun c hc => ?_
  rw [Function.comp_apply, Json.readLine_lineBody (h c hc)]

theorem readLine_of_beginning {cs : List Chunk} (h : ∀ c ∈ cs, Json.ChunkFits c) {b : Bytes}
    (hb : b <+: output cs) :
    b.completeLines.map Json.readLine = (cs.take (b.count Bytes.lineFeed)).map Except.ok := by
  rw [output_eq_framed] at hb
  rw [Bytes.completeLines_of_beginning (lineFeed_not_mem_bodies cs) hb, ← List.map_take]
  exact map_readLine_lineBody fun c hc => h c (List.mem_of_mem_take hc)

/-- **The output of the sink decodes back to the chunks, even when it is cut short.**  A buffer
without bounds takes all of it; any other writer that appends holds a beginning of it, and all of it
if it refused nothing. -/
theorem output_decodesTo {cs : List Chunk} (h : ∀ c ∈ cs, Json.ChunkFits c) :
    (writeEach BoundedBuffer.writer ⟨{}, 0⟩ cs).1 = none ∧
    DecodesTo (output cs) cs ∧
    ∀ (ω : Type) (w : ByteWriter ω) (valid : ω → Prop) (contents : ω → Bytes) (out : ω),
      w.Appends valid contents → valid out → contents out = [] →
        contents (writeEach w ⟨out, 0⟩ cs).2.writer <+: output cs ∧
        ((writeEach w ⟨out, 0⟩ cs).1 = none →
          contents (writeEach w ⟨out, 0⟩ cs).2.writer = output cs) := by
  have hlines : (output cs).lines = cs.map Json.lineBody ++ [[]] := by
    rw [output_eq_framed, Bytes.lines_framed (lineFeed_not_mem_bodies cs)]
  have hcount : (output cs).count Bytes.lineFeed = cs.length := by
    have hlength := Bytes.length_lines (output cs)
    rw [hlines, List.length_append, List.length_map, List.length_singleton] at hlength
    omega
  have hread := readLine_of_beginning h (List.prefix_refl (output cs))
  rw [hcount, List.take_length] at hread
  refine ⟨?_, ⟨hcount, ?_, ?_, hread, fun b' => readLine_of_beginning h⟩, ?_⟩
  · exact BoundedBuffer.IsUnbounded.writeEach ⟨rfl, rfl, rfl⟩ cs
  · intro line hline x hx
    rw [hlines, List.mem_append, List.mem_singleton] at hline
    rcases hline with hline | rfl
    · obtain ⟨c, -, rfl⟩ := List.mem_map.mp hline
      exact Json.le_of_mem_lineBody hx
    · exact absurd hx List.not_mem_nil
  · rw [Bytes.completeLines, hlines, List.dropLast_concat]
  · intro ω w valid contents out hw hvalid hempty
    have hstate : valid (⟨out, 0⟩ : State ω).writer := hvalid
    obtain ⟨taken, htaken, hcontents, hall⟩ := (hw.writeEach hstate cs).added
    rw [hcontents, output_eq]
    show contents out ++ taken <+: _ ∧ (_ → contents out ++ taken = _)
    rw [hempty, List.nil_append]
    exact ⟨htaken, hall⟩

/-- A chunk with quotes, backslashes, line feeds and control characters in its texts. -/
def awkwardChunk : Chunk where
  id := "0123456789abcdef"
  filepath := "a\\b.py"
  content := "x = \"\n\x01\"\x0d\n"
  language := "python"
  kind := .function
  name := none
  lineStart := 1
  lineEnd := 18446744073709551615
  metadata := { imports := ["import \"os\""], fileSize := 9, chunkSize := some 9 }

/-- Two such chunks, and a buffer that has room for a hundred bytes of their output. -/
theorem output_decodesTo_awkwardChunk :
    (∀ c ∈ [awkwardChunk, awkwardChunk], Json.ChunkFits c) ∧
    DecodesTo (output [awkwardChunk, awkwardChunk]) [awkwardChunk, awkwardChunk] ∧
    (writeEach BoundedBuffer.writer ⟨{ capacity := some 100 }, 0⟩
      [awkwardChunk, awkwardChunk]).2.writer.contents <+: output [awkwardChunk, awkwardChunk] := by
  have hmetadata : Json.MetadataFits awkwardChunk.metadata := by
    refine ⟨by decide, ?_, fun n hn => absurd hn (Option.not_mem_none n)⟩
    intro n hn
    obtain rfl := Option.some.inj hn
    decide
  have hfits : ∀ c ∈ [awkwardChunk, awkwardChunk], Json.ChunkFits c := by
    intro c hc
    obtain rfl : c = awkwardChunk := by simpa using hc
    exact ⟨by decide, by decide, hmetadata⟩
  have hdecodes := output_decodesTo hfits
  refine ⟨hfits, hdecodes.2.1, ?_⟩
  exact (hdecodes.2.2 _ _ _ _ _ BoundedBuffer.appends (fun n hn => by cases hn) rfl).1

end JsonLines

end SourceChunks
