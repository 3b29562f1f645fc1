import SourceChunks.Json.Records
import Mathlib.Data.List.Basic

/-!
# What is written can be read back

A reader takes a value from the front of a text, so a round trip is stated with a rest: `ReadsBack`
says that a reader, put before a written value and any rest that may follow a value, returns the
value and the rest.  The rest matters for numbers, which end only where something else begins.

Records are read into drafts.  `Fills` follows the drafts from field to field of a written object,
and `readsBack_writeObject` turns it into a round trip of the record.  With it, chunks come down to
their fields: every text, with any characters in it, every number of 64 bits, and every choice of
optional facts (`readsBack_writeChunk`).
-/

namespace SourceChunks.Json

/-- What may follow a value: nothing, a comma or a closing bracket. -/
def Delimited (rest : List Char) : Prop := ∀ c ∈ rest.head?, c = ',' ∨ c = ']' ∨ c = '\x7d'

/-- **A reader reads a value back** from its text, whatever follows it. -/
def ReadsBack (read : Reader α) (text : List Char) (a : α) : Prop :=
  ∀ rest, Delimited rest → read (text ++ rest) = .ok (a, rest)

/-- A text that no reader of arrays or optional values takes for something else: it begins neither
with a blank nor with a closing bracket nor with the letter of `null`. -/
def IsOpen (text : List Char) : Prop :=
  ∃ c cs, text = c :: cs ∧ isSpace c = false ∧ c ≠ ']' ∧ c ≠ 'n'

theorem skipSpaces_cons {c : Char} (h : isSpace c = false) (cs : List Char) :
    skipSpaces (c :: cs) = c :: cs := by
  rw [skipSpaces, List.dropWhile_cons_of_neg (by rw [h]; exact Bool.false_ne_true)]

/-! ### Quoted texts -/

/-- The four digits of an escaped control character are read back. -/
theorem hexValueOf?_digits {n : Nat} (h : n < 0x20) :
    hexValueOf? '0' '0' (Hex.digit (n / 16)) (Hex.digit (n % 16)) = some n := by
  have hall : ∀ m < 0x20,
      hexValueOf? '0' '0' (Hex.digit (m / 16)) (Hex.digit (m % 16)) = some m := by
    decide
  exact hall n h

theorem readQuoted_cons {c : Char} (acc rest : List Char) (hquote : c ≠ '"') (hslash : c ≠ '\\')
    (h : 0x20 ≤ c.toNat) : readQuoted acc (c :: rest) = readQuoted (c :: acc) rest := by
  rw [readQuoted.eq_def]
  split
  · rename_i heq
    cases heq
  · rename_i heq
    exact absurd (List.cons.inj heq).1 hquote
  · rename_i heq
    exact absurd (List.cons.inj heq).1 hslash
  · rename_i heq
    exact absurd (List.cons.inj heq).1 hslash
  · rename_i heq
    exact absurd (List.cons.inj heq).1 hslash
  · rename_i heq
    obtain ⟨rfl, rfl⟩ := List.cons.inj heq
    rw [if_neg (by omega)]

/-- **One escaped character is read back.** -/
theorem readQuoted_escape (acc : List Char) (c : Char) (rest : List Char) :
    readQuoted acc (escape c ++ rest) = readQuoted (c :: acc) rest := by
  unfold escape
  split_ifs with hquote hslash hback hform hline hreturn htab hcontrol
  · rw [hquote]
    rfl
  · rw [hslash]
    rfl
  · rw [hback]
    rfl
  · rw [hform]
    rfl
  · rw [hline]
    rfl
  · rw [hreturn]
    rfl
  · rw [htab]
    rfl
  · -- four digits below `0x20` are no half of a character
    have hhalf : isLowHalf c.toNat = false ∧ isHighHalf c.toNat = false := by
      simp [isLowHalf, isHighHalf]
      omega
    simp only [List.cons_append, List.nil_append, readQuoted, hexValueOf?_digits hcontrol, hhalf,
      Char.ofNat_toNat, Bool.false_eq_true, if_false]
  · exact readQuoted_cons acc rest hquote hslash (by omega)

/-- **Escaped characters are read back**, up to the closing quote. -/
theorem readQuoted_flatMap_escape (acc cs rest : List Char) :
    readQuoted acc (cs.flatMap escape ++ '"' :: rest) = .ok (acc.reverse ++ cs, rest) := by
  induction cs generalizing acc with
  | nil =>
    rw [List.flatMap_nil, List.nil_append, List.append_nil]
    rfl
  | cons c cs ih =>
    rw [List.flatMap_cons, List.append_assoc, readQuoted_escape, ih, List.reverse_cons,
      List.append_assoc, List.singleton_append]

theorem writeText_append (s : String) (rest : List Char) :
    writeText s ++ rest = '"' :: (s.toList.flatMap escape ++ '"' :: rest) := by
  rw [writeText, List.cons_append, List.append_assoc, List.singleton_append]

theorem readText_quote (cs : List Char) :
    readText ('"' :: cs) = (readQuoted [] cs).map fun (s, rest) => (String.ofList s, rest) := rfl

theorem readText_writeText (s : String) (rest : List Char) :
    readText (writeText s ++ rest) = .ok (s, rest) := by
  rw [writeText_append, readText_quote, readQuoted_flatMap_escape, List.reverse_nil,
    List.nil_append]
  show Except.ok (String.ofList s.toList, rest) = _
  rw [String.ofList_toList]

theorem readsBack_writeText (s : String) : ReadsBack readText (writeText s) s :=
  fun rest _ => readText_writeText s rest

theorem isOpen_writeText (s : String) : IsOpen (writeText s) :=
  ⟨'"', _, rfl, by decide, by decide, by decide⟩

theorem readKind_quote (cs : List Char) :
    readKind ('"' :: cs) = (do
      let (s, rest) ← readQuoted [] cs
      .ok (← kindNamed (String.ofList s), rest)) := rfl

theorem readsBack_writeKind (k : ChunkKind) : ReadsBack readKind (writeKind k) k := by
  intro rest _
  have hname : ChunkKind.ofName? k.name = some k := by cases k <;> decide
  rw [writeKind, writeText_append, readKind_quote, readQuoted_flatMap_escape, List.reverse_nil,
    List.nil_append]
  show (do .ok (← kindNamed (String.ofList k.name.toList), rest)) = _
  rw [String.ofList_toList, kindNamed, hname]
  rfl

/-! ### Numbers -/

/-- **The digits of a number add up to it**, if it has a place in 64 bits.  By induction on the
number, its last digit last. -/
theorem foldl_addDigit_toDigits {n : Nat} (h : n ≤ maxNumber) :
    (Nat.toDigits 10 n).foldl Numeral.addDigit ⟨false, 0, 0, true⟩ = ⟨false, n, 0, true⟩ := by
  induction n using Nat.strongRecOn with
  | _ n ih =>
    have hdigit : ∀ d < 10, digitValue d.digitChar = d := fun d hd =>
      Nat.toNat_digitChar_sub_48_of_lt_ten hd
    rw [Nat.toDigits_eq_if (by decide)]
    split_ifs with hn
    · simp only [List.foldl_cons, List.foldl_nil, Numeral.addDigit, hdigit n hn, Nat.zero_mul,
        Nat.zero_add, h, decide_true, Bool.and_self, if_true]
    · have hvalue : n / 10 * 10 + digitValue (n % 10).digitChar = n := by
        rw [hdigit _ (Nat.mod_lt n (by decide))]
        omega
      rw [List.foldl_append, ih (n / 10) (by omega) (by omega)]
      simp only [List.foldl_cons, List.foldl_nil, Numeral.addDigit, hvalue, h, decide_true,
        Bool.and_self, if_true]

/-- The first digit of a number is `0` for zero only, which has no other digit. -/
theorem toDigits_eq_cons (n : Nat) :
    ∃ c cs, Nat.toDigits 10 n = c :: cs ∧ (c = '0' → cs = []) := by
  induction n using Nat.strongRecOn with
  | _ n ih =>
    rw [Nat.toDigits_eq_if (by decide)]
    split_ifs with hn
    · exact ⟨_, [], rfl, fun _ => rfl⟩
    · obtain ⟨c, cs, hdigits, hzero⟩ := ih (n / 10) (by omega)
      refine ⟨c, cs ++ [(n % 10).digitChar], by rw [hdigits, List.cons_append], ?_⟩
      intro hc
      -- a number of two digits does not begin with zero
      rw [hc, hzero hc] at hdigits
      have hvalue : Nat.ofDigitChars 10 (Nat.toDigits 10 (n / 10)) 0 = 0 := by
        rw [hdigits]
        decide
      rw [Nat.ofDigitChars_ten_toDigits] at hvalue
      omega

theorem isDigit_of_mem_writeNat {n : Nat} {c : Char} (h : c ∈ writeNat n) : c.isDigit = true :=
  Nat.isDigit_of_mem_toDigits (by decide) (by decide) h

/-- Nothing that may follow a value goes on with a number. -/
theorem Delimited.head_cases {rest : List Char} (h : Delimited rest) :
    rest = [] ∨ ∃ cs, rest = ',' :: cs ∨ rest = ']' :: cs ∨ rest = '\x7d' :: cs := by
  cases rest with
  | nil => exact Or.inl rfl
  | cons c cs =>
    rcases h c rfl with rfl | rfl | rfl
    · exact Or.inr ⟨cs, Or.inl rfl⟩
    · exact Or.inr ⟨cs, Or.inr (Or.inl rfl)⟩
    · exact Or.inr ⟨cs, Or.inr (Or.inr rfl)⟩

theorem readFraction_delimited (atEnd : ReadError) (n : Numeral) {rest : List Char}
    (h : Delimited rest) : readFraction atEnd n rest = .ok (n, rest) := by
  obtain rfl | ⟨cs, rfl | rfl | rfl⟩ := h.head_cases
  · rfl
  · rfl
  · rfl
  · rfl

/-- The digits of a number end where what follows begins. -/
theorem span_writeNat (n : Nat) {rest : List Char} (h : Delimited rest) :
    (writeNat n ++ rest).takeWhile Char.isDigit = writeNat n ∧
      (writeNat n ++ rest).dropWhile Char.isDigit = rest := by
  have hdigits : ∀ c ∈ writeNat n, c.isDigit = true := fun c hc => isDigit_of_mem_writeNat hc
  have hrest : rest.takeWhile Char.isDigit = [] ∧ rest.dropWhile Char.isDigit = rest := by
    obtain rfl | ⟨cs, rfl | rfl | rfl⟩ := h.head_cases
    · exact ⟨rfl, rfl⟩
    · exact ⟨rfl, rfl⟩
    · exact ⟨rfl, rfl⟩
    · exact ⟨rfl, rfl⟩
  rw [List.takeWhile_append_of_pos hdigits, List.dropWhile_append_of_pos hdigits, hrest.1, hrest.2,
    List.append_nil]
  exact ⟨rfl, rfl⟩

theorem isTooLarge_plain {n : Nat} (h : n ≤ maxNumber) :
    Numeral.isTooLarge ⟨false, n, 0, true⟩ = false := by
  -- a power of two with a thousand bits, which only the kernel writes out
  have hbound : maxNumber < Numeral.overflowBound := by decide +kernel
  have hlt : ¬ Numeral.overflowBound ≤ n * Nat.pow 10 (0 : Int).toNat := by
    show ¬ Numeral.overflowBound ≤ n * 1
    omega
  simp only [Numeral.isTooLarge, hlt, decide_false]
  simp

/-- A written number begins with a digit, which is no blank and no sign. -/
theorem writeNat_eq_cons (n : Nat) :
    ∃ c cs, writeNat n = c :: cs ∧ c.isDigit = true ∧ isSpace c = false ∧ c ≠ '-' ∧ c ≠ ']' ∧
      c ≠ 'n' ∧ (c = '0' → cs = []) := by
  obtain ⟨c, cs, hwrite, hzero⟩ := toDigits_eq_cons n
  have hdigit : c.isDigit = true :=
    isDigit_of_mem_writeNat (n := n) (by rw [writeNat, hwrite]; exact List.mem_cons_self)
  have hne : ∀ d : Char, d.isDigit = false → c ≠ d := by
    rintro d hd rfl
    rw [hdigit] at hd
    cases hd
  refine ⟨c, cs, hwrite, hdigit, ?_, hne _ (by decide), hne _ (by decide), hne _ (by decide), hzero⟩
  simp only [isSpace, Bool.or_eq_false_iff, beq_eq_false_iff_ne]
  exact ⟨⟨⟨hne _ (by decide), hne _ (by decide)⟩, hne _ (by decide)⟩, hne _ (by decide)⟩

theorem isOpen_writeNat (n : Nat) : IsOpen (writeNat n) := by
  obtain ⟨c, cs, hwrite, -, hspace, -, hclose, hnull, -⟩ := writeNat_eq_cons n
  exact ⟨c, cs, hwrite, hspace, hclose, hnull⟩

theorem scanNumeral_writeNat (atEnd : ReadError) {n : Nat} (h : n ≤ maxNumber) {rest : List Char}
    (hrest : Delimited rest) :
    scanNumeral atEnd (writeNat n ++ rest) = .ok (⟨false, n, 0, true⟩, rest) := by
  obtain ⟨c, cs, hwrite, hdigit, -, hsign, -, -, hzero⟩ := writeNat_eq_cons n
  have hunsigned : scanNumeral atEnd (writeNat n ++ rest)
      = readUnsigned atEnd false (writeNat n ++ rest) := by
    rw [hwrite, List.cons_append, scanNumeral.eq_def]
    split
    · rename_i heq
      exact absurd (List.cons.inj heq).1 hsign
    · rfl
  -- a leading zero is the only digit, and what follows is none
  have hleading : (c = '0' && ((cs ++ rest).head?.any Char.isDigit)) = false := by
    by_cases hc : c = '0'
    · rw [hzero hc, List.nil_append]
      obtain rfl | ⟨ds, rfl | rfl | rfl⟩ := hrest.head_cases <;> simp
    · simp [hc]
  obtain ⟨htake, hdrop⟩ := span_writeNat n hrest
  rw [hwrite, List.cons_append] at htake hdrop
  rw [hunsigned, hwrite, List.cons_append, readUnsigned, hdigit, hleading, htake, hdrop, ← hwrite,
    if_neg (by decide), if_neg Bool.false_ne_true]
  dsimp only
  rw [writeNat, foldl_addDigit_toDigits h]
  exact readFraction_delimited atEnd _ hrest

/-- **Numbers of 64 bits are read back.** -/
theorem readsBack_writeNat {n : Nat} (h : n ≤ maxNumber) : ReadsBack readNat (writeNat n) n := by
  intro rest hrest
  obtain ⟨c, cs, hwrite, hdigit, hspace, -⟩ := writeNat_eq_cons n
  have hread : readNumeral (writeNat n ++ rest) = .ok (⟨false, n, 0, true⟩, rest) := by
    rw [readNumeral, scanNumeral_writeNat _ h hrest]
    dsimp only
    rw [isTooLarge_plain h, if_neg Bool.false_ne_true]
  rw [hwrite, List.cons_append] at hread ⊢
  rw [readNat, skipSpaces_cons hspace]
  dsimp only
  rw [hdigit, Bool.or_true, if_pos rfl, hread]
  rfl

/-! ### Values that may be absent -/

/-- **A value that may be absent is read back**, if the value itself cannot be taken for `null`. -/
theorem readsBack_writeOption {read : Reader α} {write : α → List Char} {a? : Option α}
    (h : ∀ a ∈ a?, ReadsBack read (write a) a) (hopen : ∀ a ∈ a?, IsOpen (write a)) :
    ReadsBack (readOption read) (writeOption write a?) a? := by
  intro rest hrest
  cases a? with
  | none => rfl
  | some a =>
    -- the first letter decides between the value and `null`
    obtain ⟨c, cs, hwrite, hspace, -, hnull⟩ := hopen a rfl
    have hread := h a rfl rest hrest
    rw [hwrite, List.cons_append] at hread
    rw [writeOption, hwrite, List.cons_append, readOption, skipSpaces_cons hspace]
    split
    · rename_i heq
      exact absurd (List.cons.inj heq).1 hnull
    · rw [hread]
      rfl

/-! ### Arrays -/

/-- A comma stands before every item but the first. -/
theorem separated_cons (item : List Char) (items : List (List Char)) :
    separated (item :: items) = item ++ items.flatMap (',' :: ·) := by
  induction items generalizing item with
  | nil => rw [List.flatMap_nil, List.append_nil, separated]
  | cons next items ih => rw [separated, ih, List.flatMap_cons, List.cons_append]; simp

/-- What follows an item is a comma or the closing bracket. -/
theorem delimited_items {close : Char} (hclose : close = ']' ∨ close = '\x7d')
    (items : List (List Char)) (rest : List Char) :
    Delimited (items.flatMap (',' :: ·) ++ close :: rest) := by
  intro c hc
  cases items with
  | nil =>
    obtain rfl := Option.some.inj hc
    exact Or.inr hclose
  | cons item items =>
    obtain rfl := Option.some.inj hc
    exact Or.inl rfl

theorem length_le_items (items : List (List Char)) :
    items.length ≤ (items.flatMap (',' :: ·)).length := by
  induction items with
  | nil => exact Nat.le_refl _
  | cons item items ih =>
    rw [List.flatMap_cons, List.length_append, List.length_cons, List.length_cons]
    omega

theorem nextItem_first {text : List Char} (h : IsOpen text) (rest : List Char) :
    nextItem true (text ++ rest) = .ok (some (text ++ rest)) := by
  obtain ⟨c, cs, rfl, hspace, hclose, -⟩ := h
  rw [List.cons_append, nextItem, skipSpaces_cons hspace]
  split
  · rename_i heq
    cases heq
  · rename_i heq
    exact absurd (List.cons.inj heq).1 hclose
  · rename_i heq
    rw [if_pos rfl, heq]

theorem nextItem_comma {text : List Char} (h : IsOpen text) (rest : List Char) :
    nextItem false (',' :: (text ++ rest)) = .ok (some (text ++ rest)) := by
  obtain ⟨c, cs, rfl, hspace, hclose, -⟩ := h
  rw [nextItem, skipSpaces_cons (by decide), List.cons_append]
  split
  · rename_i heq
    cases heq
  · rename_i heq
    exact absurd (List.cons.inj heq).1 (by decide)
  · rename_i heq
    obtain ⟨rfl, rfl⟩ := List.cons.inj heq
    rw [if_neg Bool.false_ne_true, if_pos rfl, skipSpaces_cons hspace]
    split
    · rename_i heq
      cases heq
    · rename_i heq
      exact absurd (List.cons.inj heq).1 hclose
    · rfl

section Items

variable {β : Type} {step : β → Reader β} {b b' : β} {fuel : Nat} {first : Bool}
  {cs item rest : List Char}

theorem foldItems_some (hitem : nextItem first cs = .ok (some item))
    (hstep : step b item = .ok (b', rest)) :
    foldItems step (fuel + 1) first b cs = foldItems step fuel false b' rest := by
  simp only [foldItems, hitem, hstep, bind, Except.bind]

theorem foldItems_none (hitem : nextItem first cs = .ok none) :
    foldItems step (fuel + 1) first b cs = .ok (b, cs) := by
  simp only [foldItems, hitem, bind, Except.bind]

variable {read : Reader α} {write : α → List Char}

/-- How an array takes up its items, last first. -/
def pushItem (read : Reader α) (as : List α) : Reader (List α) := fun cs =>
  (read cs).map fun (a, rest) => (a :: as, rest)

theorem pushItem_readsBack {a : α} (h : ReadsBack read (write a) a) (as : List α)
    (hrest : Delimited rest) : pushItem read as (write a ++ rest) = .ok (a :: as, rest) := by
  rw [pushItem, h rest hrest]
  rfl

/-- **The items after the first one are read back**, by induction on them. -/
theorem foldItems_readsBack {as : List α} (h : ∀ a ∈ as, ReadsBack read (write a) a)
    (hopen : ∀ a ∈ as, IsOpen (write a)) (hfuel : as.length < fuel) (done : List α)
    (rest : List Char) :
    foldItems (pushItem read) fuel false done ((as.map write).flatMap (',' :: ·) ++ ']' :: rest)
      = .ok (as.reverse ++ done, ']' :: rest) := by
  induction as generalizing fuel done with
  | nil =>
    obtain ⟨fuel, rfl⟩ := Nat.exists_eq_succ_of_ne_zero (Nat.ne_of_gt hfuel)
    exact foldItems_none rfl
  | cons a as ih =>
    rw [List.length_cons] at hfuel
    obtain ⟨fuel, rfl⟩ : ∃ k, fuel = k + 1 := ⟨fuel - 1, by omega⟩
    rw [List.forall_mem_cons] at h hopen
    rw [List.map_cons, List.flatMap_cons, List.cons_append, List.cons_append, List.append_assoc,
      foldItems_some (nextItem_comma hopen.1 _)
        (pushItem_readsBack h.1 done (delimited_items (Or.inl rfl) _ rest)),
      ih h.2 hopen.2 (by omega), List.reverse_cons, List.append_assoc, List.singleton_append]

theorem readList_bracket (cs : List Char) :
    readList read ('[' :: cs) = (do
      let (as, rest) ← foldItems (pushItem read) (cs.length + 1) true [] cs
      let rest ← closeArray rest
      .ok (as.reverse, rest)) := rfl

/-- **Arrays are read back.** -/
theorem readsBack_writeList {as : List α} (h : ∀ a ∈ as, ReadsBack read (write a) a)
    (hopen : ∀ a ∈ as, IsOpen (write a)) :
    ReadsBack (readList read) (writeList write as) as := by
  intro rest _
  have hitems : foldItems (pushItem read) ((separated (as.map write) ++ ']' :: rest).length + 1)
      true [] (separated (as.map write) ++ ']' :: rest) = .ok (as.reverse, ']' :: rest) := by
    cases as with
    | nil => exact foldItems_none rfl
    | cons a as =>
      rw [List.forall_mem_cons] at h hopen
      have hlength := length_le_items (as.map write)
      rw [List.length_map] at hlength
      rw [List.map_cons, separated_cons, List.append_assoc,
        foldItems_some (nextItem_first hopen.1 _)
          (pushItem_readsBack h.1 [] (delimited_items (Or.inl rfl) _ rest)),
        foldItems_readsBack h.2 hopen.2, List.reverse_cons]
      rw [List.length_append, List.length_append, List.length_cons]
      omega
  rw [writeList, List.cons_append, List.append_assoc, List.singleton_append, readList_bracket,
    hitems]
  show Except.ok (as.reverse.reverse, rest) = _
  rw [List.reverse_reverse]

end Items

/-! ### Objects -/

theorem readQuoted_key (key : String) (rest : List Char) :
    (readQuoted [] (key.toList.flatMap escape ++ '"' :: rest)).map
      (fun (s, rest) => some (String.ofList s, rest)) = .ok (some (key, rest)) := by
  rw [readQuoted_flatMap_escape, List.reverse_nil, List.nil_append]
  show Except.ok (some (String.ofList key.toList, rest)) = _
  rw [String.ofList_toList]

theorem nextKey_first (key : String) (rest : List Char) :
    nextKey true (writeText key ++ rest) = .ok (some (key, rest)) := by
  rw [writeText_append]
  exact readQuoted_key key rest

theorem nextKey_comma (key : String) (rest : List Char) :
    nextKey false (',' :: (writeText key ++ rest)) = .ok (some (key, rest)) := by
  rw [writeText_append]
  exact readQuoted_key key rest

section Records

variable {δ : Type}

/-- **A draft takes up one written field**: it is one of the fields, the draft does not have it
yet, and its value is read back. -/
structure Takes (fields : List (Field δ)) (d : δ) (m : String × List Char) (d' : δ) : Prop where
  taken : ∃ f, fields.find? (·.name == m.1) = some f ∧ f.isRead d = false ∧
    ReadsBack (f.read d) m.2 d'

/-- **A draft takes up written fields**, one after the other. -/
inductive Fills (fields : List (Field δ)) : δ → List (String × List Char) → δ → Prop
  | nil (d : δ) : Fills fields d [] d
  | cons {d d' d'' : δ} {m : String × List Char} {ms : List (String × List Char)} :
    Takes fields d m d' → Fills fields d' ms d'' → Fills fields d (m :: ms) d''

variable {fields : List (Field δ)} {d d' d'' : δ} {m : String × List Char}
  {ms ms' : List (String × List Char)}

theorem Fills.append (h : Fills fields d ms d') (h' : Fills fields d' ms' d'') :
    Fills fields d (ms ++ ms') d'' := by
  induction h with
  | nil d => exact h'
  | cons htakes _ ih => exact .cons htakes (ih h')

theorem Takes.readNamed (h : Takes fields d m d') {rest : List Char} (hrest : Delimited rest) :
    readNamed fields d m.1 (':' :: (m.2 ++ rest)) = .ok (d', rest) := by
  obtain ⟨f, hfind, hread, hback⟩ := h.taken
  have hcolon : colon (':' :: (m.2 ++ rest)) = .ok (m.2 ++ rest) := rfl
  simp only [Json.readNamed, hfind, hread, hcolon, hback rest hrest, bind, Except.bind,
    Bool.false_eq_true, if_false]

theorem member_append (m : String × List Char) (rest : List Char) :
    member m ++ rest = writeText m.1 ++ ':' :: (m.2 ++ rest) := by
  rw [member, List.append_assoc, List.cons_append]

theorem foldFields_some {β : Type} {step : β → String → Reader β} {b b' : β} {fuel : Nat}
    {first : Bool} {key : String} {cs value rest : List Char}
    (hkey : nextKey first cs = .ok (some (key, value)))
    (hstep : step b key value = .ok (b', rest)) :
    foldFields step (fuel + 1) first b cs = foldFields step fuel false b' rest := by
  simp only [foldFields, hkey, hstep, bind, Except.bind]

theorem foldFields_none {β : Type} {step : β → String → Reader β} {b : β} {fuel : Nat}
    {first : Bool} {cs : List Char} (hkey : nextKey first cs = .ok none) :
    foldFields step (fuel + 1) first b cs = .ok (b, cs) := by
  simp only [foldFields, hkey, bind, Except.bind]

/-- **The fields after the first one are read back**, by induction on the drafts. -/
theorem Fills.foldFields (h : Fills fields d ms d') {fuel : Nat} (hfuel : ms.length < fuel)
    (rest : List Char) :
    foldFields (readNamed fields) fuel false d
        ((ms.map member).flatMap (',' :: ·) ++ '\x7d' :: rest)
      = .ok (d', '\x7d' :: rest) := by
  induction h generalizing fuel with
  | nil d =>
    obtain ⟨fuel, rfl⟩ := Nat.exists_eq_succ_of_ne_zero (Nat.ne_of_gt hfuel)
    exact foldFields_none rfl
  | cons htakes _ ih =>
    rw [List.length_cons] at hfuel
    obtain ⟨fuel, rfl⟩ : ∃ k, fuel = k + 1 := ⟨fuel - 1, by omega⟩
    rw [List.map_cons, List.flatMap_cons, List.cons_append, List.cons_append, List.append_assoc,
      member_append, foldFields_some (nextKey_comma _ _)
        (htakes.readNamed (delimited_items (Or.inr rfl) _ rest)), ih (by omega)]

theorem readRecord_brace {empty : δ} {finish : δ → Option α} {cs rest : List Char} {a : α}
    (h : foldFields (readNamed fields) (cs.length + 1) true empty cs = .ok (d, '\x7d' :: rest))
    (hfinish : finish d = some a) :
    readRecord fields empty finish ('\x7b' :: cs) = .ok (a, rest) := by
  have hclose : closeObject ('\x7d' :: rest) = .ok rest := rfl
  have hbrace := skipSpaces_cons (show isSpace '\x7b' = false by decide) cs
  simp only [readRecord, hbrace, h, hfinish, hclose, bind, Except.bind]

/-- **Records are read back**: an object whose fields fill a draft gives what the draft is finished
to. -/
theorem Fills.readsBack_writeObject {empty : δ} {finish : δ → Option α} {a : α}
    (h : Fills fields empty ms d) (hfinish : finish d = some a) :
    ReadsBack (readRecord fields empty finish) (writeObject ms) a := by
  intro rest _
  rw [writeObject, List.cons_append, List.append_assoc, List.singleton_append]
  refine readRecord_brace ?_ hfinish
  cases h with
  | nil => exact foldFields_none rfl
  | cons htakes hfills =>
    rename_i m d₁ ms
    have hlength := length_le_items (ms.map member)
    rw [List.length_map] at hlength
    rw [List.map_cons, separated_cons, List.append_assoc, member_append,
      foldFields_some (nextKey_first _ _) (htakes.readNamed (delimited_items (Or.inr rfl) _ rest)),
      hfills.foldFields]
    simp only [List.length_append, List.length_cons]
    omega

/-- A field with a value of its own puts what it reads into the draft. -/
theorem readsBack_of {name : String} {get : δ → Option α} {set : δ → α → δ} {read : Reader α}
    {mayBeLeftOut : Bool} {text : List Char} {a : α} (h : ReadsBack read text a) (d : δ) :
    ReadsBack ((Field.of name get set read mayBeLeftOut).read d) text (set d a) := by
  intro rest hrest
  rw [Field.of]
  dsimp only
  rw [h rest hrest]
  rfl

/-- **A field that may be left out** is taken up if it is there. -/
theorem fills_optionalField {name : String} {get : δ → Option (Option α)}
    {set : δ → Option α → δ} {read : Reader α} {write : α → List Char} {a? : Option α}
    {mayBeLeftOut : Bool}
    (hfind : fields.find? (·.name == name)
      = some (Field.of name get set (readOption read) mayBeLeftOut))
    (hget : get d = none) (h : ∀ a ∈ a?, ReadsBack read (write a) a)
    (hopen : ∀ a ∈ a?, IsOpen (write a)) (hset : (a?.map (set d ∘ some)).getD d = d') :
    Fills fields d (optionalField name write a?) d' := by
  rw [← hset]
  cases a? with
  | none => exact .nil d
  | some a =>
    refine .cons ⟨_, hfind, ?_, readsBack_of ?_ d⟩ (.nil _)
    · rw [Field.of]
      dsimp only
      rw [hget]
      rfl
    · exact readsBack_writeOption h hopen

end Records

/-! ### Metadata and chunks -/

/-- **A number of 64 bits.** -/
def IsWord (n : Nat) : Prop := n < UInt64.size

instance (n : Nat) : Decidable (IsWord n) := inferInstanceAs (Decidable (n < UInt64.size))

theorem IsWord.le_maxNumber {n : Nat} (h : IsWord n) : n ≤ maxNumber := Nat.le_of_lt_succ h

/-- Metadata whose numbers have 64 bits. -/
structure MetadataFits (m : Metadata) : Prop where
  fileSize : IsWord m.fileSize
  chunkSize : ∀ n ∈ m.chunkSize, IsWord n
  lineCount : ∀ n ∈ m.lineCount, IsWord n

/-- A chunk whose numbers have 64 bits. -/
structure ChunkFits (c : Chunk) : Prop where
  lineStart : IsWord c.lineStart
  lineEnd : IsWord c.lineEnd
  metadata : MetadataFits c.metadata

/-- **Metadata is read back**, whichever of its optional facts are there. -/
theorem readsBack_writeMetadata {m : Metadata} (h : MetadataFits m) :
    ReadsBack readMetadata (writeMetadata m) m := by
  have hwords : ∀ n? : Option Nat, (∀ n ∈ n?, IsWord n) →
      ∀ n ∈ n?, ReadsBack readNat (writeNat n) n :=
    fun _ hn? n hn => readsBack_writeNat (hn? n hn).le_maxNumber
  have himports : ReadsBack (readList readText) (writeList writeText m.imports) m.imports :=
    readsBack_writeList (fun s _ => readsBack_writeText s) (fun s _ => isOpen_writeText s)
  -- the drafts after the required fields, and after each of the optional ones
  let d₀ : MetadataDraft := { imports := some m.imports, fileSize := some m.fileSize }
  let d₁ : MetadataDraft := { d₀ with chunkSize := m.chunkSize.map some }
  let d₂ : MetadataDraft := { d₁ with lineCount := m.lineCount.map some }
  let d₃ : MetadataDraft := { d₂ with nodeType := m.nodeType.map some }
  have hrequired : Fills metadataFields {}
      [("imports", writeList writeText m.imports), ("file_size", writeNat m.fileSize)] d₀ :=
    .cons ⟨_, rfl, rfl, readsBack_of himports _⟩
      (.cons ⟨_, rfl, rfl, readsBack_of (readsBack_writeNat h.fileSize.le_maxNumber) _⟩ (.nil _))
  have hchunkSize : Fills metadataFields d₀ (optionalField "chunk_size" writeNat m.chunkSize) d₁ :=
    fills_optionalField rfl rfl (hwords _ h.chunkSize) (fun n _ => isOpen_writeNat n)
      (by simp only [d₁]; cases m.chunkSize <;> rfl)
  have hlineCount : Fills metadataFields d₁ (optionalField "line_count" writeNat m.lineCount) d₂ :=
    fills_optionalField rfl rfl (hwords _ h.lineCount) (fun n _ => isOpen_writeNat n)
      (by simp only [d₂]; cases m.lineCount <;> rfl)
  have hnodeType : Fills metadataFields d₂ (optionalField "node_type" writeText m.nodeType) d₃ :=
    fills_optionalField rfl rfl (fun s _ => readsBack_writeText s) (fun s _ => isOpen_writeText s)
      (by simp only [d₃]; cases m.nodeType <;> rfl)
  have hfinish : d₃.finish = some m := by
    obtain ⟨imports, fileSize, chunkSize, lineCount, nodeType⟩ := m
    cases chunkSize <;> cases lineCount <;> cases nodeType <;> rfl
  exact (((hrequired.append hchunkSize).append hlineCount).append hnodeType).readsBack_writeObject
    hfinish

/-- **Chunks are read back.** -/
theorem readsBack_writeChunk {c : Chunk} (h : ChunkFits c) :
    ReadsBack readChunk (writeChunk c) c := by
  have hname : ReadsBack (readOption readText) (writeOption writeText c.name) c.name :=
    readsBack_writeOption (fun s _ => readsBack_writeText s) (fun s _ => isOpen_writeText s)
  have hlineStart := readsBack_writeNat h.lineStart.le_maxNumber
  have hlineEnd := readsBack_writeNat h.lineEnd.le_maxNumber
  have hmetadata := readsBack_writeMetadata h.metadata
  have hfills : Fills chunkFields {} _ {
      id := some c.id, filepath := some c.filepath, content := some c.content,
      language := some c.language, kind := some c.kind, name := some c.name,
      lineStart := some c.lineStart, lineEnd := some c.lineEnd, metadata := some c.metadata } :=
    .cons (m := ("id", _)) ⟨_, rfl, rfl, readsBack_of (readsBack_writeText c.id) _⟩ <|
    .cons (m := ("filepath", _)) ⟨_, rfl, rfl, readsBack_of (readsBack_writeText c.filepath) _⟩ <|
    .cons (m := ("content", _)) ⟨_, rfl, rfl, readsBack_of (readsBack_writeText c.content) _⟩ <|
    .cons (m := ("language", _)) ⟨_, rfl, rfl, readsBack_of (readsBack_writeText c.language) _⟩ <|
    .cons (m := ("chunk_type", _)) ⟨_, rfl, rfl, readsBack_of (readsBack_writeKind c.kind) _⟩ <|
    .cons (m := ("name", _)) ⟨_, rfl, rfl, readsBack_of hname _⟩ <|
    .cons (m := ("line_start", _)) ⟨_, rfl, rfl, readsBack_of hlineStart _⟩ <|
    .cons (m := ("line_end", _)) ⟨_, rfl, rfl, readsBack_of hlineEnd _⟩ <|
    .cons (m := ("metadata", _)) ⟨_, rfl, rfl, readsBack_of hmetadata _⟩ (.nil _)
  exact hfills.readsBack_writeObject rfl

/-- **A whole text is read back.** -/
theorem readAll_readsBack {read : Reader α} {text : List Char} {a : α} (h : ReadsBack read text a) :
    readAll read (String.ofList text) = .ok a := by
  have hread := h [] (fun c hc => absurd hc (Option.not_mem_none c))
  rw [List.append_nil] at hread
  rw [readAll, String.toList_ofList, hread]
  rfl

end SourceChunks.Json
