import SourceChunks.Digest.Hex

/-!
# Reading JSON

Readers take characters from the front of a text, left to right, and stop at the first fault, so a
value of the wrong kind before a malformed one is what counts.  A reader returns what it has read
and the characters after it.
-/

namespace SourceChunks.Json

/-- **Why a text cannot be read.** -/
inductive ReadError where
  /-- The text is no JSON. -/
  | malformed
  /-- The text ends early. -/
  | truncated
  /-- The text is JSON but says something else. -/
  | unfit
deriving DecidableEq, Repr

/-- **A reader**: takes a value from the front of a text. -/
abbrev Reader (α : Type) := List Char → Except ReadError (α × List Char)

/-- Characters that may stand between tokens. -/
def isSpace (c : Char) : Bool := c == ' ' || c == '\n' || c == '\t' || c == '\r'

/-- A text without the blanks at its front. -/
def skipSpaces (cs : List Char) : List Char := cs.dropWhile isSpace

/-- The rest of a word, letter by letter. -/
def readWord : List Char → Reader Unit
  | [], cs => .ok ((), cs)
  | _ :: _, [] => .error .truncated
  | w :: ws, c :: cs => if c = w then readWord ws cs else .error .malformed

/-! ### Quoted texts -/

/-- The value of a hexadecimal digit in either case. -/
def hexValue? (c : Char) : Option Nat :=
  if 'A' ≤ c ∧ c ≤ 'F' then some (c.toNat - 0x37) else Hex.value? c

/-- The value of four hexadecimal digits. -/
def hexValueOf? (a b c d : Char) : Option Nat := do
  return ((← hexValue? a) * 16 + (← hexValue? b)) * 256 + (← hexValue? c) * 16 + (← hexValue? d)

/-- What is wrong where four hexadecimal digits should be: too few bytes, or other ones. -/
def hexFault (cs : List Char) : ReadError :=
  if (Bytes.encodeChars (cs.take 4)).length < 4 then .truncated else .malformed

/-- The character that an escape of one letter stands for. -/
def unescape? (c : Char) : Option Char :=
  match c with
  | '"' => some '"'
  | '\\' => some '\\'
  | '/' => some '/'
  | 'b' => some '\x08'
  | 'f' => some '\x0c'
  | 'n' => some '\n'
  | 'r' => some '\r'
  | 't' => some '\t'
  | _ => none

/-- First half of a character outside the basic plane. -/
def isHighHalf (n : Nat) : Bool := 0xD800 ≤ n && n ≤ 0xDBFF

/-- Second half of a character outside the basic plane. -/
def isLowHalf (n : Nat) : Bool := 0xDC00 ≤ n && n ≤ 0xDFFF

/-- The character that two halves make up. -/
def joinHalves (high low : Nat) : Char :=
  Char.ofNat (0x10000 + (high - 0xD800) * 0x400 + (low - 0xDC00))

/-- **The rest of a quoted text**, with the characters read so far in reverse order in `acc`. -/
def readQuoted (acc : List Char) : Reader (List Char)
  | [] => .error .truncated
  | '"' :: rest => .ok (acc.reverse, rest)
  | '\\' :: [] => .error .truncated
  | '\\' :: 'u' :: digits =>
    match digits with
    | a :: b :: c :: d :: rest =>
      match hexValueOf? a b c d with
      | none => .error .malformed
      | some n =>
        if isLowHalf n then .error .malformed
        else if isHighHalf n then
          match rest with
          | [] | ['\\'] => .error .truncated
          | '\\' :: 'u' :: digits =>
            match digits with
            | a :: b :: c :: d :: rest =>
              match hexValueOf? a b c d with
              | none => .error .malformed
              | some m =>
                if isLowHalf m then readQuoted (joinHalves n m :: acc) rest
                else .error .malformed
            | short => .error (hexFault short)
          | _ => .error .malformed
        else readQuoted (Char.ofNat n :: acc) rest
    | short => .error (hexFault short)
  | '\\' :: e :: rest =>
    match unescape? e with
    | some c => readQuoted (c :: acc) rest
    | none => .error .malformed
  | c :: rest => if c.toNat < 0x20 then .error .malformed else readQuoted (c :: acc) rest

/-- The text after a quoted text whose value does not matter; halves need not be paired. -/
def skipQuoted : List Char → Except ReadError (List Char)
  | [] => .error .truncated
  | '"' :: rest => .ok rest
  | '\\' :: [] => .error .truncated
  | '\\' :: 'u' :: digits =>
    match digits with
    | a :: b :: c :: d :: rest =>
      if (hexValueOf? a b c d).isNone then .error .malformed else skipQuoted rest
    | short => .error (hexFault short)
  | '\\' :: e :: rest => if (unescape? e).isNone then .error .malformed else skipQuoted rest
  | c :: rest => if c.toNat < 0x20 then .error .malformed else skipQuoted rest

/-! ### Numbers -/

/-- The largest number that can be read. -/
def maxNumber : Nat := 18446744073709551615

/-- **A number as it is written**: `significand * 10 ^ exponent`, with the digits that a word of 64
bits has no place for counted in the exponent only. -/
structure Numeral where
  negative : Bool
  significand : Nat
  exponent : Int := 0
  /-- Are there digits only, and few enough? -/
  isPlain : Bool := true
deriving DecidableEq, Repr

/-- The value of a decimal digit. -/
def digitValue (c : Char) : Nat := c.toNat - 0x30

namespace Numeral

/-- One more digit before the point. -/
def addDigit (n : Numeral) (c : Char) : Numeral :=
  let value := n.significand * 10 + digitValue c
  if n.isPlain && value ≤ maxNumber then { n with significand := value }
  else { n with exponent := n.exponent + 1, isPlain := false }

/-- Digits after the point; the first one without a place ends the significand. -/
def addDecimals (n : Numeral) : List Char → Numeral
  | [] => n
  | c :: cs =>
    let value := n.significand * 10 + digitValue c
    if value ≤ maxNumber then
      addDecimals { n with significand := value, exponent := n.exponent - 1, isPlain := false } cs
    else { n with isPlain := false }

/-- The least number that no binary floating-point number of 64 bits can hold. -/
def overflowBound : Nat := 1 <<< 1024 - 1 <<< 970

/-- Is a number too large for a floating-point number? -/
def isTooLarge (n : Numeral) : Bool :=
  n.significand != 0 && 0 ≤ n.exponent &&
    (308 < n.exponent || overflowBound ≤ n.significand * Nat.pow 10 n.exponent.toNat)

/-- The value, if it is a number that can be read. -/
def value? (n : Numeral) : Option Nat :=
  if n.isPlain && !n.negative then some n.significand else none

end Numeral

/-- The exponent of a number, after its letter.  `atEnd` is the fault of a text that ends here. -/
def readExponent (atEnd : ReadError) (n : Numeral) (cs : List Char) :
    Except ReadError (Numeral × List Char) :=
  let (down, cs) := match cs with
    | '-' :: rest => (true, rest)
    | '+' :: rest => (false, rest)
    | _ => (false, cs)
  let digits := cs.takeWhile Char.isDigit
  let rest := cs.dropWhile Char.isDigit
  if digits.isEmpty then .error (if rest.isEmpty then atEnd else .malformed)
  else
    let size : Int := (digits.foldl (fun k c => k * 10 + digitValue c) 0 : Nat)
    .ok ({ n with exponent := n.exponent + (if down then -size else size), isPlain := false }, rest)

/-- What follows the digits of a whole number. -/
def readFraction (atEnd : ReadError) (n : Numeral) (cs : List Char) :
    Except ReadError (Numeral × List Char) :=
  match cs with
  | '.' :: cs =>
    let digits := cs.takeWhile Char.isDigit
    let rest := cs.dropWhile Char.isDigit
    if digits.isEmpty then .error (if rest.isEmpty then atEnd else .malformed)
    else
      let n := n.addDecimals digits
      match rest with
      | 'e' :: after | 'E' :: after => readExponent atEnd n after
      | _ => .ok (n, rest)
  | 'e' :: after | 'E' :: after => readExponent atEnd n after
  | _ => .ok (n, cs)

/-- A number after its sign. -/
def readUnsigned (atEnd : ReadError) (negative : Bool) (cs : List Char) :
    Except ReadError (Numeral × List Char) :=
  match cs with
  | [] => .error atEnd
  | c :: rest =>
    if !c.isDigit then .error .malformed
    else if c = '0' && (rest.head?.any Char.isDigit) then .error .malformed
    else
      let digits := cs.takeWhile Char.isDigit
      readFraction atEnd (digits.foldl Numeral.addDigit ⟨negative, 0, 0, true⟩)
        (cs.dropWhile Char.isDigit)

/-- A number, at its sign or first digit. -/
def scanNumeral (atEnd : ReadError) (cs : List Char) : Except ReadError (Numeral × List Char) :=
  match cs with
  | '-' :: rest => readUnsigned atEnd true rest
  | _ => readUnsigned atEnd false cs

/-- A number that is read for its value. -/
def readNumeral : Reader Numeral := fun cs =>
  match scanNumeral .truncated cs with
  | .ok (n, rest) => if n.isTooLarge then .error .malformed else .ok (n, rest)
  | .error e => .error e

/-! ### Values of a given kind -/

/-- The fault of a value that is not of the kind that is wanted.  Small values are read first, and
a fault in them counts. -/
def mismatch (cs : List Char) : ReadError :=
  let faultOr {α : Type} : Except ReadError α → ReadError
    | .ok _ => .unfit
    | .error e => e
  match cs with
  | 'n' :: rest => faultOr (readWord ['u', 'l', 'l'] rest)
  | 't' :: rest => faultOr (readWord ['r', 'u', 'e'] rest)
  | 'f' :: rest => faultOr (readWord ['a', 'l', 's', 'e'] rest)
  | '"' :: rest => faultOr (readQuoted [] rest)
  | '[' :: _ | '\x7b' :: _ => .unfit
  | c :: _ => if c = '-' || c.isDigit then faultOr (readNumeral cs) else .malformed
  | [] => .truncated

/-- **Reads a text.** -/
def readText : Reader String := fun cs =>
  match skipSpaces cs with
  | '"' :: rest => (readQuoted [] rest).map fun (s, rest) => (String.ofList s, rest)
  | cs => .error (mismatch cs)

/-- **Reads a number** of 64 bits. -/
def readNat : Reader Nat := fun cs =>
  match skipSpaces cs with
  | [] => .error .truncated
  | c :: rest =>
    if c = '-' || c.isDigit then
      match readNumeral (c :: rest) with
      | .error e => .error e
      | .ok (n, rest) =>
        match n.value? with
        | some k => .ok (k, rest)
        | none => .error .unfit
    else .error (mismatch (c :: rest))

/-- **Reads a truth value.** -/
def readBool : Reader Bool := fun cs =>
  match skipSpaces cs with
  | 't' :: rest => (readWord ['r', 'u', 'e'] rest).map fun (_, rest) => (true, rest)
  | 'f' :: rest => (readWord ['a', 'l', 's', 'e'] rest).map fun (_, rest) => (false, rest)
  | cs => .error (mismatch cs)

/-- **Reads a value or `null`.** -/
def readOption (read : Reader α) : Reader (Option α) := fun cs =>
  match skipSpaces cs with
  | 'n' :: rest => (readWord ['u', 'l', 'l'] rest).map fun (_, rest) => (none, rest)
  | cs => (read cs).map fun (a, rest) => (some a, rest)

/-- Reads `null`. -/
def readNull : Reader Unit := fun cs =>
  match skipSpaces cs with
  | 'n' :: rest => readWord ['u', 'l', 'l'] rest
  | cs => .error (mismatch cs)

/-! ### Arrays and objects -/

/-- Goes to the next item of an array, if there is one; `first` tells whether it is the first. -/
def nextItem (first : Bool) (cs : List Char) : Except ReadError (Option (List Char)) :=
  match skipSpaces cs with
  | [] => .error .truncated
  | ']' :: _ => .ok none
  | c :: rest =>
    if first then .ok (some (c :: rest))
    else if c = ',' then
      match skipSpaces rest with
      | [] => .error .truncated
      | ']' :: _ => .error .malformed
      | item => .ok (some item)
    else .error .malformed

/-- The end of an array. -/
def closeArray (cs : List Char) : Except ReadError (List Char) :=
  match skipSpaces cs with
  | [] => .error .truncated
  | ']' :: rest => .ok rest
  | _ => .error .malformed

/-- The next key of an object, if there is one. -/
def nextKey (first : Bool) (cs : List Char) : Except ReadError (Option (String × List Char)) :=
  let key (cs : List Char) : Except ReadError (Option (String × List Char)) :=
    (readQuoted [] cs).map fun (s, rest) => some (String.ofList s, rest)
  match skipSpaces cs with
  | [] => .error .truncated
  | '\x7d' :: _ => .ok none
  | c :: rest =>
    if first then if c = '"' then key rest else .error .malformed
    else if c = ',' then
      match skipSpaces rest with
      | [] => .error .truncated
      | '"' :: rest => key rest
      | _ => .error .malformed
    else .error .malformed

/-- The colon after a key. -/
def colon (cs : List Char) : Except ReadError (List Char) :=
  match skipSpaces cs with
  | [] => .error .truncated
  | ':' :: rest => .ok rest
  | _ => .error .malformed

/-- The end of an object. -/
def closeObject (cs : List Char) : Except ReadError (List Char) :=
  match skipSpaces cs with
  | [] => .error .truncated
  | '\x7d' :: rest => .ok rest
  | _ => .error .malformed

/-- Folds over the items of an array, up to its end.  Each item takes at least one character, so
the length of the text is fuel enough. -/
def foldItems (step : β → Reader β) : Nat → Bool → β → Reader β
  | 0, _, _ => fun _ => .error .malformed
  | fuel + 1, first, b => fun cs => do
    match ← nextItem first cs with
    | none => .ok (b, cs)
    | some item =>
      let (b, rest) ← step b item
      foldItems step fuel false b rest

/-- Folds over the fields of an object, up to its end.  `step` reads from the colon on. -/
def foldFields (step : β → String → Reader β) : Nat → Bool → β → Reader β
  | 0, _, _ => fun _ => .error .malformed
  | fuel + 1, first, b => fun cs => do
    match ← nextKey first cs with
    | none => .ok (b, cs)
    | some (key, rest) =>
      let (b, rest) ← step b key rest
      foldFields step fuel false b rest

/-- **Reads an array.** -/
def readList (read : Reader α) : Reader (List α) := fun cs =>
  match skipSpaces cs with
  | '[' :: rest => do
    let (as, rest) ← foldItems (fun as cs => (read cs).map fun (a, rest) => (a :: as, rest))
      (rest.length + 1) true [] rest
    let rest ← closeArray rest
    .ok (as.reverse, rest)
  | cs => .error (mismatch cs)

/-! ### Values that do not matter -/

/-- The brackets around a position: `true` for an array, `false` for an object. -/
abbrev Nesting := List Bool

/-- Goes over the key and the colon of a field in an object; nothing in an array. -/
def skipKey : Nesting → List Char → Except ReadError (List Char)
  | false :: _, cs =>
    match skipSpaces cs with
    | [] => .error .truncated
    | '"' :: rest => do colon (← skipQuoted rest)
    | _ => .error .malformed
  | _, cs => .ok cs

/-- Goes over the end of a value inside some brackets: past closing brackets to a comma, or to the
end of the outermost value.  `done` tells whether a value has just ended; right after an opening
bracket it has not. -/
def skipClosers : Nat → Bool → Nesting → List Char → Except ReadError (Nesting × List Char)
  | _, _, [], cs => .ok ([], cs)
  | 0, _, _ :: _, _ => .error .malformed
  | fuel + 1, done, isArray :: outer, cs =>
    match skipSpaces cs with
    | [] => .error .truncated
    | c :: rest =>
      if c = (if isArray then ']' else '\x7d') then skipClosers fuel true outer rest
      else if done then
        if c = ',' then .ok (isArray :: outer, rest) else .error .malformed
      else .ok (isArray :: outer, c :: rest)

/-- Goes over one small value or one opening bracket; tells whether it was a bracket. -/
def skipToken (cs : List Char) : Except ReadError (Option Bool × List Char) :=
  let word (letters rest : List Char) : Except ReadError (Option Bool × List Char) :=
    (readWord letters rest).map fun (_, rest) => (none, rest)
  match skipSpaces cs with
  | [] => .error .truncated
  | 'n' :: rest => word ['u', 'l', 'l'] rest
  | 't' :: rest => word ['r', 'u', 'e'] rest
  | 'f' :: rest => word ['a', 'l', 's', 'e'] rest
  | '"' :: rest => (skipQuoted rest).map fun rest => (none, rest)
  | '[' :: rest => .ok (some true, rest)
  | '\x7b' :: rest => .ok (some false, rest)
  | c :: rest =>
    if c = '-' || c.isDigit then
      (scanNumeral .malformed (c :: rest)).map fun (_, rest) => (none, rest)
    else .error .malformed

/-- Goes over a value and all that its brackets still hold. -/
def skipNested : Nat → Nesting → List Char → Except ReadError (List Char)
  | 0, _, _ => .error .malformed
  | fuel + 1, nesting, cs => do
    let (bracket?, rest) ← skipToken cs
    let nesting := bracket?.toList ++ nesting
    let (nesting, rest) ← skipClosers (rest.length + 1) bracket?.isNone nesting rest
    if nesting.isEmpty then .ok rest
    else
      let rest ← skipKey nesting rest
      skipNested fuel nesting rest

/-- **Goes over a value** of any kind. -/
def skipValue (cs : List Char) : Except ReadError (List Char) := skipNested (cs.length + 1) [] cs

/-! ### Whole texts -/

/-- **Reads a whole text**: nothing but blanks may follow the value. -/
def readAll (read : Reader α) (s : String) : Except ReadError α :=
  match read s.toList with
  | .error e => .error e
  | .ok (a, rest) => if (skipSpaces rest).isEmpty then .ok a else .error .malformed

end SourceChunks.Json
