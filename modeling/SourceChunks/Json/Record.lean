import SourceChunks.Json.Reader

/-!
# Reading records

A record is an object with named fields or an array of the same fields in order.  Fields may come
in any order in an object, unknown ones are passed over, and a field that comes twice is a fault.
While a record is read, a *draft* holds what has been found.
-/

namespace SourceChunks.Json

/-- **A field of a record** with drafts of type `δ`. -/
structure Field (δ : Type) where
  /-- Its name in objects. -/
  name : String
  /-- Does a draft have it? -/
  isRead : δ → Bool
  /-- Reads its value into a draft. -/
  read : δ → Reader δ
  /-- May it be left out at the end of an array? -/
  mayBeLeftOut : Bool

namespace Field

/-- A field with a value of its own in the draft. -/
def of (name : String) (get : δ → Option α) (set : δ → α → δ) (read : Reader α)
    (mayBeLeftOut : Bool := false) : Field δ where
  name := name
  isRead d := (get d).isSome
  read d cs := (read cs).map fun (a, rest) => (set d a, rest)
  mayBeLeftOut := mayBeLeftOut

end Field

/-- Reads one field of an object, from its colon on. -/
def readNamed (fields : List (Field δ)) (d : δ) (key : String) : Reader δ := fun cs =>
  match fields.find? (·.name == key) with
  | none => do
    let rest ← colon cs
    .ok (d, ← skipValue rest)
  | some f =>
    if f.isRead d then .error .unfit
    else do
      let rest ← colon cs
      f.read d rest

/-- Reads fields from an array, in order. -/
def readInOrder : List (Field δ) → Bool → δ → Reader δ
  | [], _, d => fun cs => .ok (d, cs)
  | f :: fields, first, d => fun cs => do
    match ← nextItem first cs with
    | none => if f.mayBeLeftOut then .ok (d, cs) else .error .unfit
    | some item =>
      let (d, rest) ← f.read d item
      readInOrder fields false d rest

/-- **Reads a record** into a draft and finishes it; a draft that lacks a field cannot be
finished. -/
def readRecord (fields : List (Field δ)) (empty : δ) (finish : δ → Option α) : Reader α := fun cs =>
  let finished (d : δ) : Except ReadError α :=
    match finish d with
    | some a => .ok a
    | none => .error .unfit
  match skipSpaces cs with
  | '[' :: rest => do
    let (d, rest) ← readInOrder fields true empty rest
    let a ← finished d
    .ok (a, ← closeArray rest)
  | '\x7b' :: rest => do
    let (d, rest) ← foldFields (readNamed fields) (rest.length + 1) true empty rest
    let a ← finished d
    .ok (a, ← closeObject rest)
  | cs => .error (mismatch cs)

end SourceChunks.Json
