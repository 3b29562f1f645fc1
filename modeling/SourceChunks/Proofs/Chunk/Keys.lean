import SourceChunks.Proofs.Chunk.Ids

/-!
# Keys are read from the right

The text that is hashed for an id is four fields with colons between them.  The path comes first, so
whatever colons it holds stand before the last three of the whole text if the other fields hold
none: kinds and line numbers never do (`ChunkKind.colon_not_mem_name`,
`ChunkId.colon_not_mem_toString`).  For names without a colon the fields can thus be cut off one by
one at the last colon that is left (`ChunkId.fields?_key`), and read (`ChunkId.parts?_key`).  With a
colon in a name the text may have two readings.
-/

namespace SourceChunks

/-! ### The last separator -/

section CutLast

variable {α : Type} [BEq α] [LawfulBEq α] {sep : α} {cs front back : List α}

/-- What stands before the last separator of a list, and what stands behind it. -/
def cutLast? {α : Type} [BEq α] (sep : α) : List α → Option (List α × List α)
  | [] => none
  | a :: as =>
    match cutLast? sep as with
    | some (front, back) => some (a :: front, back)
    | none => if a == sep then some ([], as) else none

theorem cutLast?_eq_none (h : sep ∉ cs) : cutLast? sep cs = none := by
  induction cs with
  | nil => rfl
  | cons a as ih =>
    rw [List.mem_cons, not_or] at h
    have hne : ¬ (a == sep) = true := fun heq => h.1 (eq_of_beq heq).symm
    rw [cutLast?, ih h.2]
    exact if_neg hne

theorem cutLast?_append_cons (front : List α) (h : sep ∉ back) :
    cutLast? sep (front ++ sep :: back) = some (front, back) := by
  induction front with
  | nil =>
    rw [List.nil_append, cutLast?, cutLast?_eq_none h]
    exact if_pos (beq_self_eq_true sep)
  | cons a front ih => rw [List.cons_append, cutLast?, ih]

/-- **A list is cut at its last separator**: none is left behind it. -/
theorem cutLast?_eq_some_iff :
    cutLast? sep cs = some (front, back) ↔ cs = front ++ sep :: back ∧ sep ∉ back := by
  constructor
  · intro h
    by_cases hmem : sep ∈ cs
    · obtain ⟨front', back', rfl, hlast⟩ := exists_last_of_mem hmem
      rw [cutLast?_append_cons _ hlast] at h
      obtain ⟨rfl, rfl⟩ := Prod.mk.inj (Option.some.inj h)
      exact ⟨rfl, hlast⟩
    · rw [cutLast?_eq_none hmem] at h
      cases h
  · rintro ⟨rfl, hback⟩
    exact cutLast?_append_cons front hback

end CutLast

/-! ### The fields of a key -/

theorem ChunkKind.ofName?_name (k : ChunkKind) : ofName? k.name = some k := by
  cases k <;> decide

namespace ChunkId

/-- **The fields of a key**, as they are written. -/
structure Fields where
  path : String
  kind : String
  name : String
  start : String
deriving DecidableEq, Repr

namespace Fields

def text (f : Fields) : String := f.path ++ ":" ++ f.kind ++ ":" ++ f.name ++ ":" ++ f.start

/-- No field but the path holds a colon. -/
structure IsCuttable (f : Fields) : Prop where
  kind : ':' ∉ f.kind.toList
  name : ':' ∉ f.name.toList
  start : ':' ∉ f.start.toList

end Fields

/-- **A text cut at its last three colons.** -/
def fields? (key : String) : Option Fields := do
  let third ← cutLast? ':' key.toList
  let second ← cutLast? ':' third.1
  let first ← cutLast? ':' second.1
  some ⟨.ofList first.1, .ofList first.2, .ofList second.2, .ofList third.2⟩

/-- The fields that are cut from a text are those that it is put together from. -/
theorem fields?_eq_some_iff {key : String} {f : Fields} :
    fields? key = some f ↔ key = f.text ∧ f.IsCuttable := by
  constructor
  · intro h
    obtain ⟨⟨front, start⟩, hstart, h⟩ := Option.bind_eq_some_iff.mp h
    obtain ⟨⟨front', name⟩, hname, h⟩ := Option.bind_eq_some_iff.mp h
    obtain ⟨⟨path, kind⟩, hkind, h⟩ := Option.bind_eq_some_iff.mp h
    obtain ⟨hkey, hstart'⟩ := cutLast?_eq_some_iff.mp hstart
    obtain ⟨rfl, hname'⟩ := cutLast?_eq_some_iff.mp hname
    obtain ⟨rfl, hkind'⟩ := cutLast?_eq_some_iff.mp hkind
    obtain rfl := Option.some.inj h
    refine ⟨String.toList_injective ?_, ?_, ?_, ?_⟩
    · rw [hkey]
      simp [Fields.text]
    · rw [String.toList_ofList]
      exact hkind'
    · rw [String.toList_ofList]
      exact hname'
    · rw [String.toList_ofList]
      exact hstart'
  · rintro ⟨rfl, hcut⟩
    have hstart : f.text.toList
        = (f.path ++ ":" ++ f.kind ++ ":" ++ f.name).toList ++ ':' :: f.start.toList := by
      simp [Fields.text]
    have hname : (f.path ++ ":" ++ f.kind ++ ":" ++ f.name).toList
        = (f.path ++ ":" ++ f.kind).toList ++ ':' :: f.name.toList := by
      simp
    have hkind : (f.path ++ ":" ++ f.kind).toList = f.path.toList ++ ':' :: f.kind.toList := by
      simp
    rw [fields?, hstart, cutLast?_append_cons _ hcut.start, Option.bind_eq_bind, Option.bind_some,
      hname, cutLast?_append_cons _ hcut.name, Option.bind_some, hkind,
      cutLast?_append_cons _ hcut.kind, Option.bind_some]
    simp only [String.ofList_toList]

/-- **What a key is made from**: a path, a kind, the name that is written, and a line. -/
structure Parts where
  path : String
  kind : ChunkKind
  name : String
  start : Nat
deriving DecidableEq, Repr

namespace Parts

/-- The parts as a key writes them. -/
def fields (p : Parts) : Fields := ⟨p.path, p.kind.name, p.name, toString p.start⟩

/-- The parts of a key, given what the key is made from. -/
def of (path : String) (kind : ChunkKind) (name : Option String) (start : Nat) : Parts :=
  ⟨path, kind, name.getD anonymous, start⟩

end Parts

/-- Reads the fields of a key: the kind is one of the names of kinds, the line is decimal. -/
def Fields.parts? (f : Fields) : Option Parts :=
  (ChunkKind.ofName? f.kind).map fun kind =>
    ⟨f.path, kind, f.name, Nat.ofDigitChars 10 f.start.toList 0⟩

theorem Parts.parts?_fields (p : Parts) : p.fields.parts? = some p := by
  have hstart : Nat.ofDigitChars 10 (toString p.start).toList 0 = p.start := by
    rw [Nat.toString_eq_ofList_toDigits, String.toList_ofList, Nat.ofDigitChars_ten_toDigits]
  show (ChunkKind.ofName? p.kind.name).map _ = _
  rw [ChunkKind.ofName?_name, Option.map_some]
  show some (Parts.mk p.path p.kind p.name (Nat.ofDigitChars 10 (toString p.start).toList 0)) = _
  rw [hstart]

/-- **Reads a key from the right.** -/
def parts? (key : String) : Option Parts := (fields? key).bind Fields.parts?

section Reading

variable {path path' : String} {kind kind' : ChunkKind} {name name' : Option String}
  {start start' : Nat}

/-- The name that is written for a name without colons, or for none, holds no colon. -/
theorem colon_not_mem_getD (hname : ∀ n ∈ name, ':' ∉ n.toList) :
    ':' ∉ (name.getD anonymous).toList := by
  cases name with
  | none => decide
  | some n => exact hname n rfl

/-- **A key gives its fields back** when it is cut at its last three colons. -/
theorem fields?_key (hname : ∀ n ∈ name, ':' ∉ n.toList) :
    fields? (key path kind name start) = some (Parts.of path kind name start).fields := by
  rw [fields?_eq_some_iff]
  exact ⟨rfl, kind.colon_not_mem_name, colon_not_mem_getD hname, colon_not_mem_toString start⟩

theorem parts?_key (hname : ∀ n ∈ name, ':' ∉ n.toList) :
    parts? (key path kind name start) = some (Parts.of path kind name start) := by
  rw [parts?, fields?_key hname, Option.bind_some, Parts.parts?_fields]

/-- **Keys with colon-free names are uniquely decodable**, whatever the paths are.  Two of them are
equal exactly if path, kind, line and written name are, and cutting one at its last three colons
gives the four fields, from which the four parts can be read. -/
theorem key_decodable (hname : ∀ n ∈ name, ':' ∉ n.toList)
    (hname' : ∀ n ∈ name', ':' ∉ n.toList) :
    (key path kind name start = key path' kind' name' start' ↔
      path = path' ∧ kind = kind' ∧ start = start' ∧
        name.getD anonymous = name'.getD anonymous) ∧
    fields? (key path kind name start)
      = some ⟨path, kind.name, name.getD anonymous, toString start⟩ ∧
    parts? (key path kind name start) = some ⟨path, kind, name.getD anonymous, start⟩ ∧
    ofParts path kind name start = ofKey (key path kind name start) := by
  refine ⟨?_, fields?_key hname, parts?_key hname, ofParts_eq_ofKey ..⟩
  constructor
  · intro h
    -- both readings of the common text
    have hparts : some (Parts.of path kind name start)
        = some (Parts.of path' kind' name' start') := by
      rw [← parts?_key hname, h, parts?_key hname']
    obtain ⟨hpath, hkind, hwritten, hstart⟩ := Parts.mk.inj (Option.some.inj hparts)
    exact ⟨hpath, hkind, hstart, hwritten⟩
  · rintro ⟨rfl, rfl, rfl, hwritten⟩
    rw [key, key, hwritten]

/-- A path that looks like a whole key is not cut. -/
theorem key_decodable_colons :
    (∀ n ∈ some "g", ':' ∉ n.toList) ∧ (∀ n ∈ some "f", ':' ∉ n.toList) ∧
    key "a.py:method:f:0" .function (some "g") 7 ≠ key "a.py" .method (some "f") 0 ∧
    fields? (key "a.py:method:f:0" .function (some "g") 7)
      = some ⟨"a.py:method:f:0", "function", "g", "7"⟩ ∧
    parts? (key "a.py:method:f:0" .function (some "g") 7)
      = some ⟨"a.py:method:f:0", .function, "g", 7⟩ := by
  have hg : ∀ n ∈ some "g", ':' ∉ n.toList := by
    intro n hn
    obtain rfl := Option.mem_some_iff.mp hn
    decide
  have hf : ∀ n ∈ some "f", ':' ∉ n.toList := by
    intro n hn
    obtain rfl := Option.mem_some_iff.mp hn
    decide
  have hall : (key "a.py:method:f:0" .function (some "g") 7 = key "a.py" .method (some "f") 0 ↔ _) ∧
    _ := key_decodable hg hf
  obtain ⟨heq, hfields, hparts, -⟩ := hall
  exact ⟨hg, hf, fun h => absurd (heq.mp h).1 (by decide), hfields, hparts⟩

/-- With a colon in a name the text has two readings. -/
example : key "a" .function (some "b:method:c") 7 = key "a:function:b" .method (some "c") 7 := by
  decide

end Reading

end ChunkId

end SourceChunks
