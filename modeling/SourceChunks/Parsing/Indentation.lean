import SourceChunks.Parsing.Scan

/-!
# Layout by indentation

Where blocks are shown by indentation, a layout adds three marks to the characters.  A logical
line ends with a `line` mark before its line feed; inside brackets and behind a backslash lines do
not end.  A line that ends with a colon and is followed by a deeper line ends with `indent`
instead.  Each block that the next line leaves gets a `dedent` mark, which stands behind the
comments that are indented at least as far as the block.

Depth is counted in columns, with eight for a tab.  A deeper line that follows no colon opens
nothing, and a line that falls between two open depths closes the deeper block only.
-/

namespace SourceChunks.Parsing.Indentation

/-! ### Looking ahead -/

/-- What lies ahead of a line end. -/
structure Ahead where
  /-- Depth of the first comment line before the next line of code. -/
  comment? : Option Nat
  /-- Depth of the next line of code, zero at the end. -/
  depth : Nat

/-- Reads blank lines and comment lines from a place on, `column` columns into a line. -/
def lookAhead (t : Input) : Nat → Nat → Nat → Option Nat → Ahead
  | 0, _, _, comment? => ⟨comment?, 0⟩
  | fuel + 1, i, column, comment? =>
    match t.char? i with
    | none => ⟨comment?, 0⟩
    | some c =>
      if c == '\n' || c == '\r' || c == '\x0c' then lookAhead t fuel (i + 1) 0 comment?
      else if c == ' ' then lookAhead t fuel (i + 1) (column + 1) comment?
      else if c == '\t' then lookAhead t fuel (i + 1) (column + 8) comment?
      else if c == '#' then
        let stop := (Scan.restOfLine t i).getD i
        lookAhead t fuel (stop + 1) 0 (comment?.orElse fun _ => some column)
      else if c == '\\' then
        let next := if t.char? (i + 1) = some '\r' then i + 2 else i + 1
        if t.char? next = some '\n' || t.size ≤ next then lookAhead t fuel
          (next + 1) column comment?
        else ⟨comment?, column⟩
      else ⟨comment?, column⟩

/-! ### Quoted text

Brackets and line ends inside quoted text mean nothing.  In a formatted string the parts between
braces hold code, and there quotes open new strings. -/

/-- Letters that can stand before a quote. -/
def isFlag (c : Char) : Bool := "fFbBrRuUtT".toList.contains c

/-- The quote that opens a string at a place, three times or once. -/
def quoteAt? (t : Input) (i : Nat) : Option (List Char) :=
  match t.char? i with
  | some q =>
    if q == '"' || q == '\'' then
      if t.char? (i + 1) = some q && t.char? (i + 2) = some q then some [q, q, q] else some [q]
    else none
  | none => none

mutual

/-- The place after a string whose content begins at a place. -/
def stringEnd? (t : Input) (quote : List Char) (formatted : Bool) : Nat → Nat → Option Nat
  | 0, _ => none
  | fuel + 1, i =>
    match Scan.chars quote t i with
    | some j => some j
    | none =>
      match t.char? i with
      | none => none
      | some c =>
        if c == '\\' && !(formatted && (t.char? (i + 1) = some '\x7b' ||
          t.char? (i + 1) = some '\x7d')) then
          stringEnd? t quote formatted fuel (i + 2)
        else if c == '\n' && quote.length == 1 then none
        else if formatted && c == '\x7b' then
          if t.char? (i + 1) = some '\x7b' then stringEnd? t quote formatted fuel (i + 2)
          else match holeEnd? t fuel 0 (i + 1) with
            | some j => stringEnd? t quote formatted fuel j
            | none => none
        else stringEnd? t quote formatted fuel (i + 1)

/-- The place after a part in braces, `depth` brackets deep. -/
def holeEnd? (t : Input) : Nat → Nat → Nat → Option Nat
  | 0, _, _ => none
  | fuel + 1, depth, i =>
    match t.char? i with
    | none => none
    | some c =>
      if c == '\x7d' && depth == 0 then some (i + 1)
      else if c == '(' || c == '[' || c == '\x7b' then holeEnd? t fuel (depth + 1) (i + 1)
      else if c == ')' || c == ']' || c == '\x7d' then holeEnd? t fuel (depth - 1) (i + 1)
      else if c == ':' && depth == 0 then formatEnd? t fuel (i + 1)
      else
        match stringAt? t fuel i with
        | some j => holeEnd? t fuel depth j
        | none => holeEnd? t fuel depth (i + 1)

/-- The place after the format of a part in braces, with the closing brace. -/
def formatEnd? (t : Input) : Nat → Nat → Option Nat
  | 0, _ => none
  | fuel + 1, i =>
    match t.char? i with
    | none => none
    | some c =>
      if c == '\x7d' then some (i + 1)
      else if c == '\x7b' then
        match holeEnd? t fuel 0 (i + 1) with
        | some j => formatEnd? t fuel j
        | none => none
      else formatEnd? t fuel (i + 1)

/-- The place after the string that begins at a place, flags included. -/
def stringAt? (t : Input) : Nat → Nat → Option Nat
  | 0, _ => none
  | fuel + 1, i =>
    let j := Scan.repeated (Scan.satisfy isFlag) t 4 i
    match quoteAt? t j with
    | none => none
    | some quote =>
      let flags := t.extract i j
      stringEnd? t quote (flags.contains (.char 'f') || flags.contains (.char 'F')) fuel
        (j + quote.length)

end

/-! ### The layout -/

/-- What is known while a text is laid out. -/
structure State where
  /-- Open brackets. -/
  brackets : Nat
  /-- Depths of the open blocks, innermost first. -/
  depths : List Nat
  /-- Has the present logical line any code? -/
  hasCode : Bool
  /-- Is a colon outside brackets the last code of the line? -/
  afterColon : Bool

/-- The `dedent` marks due before a line end, and the depths that stay open. -/
def leave (ahead : Ahead) : List Nat → List Mark × List Nat
  | [] => ([], [])
  | d :: ds =>
    if ahead.depth < d && (ahead.comment?.map (decide <| · < d)).getD true then
      let (marks, rest) := leave ahead ds
      (.dedent :: marks, rest)
    else ([], d :: ds)

/-- The marks due before a line end, and the state after it. -/
def endLine (ahead : Ahead) (s : State) : List Mark × State :=
  if s.hasCode && s.afterColon && s.depths.headD 0 < ahead.depth then
    ([.indent], ⟨s.brackets, ahead.depth :: s.depths, false, false⟩)
  else
    let (marks, depths) := leave ahead s.depths
    (if s.hasCode then .line :: marks else marks, ⟨s.brackets, depths, false, false⟩)

/-- Copies the glyphs of a range. -/
def copy (t : Input) (i j : Nat) (out : Input) : Input := out ++ t.extract i j

/-- Blanks that are no code. -/
def isBlankGlyph (c : Char) : Bool :=
  c == ' ' || c == '\t' || c == '\r' || c == '\n' || c == '\x0b' || c == '\x0c' || c == '\uFEFF' ||
    c == '\u2060' || c == '\u200B'

/-- Lays out the glyphs of `t` from a place on.  `isInner` says which characters continue a
word. -/
def layOut (isInner : Char → Bool) (t : Input) : Nat → Nat → State → Input → Input
  | 0, _, _, out => out
  | fuel + 1, i, s, out =>
    match t.char? i with
    | none =>
      let (marks, _) := endLine ⟨none, 0⟩ s
      out ++ (marks.map Glyph.mark).toArray
    | some c =>
      let code (colon : Bool) (brackets : Nat) : State := ⟨brackets, s.depths, true, colon⟩
      if c == '\n' && s.brackets == 0 then
        let (marks, s') := endLine (lookAhead t (t.size - i + 1) i 0 none) s
        layOut isInner t fuel (i + 1) s' ((out ++ (marks.map Glyph.mark).toArray).push (.char c))
      else if isBlankGlyph c then layOut isInner t fuel (i + 1) s (out.push (.char c))
      else if c == '#' then
        let j := (Scan.restOfLine t i).getD (i + 1)
        layOut isInner t fuel j s (copy t i j out)
      else if c == '\\' && (t.char? (i + 1) = some '\n' || t.char? (i + 1) = some '\r') then
        let j := if t.char? (i + 1) = some '\r' then i + 3 else i + 2
        layOut isInner t fuel j s (copy t i j out)
      else
        match stringAt? t (t.size + 1) i with
        | some j => layOut isInner t fuel j (code false s.brackets) (copy t i j out)
        | none =>
          if isInner c then
            let j := Scan.repeated (Scan.satisfy isInner) t (t.size - i) i
            layOut isInner t fuel j (code false s.brackets) (copy t i j out)
          else
            let brackets :=
              if c == '(' || c == '[' || c == '\x7b' then s.brackets + 1
              else if c == ')' || c == ']' || c == '\x7d' then s.brackets - 1
              else s.brackets
            layOut isInner t fuel (i + 1) (code (c == ':' && s.brackets == 0) brackets)
              (out.push (.char c))

/-- **A text with its layout marks.** -/
def layout (isInner : Char → Bool) (text : List Char) : Input :=
  let t := Input.ofChars text
  layOut isInner t (t.size + 1) 0 ⟨0, [0], false, false⟩ #[]

end SourceChunks.Parsing.Indentation
