import SourceChunks.Language
import SourceChunks.Proofs.Parsing.Places

/-!
# Names in every language

In each of the languages a node that names a unit is one word, and no word holds a colon or a full
stop (`isPlain`): the letters of a name keep apart what the id of a chunk puts colons between.  For
a grammar this is a check of its rules (`Grammar.NamesWithin`), and it carries over to the text of
every name in every parsed text (`Language.namesIn_parse`).
-/

namespace SourceChunks

/-- A character that neither divides the parts of a key nor marks an extension. -/
def isPlain (c : Char) : Bool := !(c == ':' || c == '.')

/-- A class without colon and full stop has plain characters only. -/
theorem isPlain_of_class {q : Char → Bool} (hcolon : q ':' = false) (hdot : q '.' = false)
    (c : Char) (h : q c = true) : isPlain c = true := by
  have hc : c ≠ ':' := by
    rintro rfl
    rw [hcolon] at h
    cases h
  have hd : c ≠ '.' := by
    rintro rfl
    rw [hdot] at h
    cases h
  simp [isPlain, hc, hd]

/-- A word of such classes is plain. -/
theorem plain_word {isStart isInner : Char → Bool}
    (hstart : isStart ':' = false ∧ isStart '.' = false)
    (hinner : isInner ':' = false ∧ isInner '.' = false) :
    (Parsing.Scan.word isStart isInner).Within isPlain :=
  Parsing.Scan.within_word (isPlain_of_class hstart.1 hstart.2)
    (isPlain_of_class hinner.1 hinner.2)

/-! ### Parsed texts -/

namespace Parsing

/-- The characters between two offsets of a text belong to a class. -/
def SliceWithin (p : Char → Bool) (text : List Char) (i j : Nat) : Prop :=
  ∀ c ∈ (text.drop i).take (j - i), p c = true

/-- **The names of a grammar lie within a class**, in all of its rules, and its layout adds nothing
but marks. -/
structure Grammar.NamesWithin {σ : Type} (p : Char → Bool) (g : Grammar σ) : Prop where
  rule : ∀ s, (g.rule s).NamesWithin p
  opening : g.opening.NamesWithin p
  item : g.item.NamesWithin p
  unfinished : g.unfinished.NamesWithin p
  root : g.root ∉ nameKinds
  layout : ∀ text, Input.charsOf (g.layout text).toList <+: text

/-- **So do the names of every parsed text.** -/
theorem Grammar.NamesWithin.parse {σ : Type} {p : Char → Bool} {g : Grammar σ}
    (h : g.NamesWithin p) (text : List Char) :
    (g.parse text).root.NamesIn (SliceWithin p text) := by
  have hempty : SyntaxNode.NamesIn (SliceWithin p text) (.mk g.root none 0 text.length []) :=
    .mk (fun hroot => absurd hroot h.root) fun n hn => absurd hn List.not_mem_nil
  unfold Grammar.parse
  dsimp only
  split_ifs
  · refine .mk (fun hroot => absurd hroot h.root) fun n hn => ?_
    rw [SyntaxNode.moveAllWith_eq_map] at hn
    obtain ⟨m, hm, rfl⟩ := List.mem_map.mp hn
    have hopening : ∀ depth c,
        Clean ((g.layout text).Spells p) (run g (g.layout text) depth g.opening c {}) :=
      fun depth c => (cleanAt h.rule depth).run g.opening c {} h.opening Memo.namesIn_empty
    have hitems := runItems_namesIn h.rule h.item h.unfinished _ _ _
      (fun n hn => absurd hn List.not_mem_nil) false (hopening _ _).2 m (List.mem_reverse.mp hm)
    exact hitems.moveWith fun i j hij => hij.slice (h.layout text) text.length
  · exact hempty

theorem Input.charsOf_ofChars_prefix (text : List Char) :
    Input.charsOf (Input.ofChars text).toList <+: text := by
  have hchars : Input.charsOf (Input.ofChars text).toList = text := by
    rw [Input.toList_ofChars, Input.charsOf_map_char]
  exact ⟨[], by rw [hchars, List.append_nil]⟩

end Parsing

open Parsing Rule

/-! ### The languages -/

namespace Python

theorem within_word : (Scan.word isStart isInner).Within isPlain :=
  plain_word (by decide) (by decide)

theorem within_wordExcept (reserved : List String) :
    (Scan.wordExcept isStart isInner reserved).Within isPlain :=
  within_word.wordExcept reserved

attribute [local simp] kw lineEnds kwOn symOn equals anyName argumentName number plainString
  formattedString operator item clauses yielded slice pair atom trailer parameter typeParameters
  dotted imported simple body elsePart finallyPart decorator caseClause compound quotes in
theorem namesWithin_rule (s : Symbol) : (rule s).NamesWithin isPlain := by
  cases s <;> simp [rule, nameKinds, within_word, within_wordExcept]

theorem namesWithin_grammar : grammar.NamesWithin isPlain where
  rule := namesWithin_rule
  opening := trivial
  item := trivial
  unfinished := trivial
  root := by decide
  layout := Indentation.chars_layout_prefix isInner

end Python

namespace Java

theorem within_word : (Scan.word isStart isInner).Within isPlain :=
  plain_word (by decide) (by decide)

attribute [local simp] kw anyName nameField dotted equals operator lambda dims created
  newExpression typeOperand atom trailer recordPattern modifiersRule declarator throwsPart
  typesAfter method constructor classDeclaration interfaceDeclaration recordDeclaration
  enumDeclaration annotationDeclaration declarationRule memberRule localVariable heading resource
  statementRule caseLabel switchBlockRule in
theorem namesWithin_rule (s : Symbol) : (rule s).NamesWithin isPlain := by
  cases s <;> simp [rule, nameKinds, within_word]

theorem namesWithin_grammar : grammar.NamesWithin isPlain where
  rule := namesWithin_rule
  opening := trivial
  item := by
    simp [grammar, method, nameField, anyName, throwsPart, kw, dims, nameKinds, within_word]
  unfinished := trivial
  root := by decide
  layout := Input.charsOf_ofChars_prefix

end Java

namespace Go

theorem within_anyWord : anyWord.Within isPlain :=
  plain_word (by decide) (by decide)

theorem within_wordExcept (reserved : List String) :
    (Scan.wordExcept isStart isInner reserved).Within isPlain :=
  within_anyWord.wordExcept reserved

attribute [local simp] kw nameField terminator unbroken group typeName fieldDeclaration
  interfaceElement lines typeRule operator functionLiteral literalType builtinCall atom trailer
  operation element expressions simpleOf headSimple preamble branch rangeClause communication
  branches typeSwitchHead compound statementRule values constSpec varSpec typeSpec declarationRule
  function method importSpec topLevel in
theorem namesWithin_rule (s : Symbol) : (rule s).NamesWithin isPlain := by
  cases s <;> simp [rule, nameKinds, within_anyWord]

attribute [local simp] kw nameField terminator group function method importSpec topLevel unbroken in
theorem namesWithin_grammar : grammar.NamesWithin isPlain where
  rule := namesWithin_rule
  opening := trivial
  item := by simp [grammar, nameKinds, within_anyWord, within_wordExcept, atEnd]
  unfinished := trivial
  root := by decide
  layout := Input.charsOf_ofChars_prefix

end Go

namespace Rust

theorem within_word : (Scan.word isStart isInner).Within isPlain :=
  plain_word (by decide) (by decide)

theorem within_anyName : anyName.Within isPlain :=
  (Scan.within_text (by decide)).optional.andThen within_word

theorem within_name : name.Within isPlain := by
  have hraw : (Scan.text "r#").Within isPlain := Scan.within_text (by decide)
  exact (hraw.andThen (within_word.andThen Scan.within_empty)).orElse
    ((Scan.within_absent _).andThen within_word)

theorem namesWithin_useTree (depth : Nat) : (useTree depth).NamesWithin isPlain := by
  induction depth with
  | zero => trivial
  | succ depth ih => simp [useTree, kw, ih]

attribute [local simp] kw kws literal equals bound result typeSegment typePath typePartRule rangeEnd
  fieldPattern patternPartRule operator beforeOperand beforeCondition operation trailer structBody
  atom closureRule matchArm ifExpression blockLikeRule visibility functionWords function fieldList
  typeList struct itemList plainType impl variant itemRule in
theorem namesWithin_rule (s : Symbol) : (rule s).NamesWithin isPlain := by
  cases s <;> simp [rule, nameKinds, within_anyName, within_name, namesWithin_useTree]

theorem namesWithin_grammar : grammar.NamesWithin isPlain where
  rule := namesWithin_rule
  opening := by simp [grammar]
  item := trivial
  unfinished := trivial
  root := by decide
  layout := Input.charsOf_ofChars_prefix

end Rust

namespace Cpp

theorem within_wordExcept (reserved : List String) :
    (Scan.wordExcept isStart isInner reserved).Within isPlain :=
  (plain_word (by decide) (by decide)).wordExcept reserved

attribute [local simp] kw kws anyWord preprocessor equals colon pointer operatorName decltypeOf
  namePart qualifiedName operandArguments templateArgument modifier baseClause recordSpecifier
  enumSpecifier typeSpecifierRule constraint functionSuffix arraySuffix declaratorSuffix
  plainFunction declaratorRule abstractDeclaratorRule initDeclarator parameter operator lambda
  newExpression requiresExpression wordInText atom trailer operation expressionTail unaryRule
  handlers memberInitializers functionBody impliedBody functionDefinition constructorDefinition
  constructorDeclaration itemList template sharedItem declaration itemRule declaringMember
  memberRule condition forHead statementRule blockItemRule except nameScan declaredScan in
theorem namesWithin_rule (s : Symbol) : (rule s).NamesWithin isPlain := by
  cases s <;> simp [rule, nameKinds, within_wordExcept]

theorem namesWithin_grammar : grammar.NamesWithin isPlain where
  rule := namesWithin_rule
  opening := trivial
  item := trivial
  unfinished := trivial
  root := by decide
  layout := Input.charsOf_ofChars_prefix

end Cpp

namespace Script

theorem within_anyWord : anyWord.Within isPlain :=
  plain_word (by decide) (by decide)

theorem within_wordExcept (reserved : List String) :
    (Scan.wordExcept isStart isInner reserved).Within isPlain :=
  within_anyWord.wordExcept reserved

attribute [local simp] kw template understood semicolon unbroken equals initializer memberName
  nameOf typeTag resultTag signature functionType namedType tupleElement mappedSign
  typeMember typeRule typePrimaryRule objectTypeRule typeArgumentsRule typeParametersRule operator
  questionMark spreadable sparse dotMember subscript trailer functionExpression heritage
  classExpression newExpression atomRule unaryRule binaryRule expressionRule arrowRule patternRule
  parametersRule argumentsRule objectRule markupName markupAttribute markupContent markupRule
  condition modifier methodRule fieldMember methodSignature indexSignature classBodyRule
  decoratorRule classDeclaration functionDeclaration variableDeclaration interfaceDeclaration
  enumDeclaration moduleDeclaration typedDeclaration declarationRule listedName nameList fromClause
  importAttributes importClause importStatement exportStatement forHead statementRule typed
  typedOpt in
theorem namesWithin_rule (d : Dialect) (s : Symbol) : (rule d s).NamesWithin isPlain := by
  cases s <;> simp [rule, nameKinds, within_anyWord, within_wordExcept,
    apply_ite (Rule.NamesWithin isPlain)]

theorem namesWithin_grammar (d : Dialect) : (grammar d).NamesWithin isPlain where
  rule := namesWithin_rule d
  opening := by simp [grammar]
  item := trivial
  unfinished := trivial
  root := by
    show "program" ∉ nameKinds
    decide
  layout := Input.charsOf_ofChars_prefix

end Script

/-- **No name in any language holds a colon or a full stop.** -/
theorem Language.namesIn_parse (l : Language) (text : List Char) :
    (l.parse text).root.NamesIn (SliceWithin isPlain text) := by
  cases l with
  | python => exact Python.namesWithin_grammar.parse text
  | javascript => exact (Script.namesWithin_grammar .javascript).parse text
  | typescript => exact (Script.namesWithin_grammar .typescript).parse text
  | tsx => exact (Script.namesWithin_grammar .tsx).parse text
  | java => exact Java.namesWithin_grammar.parse text
  | cpp => exact Cpp.namesWithin_grammar.parse text
  | rust => exact Rust.namesWithin_grammar.parse text
  | go => exact Go.namesWithin_grammar.parse text

end SourceChunks
