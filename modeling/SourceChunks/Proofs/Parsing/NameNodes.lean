import SourceChunks.Parsing.Lexeme
import SourceChunks.Parsing.Run
import Mathlib.Data.List.Basic
import Mathlib.Tactic.Tauto

/-!
# Nodes that name units

A unit is named by the text of a node, and the grammars make such a node of a single word
(`Rule.NamesWithin`).  What a scanner passes over lies in a class of characters as soon as its parts
do (`Scan.Within`), so the letters of a word are letters of the text of its node.  One application
of a rule keeps this for the nodes it contributes and for the outcomes it remembers
(`CleanAt.run_succ`, `cleanAt`), and so does the outermost sequence (`runItems_namesIn`).
-/

namespace SourceChunks

/-- The kinds of the nodes that name units. -/
def nameKinds : List String :=
  ["identifier", "type_identifier", "property_identifier", "field_identifier"]

/-- **Every name in a tree has a range of some sort**: the range of each node that names a unit,
however deep it lies. -/
inductive SyntaxNode.NamesIn (ok : Nat → Nat → Prop) : SyntaxNode → Prop where
  | mk {kind : String} {field : Option String} {start stop : Nat} {children : List SyntaxNode}
      (range : kind ∈ nameKinds → ok start stop)
      (inner : ∀ n ∈ children, n.NamesIn ok) : NamesIn ok (.mk kind field start stop children)

namespace SyntaxNode

variable {ok ok' : Nat → Nat → Prop} {n : SyntaxNode}

theorem NamesIn.withField (h : n.NamesIn ok) (f : String) : (n.withField f).NamesIn ok := by
  cases h with
  | mk range inner => exact .mk range inner

theorem moveAllWith_eq_map (f : Nat → Nat) (ns : List SyntaxNode) :
    moveAllWith f ns = ns.map (moveWith f) := by
  induction ns with
  | nil => rw [moveAllWith, List.map_nil]
  | cons n ns ih => rw [moveAllWith, ih, List.map_cons]

/-- Moving the offsets of a tree moves the ranges of its names. -/
theorem NamesIn.moveWith {f : Nat → Nat} (hf : ∀ i j, ok i j → ok' (f i) (f j))
    (h : n.NamesIn ok) : (n.moveWith f).NamesIn ok' := by
  induction h with
  | mk range _ ih =>
    rw [SyntaxNode.moveWith, moveAllWith_eq_map]
    refine .mk (fun hkind => hf _ _ (range hkind)) ?_
    intro m hm
    obtain ⟨n, hn, rfl⟩ := List.mem_map.mp hm
    exact ih n hn

end SyntaxNode

namespace Parsing

/-- **The glyphs from one place to another are characters of a class.** -/
def Input.Spells (p : Char → Bool) (t : Input) (i j : Nat) : Prop :=
  i ≤ j ∧ ∀ k, i ≤ k → k < j → ∃ c, t.char? k = some c ∧ p c = true

section Spells

variable {p : Char → Bool} {t : Input} {i j k : Nat}

theorem Input.spells_self (p : Char → Bool) (t : Input) (i : Nat) : t.Spells p i i := by
  refine ⟨Nat.le_refl i, fun k hik hki => ?_⟩
  omega

theorem Input.Spells.trans (hij : t.Spells p i j) (hjk : t.Spells p j k) : t.Spells p i k := by
  refine ⟨Nat.le_trans hij.1 hjk.1, fun m him hmk => ?_⟩
  by_cases hmj : m < j
  · exact hij.2 m him hmj
  · exact hjk.2 m (by omega) hmk

theorem Input.spells_succ {c : Char} (hc : t.char? i = some c) (hp : p c = true) :
    t.Spells p i (i + 1) := by
  refine ⟨Nat.le_succ i, fun k hik hki => ⟨c, ?_, hp⟩⟩
  have hk : k = i := by omega
  rw [hk, hc]

end Spells

/-! ### What scanners pass over -/

namespace Scan

/-- **A scanner stays within a class**: it passes over characters of the class and over no mark. -/
def Within (p : Char → Bool) (s : Scan) : Prop :=
  ∀ t i j, s t i = some j → t.Spells p i j

variable {p q : Char → Bool} {a b : Scan}

theorem within_satisfy (h : ∀ c, q c = true → p c = true) : (satisfy q).Within p := by
  intro t i j hij
  unfold satisfy at hij
  split at hij
  · rename_i c hc
    split_ifs at hij with hq
    obtain rfl := Option.some.inj hij
    exact Input.spells_succ hc (h c hq)
  · cases hij

theorem within_empty : empty.Within p := by
  intro t i j hij
  obtain rfl := Option.some.inj hij
  exact Input.spells_self p t i

theorem within_chars {cs : List Char} (h : ∀ c ∈ cs, p c = true) : (chars cs).Within p := by
  induction cs with
  | nil => exact within_empty
  | cons c cs ih =>
    rw [List.forall_mem_cons] at h
    intro t i j hij
    rw [chars] at hij
    split at hij
    · rename_i d hd
      split_ifs at hij with hcd
      rw [← eq_of_beq hcd] at hd
      exact (Input.spells_succ hd h.1).trans (ih h.2 t _ j hij)
    · cases hij

theorem within_text {s : String} (h : s.toList.all p = true) : (text s).Within p :=
  within_chars (List.all_eq_true.mp h)

theorem within_absent (a : Scan) : (absent a).Within p := by
  intro t i j hij
  unfold absent at hij
  split_ifs at hij
  obtain rfl := Option.some.inj hij
  exact Input.spells_self p t i

theorem Within.andThen (ha : a.Within p) (hb : b.Within p) : (andThen a b).Within p := by
  intro t i k hik
  unfold Scan.andThen at hik
  split at hik
  · rename_i j hij
    exact (ha t i j hij).trans (hb t j k hik)
  · cases hik

theorem Within.orElse (ha : a.Within p) (hb : b.Within p) : (orElse a b).Within p := by
  intro t i j hij
  unfold Scan.orElse at hij
  split at hij
  · rename_i k hk
    obtain rfl := Option.some.inj hij
    exact ha t i _ hk
  · exact hb t i j hij

theorem Within.optional (ha : a.Within p) : (optional a).Within p := ha.orElse within_empty

theorem Within.repeated (ha : a.Within p) (t : Input) (fuel i : Nat) :
    t.Spells p i (repeated a t fuel i) := by
  induction fuel generalizing i with
  | zero => exact Input.spells_self p t i
  | succ fuel ih =>
    rw [Scan.repeated]
    split
    · rename_i j hij
      split_ifs
      · exact (ha t i j hij).trans (ih j)
      · exact Input.spells_self p t i
    · exact Input.spells_self p t i

theorem Within.many (ha : a.Within p) : (many a).Within p := by
  intro t i j hij
  obtain rfl := Option.some.inj hij
  exact ha.repeated t _ i

/-- **A word is made of its letters.** -/
theorem within_word {isStart isInner : Char → Bool} (hstart : ∀ c, isStart c = true → p c = true)
    (hinner : ∀ c, isInner c = true → p c = true) : (word isStart isInner).Within p :=
  (within_satisfy hstart).andThen (within_satisfy hinner).many

theorem Within.wordExcept {isStart isInner : Char → Bool} (h : (word isStart isInner).Within p)
    (reserved : List String) : (wordExcept isStart isInner reserved).Within p :=
  (within_absent _).andThen h

end Scan

/-! ### Rules whose names are words -/

namespace Rule

variable {σ : Type} {p : Char → Bool}

/-- A rule that is a single lexeme of a class. -/
@[simp]
def IsLexeme (p : Char → Bool) : Rule σ → Prop
  | token scan => scan.Within p
  | _ => False

/-- **The names of a rule lie within a class**: each node that names a unit is a single lexeme of
the class. -/
@[simp]
def NamesWithin (p : Char → Bool) : Rule σ → Prop
  | node kind a => (kind ∈ nameKinds → a.IsLexeme p) ∧ a.NamesWithin p
  | both a b | either a b => a.NamesWithin p ∧ b.NamesWithin p
  | many a | ahead a | absent a | field _ a => a.NamesWithin p
  | succeed | fail | token _ | glued _ | mark _ | test _ | call _ => True

@[simp]
theorem namesWithin_seq {rs : List (Rule σ)} :
    (seq rs).NamesWithin p ↔ ∀ r ∈ rs, r.NamesWithin p := by
  induction rs with
  | nil => simp [seq]
  | cons r rs ih =>
    rw [seq] at ih
    rw [seq, List.foldr_cons, NamesWithin, ih, List.forall_mem_cons]

@[simp]
theorem namesWithin_oneOf {rs : List (Rule σ)} :
    (oneOf rs).NamesWithin p ↔ ∀ r ∈ rs, r.NamesWithin p := by
  induction rs with
  | nil => simp [oneOf]
  | cons r rs ih =>
    rw [oneOf] at ih
    rw [oneOf, List.foldr_cons, NamesWithin, ih, List.forall_mem_cons]

@[simp]
theorem namesWithin_opt {a : Rule σ} : (opt a).NamesWithin p ↔ a.NamesWithin p := by simp [opt]

@[simp]
theorem namesWithin_optSeq {rs : List (Rule σ)} :
    (optSeq rs).NamesWithin p ↔ ∀ r ∈ rs, r.NamesWithin p := by simp [optSeq]

@[simp]
theorem namesWithin_manySeq {rs : List (Rule σ)} :
    (manySeq rs).NamesWithin p ↔ ∀ r ∈ rs, r.NamesWithin p := by simp [manySeq]

@[simp]
theorem namesWithin_many1 {a : Rule σ} : (many1 a).NamesWithin p ↔ a.NamesWithin p := by
  simp [many1]

@[simp]
theorem namesWithin_sepBy1 {a sep : Rule σ} :
    (sepBy1 a sep).NamesWithin p ↔ a.NamesWithin p ∧ sep.NamesWithin p := by
  simp only [sepBy1, NamesWithin]
  tauto

@[simp]
theorem namesWithin_sym (s : String) : (sym s : Rule σ).NamesWithin p := trivial

@[simp]
theorem namesWithin_symNot (s : String) (next : List Char) :
    (symNot s next : Rule σ).NamesWithin p := trivial

@[simp]
theorem namesWithin_syms (ss : List String) : (syms ss : Rule σ).NamesWithin p := trivial

@[simp]
theorem namesWithin_commas1 {a : Rule σ} : (commas1 a).NamesWithin p ↔ a.NamesWithin p := by
  simp [commas1]

@[simp]
theorem namesWithin_commas {a : Rule σ} : (commas a).NamesWithin p ↔ a.NamesWithin p := by
  simp [commas]

@[simp]
theorem namesWithin_parens {a : Rule σ} : (parens a).NamesWithin p ↔ a.NamesWithin p := by
  simp [parens]

@[simp]
theorem namesWithin_brackets {a : Rule σ} : (brackets a).NamesWithin p ↔ a.NamesWithin p := by
  simp [brackets]

@[simp]
theorem namesWithin_braces {a : Rule σ} : (braces a).NamesWithin p ↔ a.NamesWithin p := by
  simp [braces]

end Rule

/-! ### Running a rule -/

/-- The names among the nodes of a rule have ranges of some sort. -/
def Found.NamesIn (ok : Nat → Nat → Prop) (found : Found) : Prop :=
  ∀ n ∈ found.nodes, n.NamesIn ok

/-- So have the names in all outcomes that are remembered. -/
def Memo.NamesIn (ok : Nat → Nat → Prop) (memo : Memo) : Prop :=
  ∀ (key : Nat) (found : Found), memo[key]? = some (some found) → found.NamesIn ok

/-- **A clean outcome**: names have ranges of some sort, in what was found and in what is
remembered. -/
def Clean (ok : Nat → Nat → Prop) (o : Option Found × Memo) : Prop :=
  (∀ found, o.1 = some found → found.NamesIn ok) ∧ Memo.NamesIn ok o.2

section Run

variable {σ : Type} {g : Grammar σ} {t : Input} {p : Char → Bool} {ok : Nat → Nat → Prop}
  {memo : Memo}

theorem Memo.namesIn_empty : Memo.NamesIn ok {} := by
  intro key found h
  simp at h

theorem clean_none (hmemo : memo.NamesIn ok) : Clean ok (none, memo) :=
  ⟨fun _ h => absurd h.symm (Option.some_ne_none _), hmemo⟩

theorem clean_some {found : Found} (hfound : found.NamesIn ok) (hmemo : memo.NamesIn ok) :
    Clean ok (some found, memo) := by
  refine ⟨fun f hf => ?_, hmemo⟩
  obtain rfl := Option.some.inj hf
  exact hfound

theorem Found.namesIn_nil (c : Cursor) : Found.NamesIn ok ⟨c, []⟩ :=
  fun _ h => absurd h List.not_mem_nil

/-- Reading lexemes contributes no nodes. -/
theorem clean_map (c? : Option Cursor) (hmemo : memo.NamesIn ok) :
    Clean ok (c?.map (⟨·, []⟩), memo) := by
  cases c? with
  | none => exact clean_none hmemo
  | some c => exact clean_some (Found.namesIn_nil c) hmemo

theorem Memo.NamesIn.insert (h : memo.NamesIn ok) {o? : Option Found} (key : Nat)
    (ho : ∀ found, o? = some found → found.NamesIn ok) : Memo.NamesIn ok (memo.insert key o?) := by
  intro key' found hfound
  rw [Std.TreeMap.getElem?_insert] at hfound
  split_ifs at hfound
  · exact ho found (Option.some.inj hfound)
  · exact h key' found hfound

/-- The range of a node that is a single lexeme. -/
theorem spells_of_isLexeme {a : Rule σ} (ha : a.IsLexeme p) {fuel : Nat} {c : Cursor}
    {found : Found} {memo' : Memo} (hrun : run g t fuel a c memo = (some found, memo')) :
    t.Spells p c.pos found.cursor.last := by
  cases a with
  | token scan =>
    cases fuel with
    | zero =>
      rw [run] at hrun
      cases hrun
    | succ fuel =>
      rw [run] at hrun
      have hfound := (Prod.mk.inj hrun).1
      obtain ⟨c', hc', rfl⟩ := Option.map_eq_some_iff.mp hfound
      obtain ⟨stop, hstop, rfl⟩ := Option.map_eq_some_iff.mp hc'
      exact ha t c.pos stop hstop
  | _ => exact absurd ha id

/-- **Outcomes are clean at some depth**, of rules whose names are words and of their
repetition. -/
structure CleanAt (g : Grammar σ) (t : Input) (p : Char → Bool) (fuel : Nat) : Prop where
  run : ∀ (r : Rule σ) (c : Cursor) (memo : Memo), r.NamesWithin p →
    memo.NamesIn (t.Spells p) → Clean (t.Spells p) (run g t fuel r c memo)
  runMany : ∀ (a : Rule σ) (c : Cursor) (acc : List SyntaxNode) (memo : Memo), a.NamesWithin p →
    (∀ n ∈ acc, n.NamesIn (t.Spells p)) → memo.NamesIn (t.Spells p) →
    Clean (t.Spells p) (runMany g t fuel a c acc memo)

theorem cleanAt_zero : CleanAt g t p 0 where
  run r c memo _ hmemo := by
    rw [Parsing.run]
    exact clean_none hmemo
  runMany a c acc memo _ hacc hmemo := by
    rw [Parsing.runMany]
    exact clean_some (fun n hn => hacc n (List.mem_reverse.mp hn)) hmemo

/-- One application of a rule, one level further down: a case for each way to build a rule. -/
theorem CleanAt.run_succ {fuel : Nat} (ih : CleanAt g t p fuel)
    (hg : ∀ s, (g.rule s).NamesWithin p) {r : Rule σ} (c : Cursor) (hr : r.NamesWithin p)
    (hmemo : memo.NamesIn (t.Spells p)) :
    Clean (t.Spells p) (Parsing.run g t (fuel + 1) r c memo) := by
  cases r with
  | succeed =>
    rw [Parsing.run]
    exact clean_some (Found.namesIn_nil c) hmemo
  | fail =>
    rw [Parsing.run]
    exact clean_none hmemo
  | token scan =>
    rw [Parsing.run]
    exact clean_map _ hmemo
  | glued scan =>
    rw [Parsing.run]
    cases scan t c.pos with
    | none => exact clean_none hmemo
    | some stop => exact clean_some (Found.namesIn_nil _) hmemo
  | mark m =>
    rw [Parsing.run]
    split_ifs
    · exact clean_some (Found.namesIn_nil _) hmemo
    · exact clean_none hmemo
  | test holds =>
    rw [Parsing.run]
    split_ifs
    · exact clean_some (Found.namesIn_nil c) hmemo
    · exact clean_none hmemo
  | both a b =>
    rw [Parsing.run]
    have hfirst := ih.run a c memo hr.1 hmemo
    generalize Parsing.run g t fuel a c memo = o at hfirst ⊢
    obtain ⟨_ | first, memo₁⟩ := o
    · exact clean_none hfirst.2
    · have hsecond := ih.run b first.cursor memo₁ hr.2 hfirst.2
      dsimp only
      generalize Parsing.run g t fuel b first.cursor memo₁ = o at hsecond ⊢
      obtain ⟨_ | second, memo₂⟩ := o
      · exact clean_none hsecond.2
      · refine clean_some (fun n hn => ?_) hsecond.2
        rcases List.mem_append.mp hn with hn | hn
        · exact hfirst.1 first rfl n hn
        · exact hsecond.1 second rfl n hn
  | either a b =>
    rw [Parsing.run]
    have hfirst := ih.run a c memo hr.1 hmemo
    generalize Parsing.run g t fuel a c memo = o at hfirst ⊢
    obtain ⟨_ | found, memo₁⟩ := o
    · exact ih.run b c memo₁ hr.2 hfirst.2
    · exact hfirst
  | many a =>
    rw [Parsing.run]
    exact ih.runMany a c [] memo hr (fun n hn => absurd hn List.not_mem_nil) hmemo
  | ahead a =>
    rw [Parsing.run]
    have hinner := ih.run a c memo hr hmemo
    generalize Parsing.run g t fuel a c memo = o at hinner ⊢
    obtain ⟨_ | found, memo₁⟩ := o
    · exact clean_none hinner.2
    · exact clean_some (Found.namesIn_nil c) hinner.2
  | absent a =>
    rw [Parsing.run]
    have hinner := ih.run a c memo hr hmemo
    generalize Parsing.run g t fuel a c memo = o at hinner ⊢
    obtain ⟨_ | found, memo₁⟩ := o
    · exact clean_some (Found.namesIn_nil c) hinner.2
    · exact clean_none hinner.2
  | node kind a =>
    rw [Parsing.run]
    have hinner := ih.run a c memo hr.2 hmemo
    -- the new node may name a unit; then its rule is one lexeme, and that fixes its range
    have hrange : kind ∈ nameKinds → ∀ found memo₁,
        Parsing.run g t fuel a c memo = (some found, memo₁) →
          t.Spells p c.pos found.cursor.last :=
      fun hkind _ _ => spells_of_isLexeme (hr.1 hkind)
    generalize Parsing.run g t fuel a c memo = o at hinner hrange ⊢
    obtain ⟨_ | found, memo₁⟩ := o
    · exact clean_none hinner.2
    · dsimp only
      split_ifs
      · refine clean_some (fun n hn => ?_) hinner.2
        obtain rfl := List.mem_singleton.mp hn
        exact .mk (fun hkind => hrange hkind found memo₁ rfl) (hinner.1 found rfl)
      · exact hinner
  | field name a =>
    rw [Parsing.run]
    have hinner := ih.run a c memo hr hmemo
    generalize Parsing.run g t fuel a c memo = o at hinner ⊢
    obtain ⟨_ | found, memo₁⟩ := o
    · exact clean_none hinner.2
    · refine clean_some (fun n hn => ?_) hinner.2
      obtain ⟨m, hm, rfl⟩ := List.mem_map.mp hn
      exact (hinner.1 found rfl m hm).withField name
  | call s =>
    rw [Parsing.run]
    dsimp only
    split
    · -- the outcome is remembered
      rename_i outcome hkey
      refine ⟨fun found hfound => hmemo (memoKey g t s c) found ?_, hmemo⟩
      rw [hkey]
      exact congrArg some hfound
    · -- the rule of the symbol is run, and its outcome remembered
      have hcall := ih.run (g.rule s) c memo (hg s) hmemo
      exact ⟨hcall.1, hcall.2.insert _ hcall.1⟩

/-- One round of a repetition. -/
theorem CleanAt.runMany_succ {fuel : Nat} (ih : CleanAt g t p fuel) {a : Rule σ} (c : Cursor)
    {acc : List SyntaxNode} (ha : a.NamesWithin p) (hacc : ∀ n ∈ acc, n.NamesIn (t.Spells p))
    (hmemo : memo.NamesIn (t.Spells p)) :
    Clean (t.Spells p) (Parsing.runMany g t (fuel + 1) a c acc memo) := by
  have hstop : Found.NamesIn (t.Spells p) ⟨c, acc.reverse⟩ :=
    fun n hn => hacc n (List.mem_reverse.mp hn)
  rw [Parsing.runMany]
  have hround := ih.run a c memo ha hmemo
  generalize Parsing.run g t fuel a c memo = o at hround ⊢
  obtain ⟨_ | found, memo₁⟩ := o
  · exact clean_some hstop hround.2
  · dsimp only
    split_ifs
    · refine ih.runMany a found.cursor _ memo₁ ha (fun n hn => ?_) hround.2
      rcases List.mem_append.mp hn with hn | hn
      · exact hround.1 found rfl n (List.mem_reverse.mp hn)
      · exact hacc n hn
    · exact clean_some hstop hround.2

/-- **Outcomes are clean at every depth**, if names are words in the rules of all symbols. -/
theorem cleanAt (hg : ∀ s, (g.rule s).NamesWithin p) (fuel : Nat) : CleanAt g t p fuel := by
  induction fuel with
  | zero => exact cleanAt_zero
  | succ fuel ih =>
    exact ⟨fun _ c _ hr hmemo => ih.run_succ hg c hr hmemo,
      fun _ c _ _ ha hacc hmemo => ih.runMany_succ c ha hacc hmemo⟩

/-! ### The outermost sequence -/

theorem runOnward_clean (hg : ∀ s, (g.rule s).NamesWithin p) (depth : Nat) {r : Rule σ}
    (hr : r.NamesWithin p) (c : Cursor) (hmemo : memo.NamesIn (t.Spells p)) :
    Clean (t.Spells p) (runOnward g t depth r c memo) := by
  have hrun := (cleanAt hg depth).run r c memo hr hmemo
  refine ⟨fun found hfound => hrun.1 found ?_, hrun.2⟩
  exact (Option.filter_eq_some_iff.mp hfound).1

/-- **The outermost sequence keeps clean**, by induction on its items. -/
theorem runItems_namesIn (hg : ∀ s, (g.rule s).NamesWithin p) (hitem : g.item.NamesWithin p)
    (hunfinished : g.unfinished.NamesWithin p) (depth fuel : Nat) (c : Cursor)
    {acc : List SyntaxNode} (hacc : ∀ n ∈ acc, n.NamesIn (t.Spells p)) (hasError : Bool)
    (hmemo : memo.NamesIn (t.Spells p)) :
    ∀ n ∈ (runItems g t depth fuel c acc hasError memo).1, n.NamesIn (t.Spells p) := by
  induction fuel generalizing c acc hasError memo with
  | zero =>
    rw [runItems]
    exact hacc
  | succ fuel ih =>
    have hmore : ∀ {found : Found}, found.NamesIn (t.Spells p) →
        ∀ n ∈ found.nodes.reverse ++ acc, n.NamesIn (t.Spells p) := by
      intro found hfound n hn
      rcases List.mem_append.mp hn with hn | hn
      · exact hfound n (List.mem_reverse.mp hn)
      · exact hacc n hn
    rw [runItems]
    split_ifs
    · exact hacc
    have hfirst := runOnward_clean hg depth hitem c hmemo
    generalize runOnward g t depth g.item c memo = o at hfirst ⊢
    obtain ⟨_ | found, memo₁⟩ := o
    · -- no item here: an unfinished one, or a token is skipped
      have hsecond := runOnward_clean hg depth hunfinished c hfirst.2
      dsimp only
      generalize runOnward g t depth g.unfinished c memo₁ = o at hsecond ⊢
      obtain ⟨_ | found, memo₂⟩ := o
      · dsimp only
        split
        · exact ih _ hacc true hsecond.2
        · exact hacc
      · exact ih found.cursor (hmore (hsecond.1 found rfl)) true hsecond.2
    · exact ih found.cursor (hmore (hfirst.1 found rfl)) hasError hfirst.2

end Run

end Parsing

end SourceChunks
