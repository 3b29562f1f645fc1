import SourceChunks.Tree.Places

/-!
# Ranges in a tree

In a nested tree the range of a node lies in the range of the node around it, so it lies in the text
(`SyntaxTree.isNested_of_mem_nodes`), and the text of a child stands in the text of its parent
(`SyntaxTree.textOf_child_isInfix`).  Parsers give nested trees (`Parser.isNested_parse`).
-/

namespace SourceChunks

namespace SyntaxNode

variable {n m : SyntaxNode} {lo hi lo' hi' : Nat}

theorem allNested_iff {ns : List SyntaxNode} :
    allNested lo hi ns = true ↔ ∀ n ∈ ns, n.isNested lo hi = true := by
  induction ns with
  | nil => simp [allNested]
  | cons n ns ih => rw [allNested, Bool.and_eq_true, ih, List.forall_mem_cons]

theorem isNested_iff : n.isNested lo hi = true ↔
    (lo ≤ n.start ∧ n.start ≤ n.stop ∧ n.stop ≤ hi) ∧
      ∀ m ∈ n.children, m.isNested n.start n.stop = true := by
  obtain ⟨kind, field, start, stop, children⟩ := n
  show _ ↔ (lo ≤ start ∧ start ≤ stop ∧ stop ≤ hi) ∧ ∀ m ∈ children, m.isNested start stop = true
  rw [isNested, ← allNested_iff]
  simp only [Bool.and_eq_true, decide_eq_true_eq, and_assoc]

theorem isNested_mono (h : n.isNested lo hi = true) (hlo : lo' ≤ lo) (hhi : hi ≤ hi') :
    n.isNested lo' hi' = true := by
  obtain ⟨hrange, hchildren⟩ := isNested_iff.mp h
  apply isNested_iff.mpr
  exact ⟨by omega, hchildren⟩

/-- **What lies below a nested node is nested** between the same bounds, by induction on the way. -/
theorem isNested_of_at? (h : n.isNested lo hi = true) {way : List Nat}
    (hm : n.at? way = some m) : m.isNested lo hi = true := by
  induction way generalizing m with
  | nil =>
    obtain rfl := Option.some.inj hm
    exact h
  | cons i way ih =>
    rw [at?, Option.bind_eq_some_iff] at hm
    obtain ⟨around, haround, hchild⟩ := hm
    -- the bounds of a child are those of its parent, which lie between the outer ones
    obtain ⟨hrange, hchildren⟩ := isNested_iff.mp (ih haround)
    have hinner := hchildren m (List.mem_of_getElem? hchild)
    exact isNested_mono hinner (by omega) (by omega)

end SyntaxNode

namespace SyntaxTree

variable {t : SyntaxTree} {p q : PlacedNode} {size : Nat}

/-- **The nodes of a nested tree** lie in the text and are nested themselves. -/
theorem isNested_of_mem_nodes (h : t.root.isNested 0 size = true) (hp : p ∈ t.nodes) :
    p.node.isNested 0 size = true :=
  SyntaxNode.isNested_of_at? h (mem_nodes_iff.mp hp)

theorem toList_textOf (text : List Char) (n : SyntaxNode) :
    (textOf text n).toList = (text.drop n.start).take (n.stop - n.start) :=
  String.toList_ofList

theorem textOf_isInfix (text : List Char) {inner outer : SyntaxNode}
    (hstart : outer.start ≤ inner.start) (hstop : inner.stop ≤ outer.stop) :
    (textOf text inner).toList <:+: (textOf text outer).toList := by
  have hinner : (textOf text inner).toList
      = ((textOf text outer).toList.drop (inner.start - outer.start)).take
          (inner.stop - inner.start) := by
    rw [toList_textOf, toList_textOf, List.drop_take, List.drop_drop, List.take_take]
    congr 2 <;> omega
  rw [hinner]
  exact (List.take_prefix _ _).isInfix.trans (List.drop_suffix _ _).isInfix

/-- **The text of a child stands in the text of its parent.** -/
theorem textOf_child_isInfix (text : List Char) (h : t.root.isNested 0 size = true)
    (hp : p ∈ t.nodes) (hq : q ∈ p.children) :
    (textOf text q.node).toList <:+: (textOf text p.node).toList := by
  obtain ⟨i, -, hchild⟩ := PlacedNode.mem_children.mp hq
  have hparent := SyntaxNode.isNested_iff.mp (isNested_of_mem_nodes h hp)
  have hnested := hparent.2 q.node (List.mem_of_getElem? hchild)
  obtain ⟨⟨hstart, -, hstop⟩, -⟩ := SyntaxNode.isNested_iff.mp hnested
  exact textOf_isInfix text hstart hstop

end SyntaxTree

end SourceChunks
