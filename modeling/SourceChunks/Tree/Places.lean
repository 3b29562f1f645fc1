import SourceChunks.Tree.Node

/-!
# Places in a tree

A placed node carries the way to it, so the node is what the way leads to
(`SyntaxTree.mem_nodes_iff`) and the way alone decides which node it is.  Whether one node is
directly around another can be told from the two ways: of two nodes of a tree, `isParentOf` holds
exactly if the second is a child of the first (`PlacedNode.isParentOf_iff`).
-/

namespace SourceChunks

namespace SyntaxNode

/-- **Induction over a tree**: what holds of all children holds of the node. -/
theorem inductionOn {motive : SyntaxNode → Prop} (n : SyntaxNode)
    (mk : ∀ kind field start stop children, (∀ m ∈ children, motive m) →
      motive (.mk kind field start stop children)) : motive n := by
  match n with
  | .mk kind field start stop children =>
    exact mk kind field start stop children fun m hm => inductionOn m mk
termination_by sizeOf n
decreasing_by
  have := List.sizeOf_lt_of_mem hm
  simp only [SyntaxNode.mk.sizeOf_spec]
  omega

/-- The node that some child numbers lead to, the last one first. -/
def at? (n : SyntaxNode) : List Nat → Option SyntaxNode
  | [] => some n
  | i :: way => (n.at? way).bind (·.children[i]?)

theorem at?_append (n : SyntaxNode) (later first : List Nat) :
    n.at? (later ++ first) = (n.at? first).bind (·.at? later) := by
  induction later with
  | nil => simp [at?]
  | cons i later ih =>
    rw [List.cons_append, at?, ih, Option.bind_assoc]
    rfl

theorem at?_append_singleton (n : SyntaxNode) (later : List Nat) (i : Nat) :
    n.at? (later ++ [i]) = n.children[i]?.bind (·.at? later) := by
  rw [at?_append, at?, at?, Option.bind_some]

/-- The nodes below those of a list are the nodes below one of them. -/
theorem mem_descendantsOfAll {way : List Nat} {i : Nat} {ns : List SyntaxNode} {q : PlacedNode} :
    q ∈ descendantsOfAll way i ns ↔
      ∃ (k : Nat) (m : SyntaxNode), ns[k]? = some m ∧ q ∈ m.descendants ((i + k) :: way) := by
  induction ns generalizing i with
  | nil => simp [descendantsOfAll]
  | cons n ns ih =>
    rw [descendantsOfAll, List.mem_append, ih]
    constructor
    · rintro (h | ⟨k, m, hm, hq⟩)
      · exact ⟨0, n, rfl, h⟩
      · exact ⟨k + 1, m, hm, by rwa [show i + (k + 1) = i + 1 + k by omega]⟩
    · rintro ⟨k, m, hm, hq⟩
      cases k with
      | zero =>
        obtain rfl := Option.some.inj hm
        exact Or.inl hq
      | succ k =>
        exact Or.inr ⟨k, m, hm, by rwa [show i + 1 + k = i + (k + 1) by omega]⟩

/-- **The descendants of a node are what the ways from it lead to.** -/
theorem mem_descendants (n : SyntaxNode) (way : List Nat) (q : PlacedNode) :
    q ∈ n.descendants way ↔ ∃ later, q.way = later ++ way ∧ n.at? later = some q.node := by
  induction n using inductionOn generalizing way with
  | mk kind field start stop children ih =>
  rw [descendants, List.mem_cons, mem_descendantsOfAll]
  constructor
  · rintro (rfl | ⟨k, m, hm, hq⟩)
    · exact ⟨[], rfl, rfl⟩
    · obtain ⟨later, hway, hat⟩ := (ih m (List.mem_of_getElem? hm) _).mp hq
      refine ⟨later ++ [k], ?_, ?_⟩
      · rw [hway, Nat.zero_add, List.append_assoc]
        rfl
      · have hchild : (mk kind field start stop children).children[k]? = some m := hm
        rw [at?_append_singleton, hchild, Option.bind_some, hat]
  · rintro ⟨later, hway, hat⟩
    -- the first child number on the way stands last
    rcases List.eq_nil_or_concat later with rfl | ⟨later, k, rfl⟩
    · obtain ⟨w, node⟩ := q
      obtain rfl : w = way := hway
      obtain rfl := Option.some.inj hat
      exact Or.inl rfl
    · rw [List.concat_eq_append] at hway hat
      rw [at?_append_singleton, Option.bind_eq_some_iff] at hat
      obtain ⟨m, hm, hat⟩ := hat
      refine Or.inr ⟨k, m, hm, (ih m (List.mem_of_getElem? hm) _).mpr ⟨later, ?_, hat⟩⟩
      rw [hway, Nat.zero_add, List.append_assoc]
      rfl

end SyntaxNode

/-- **The nodes of a tree are what the ways from its root lead to.** -/
theorem SyntaxTree.mem_nodes_iff {t : SyntaxTree} {q : PlacedNode} :
    q ∈ t.nodes ↔ t.root.at? q.way = some q.node := by
  rw [nodes, SyntaxNode.mem_descendants]
  constructor
  · rintro ⟨later, hway, hat⟩
    rwa [hway, List.append_nil]
  · exact fun hat => ⟨q.way, (List.append_nil _).symm, hat⟩

namespace PlacedNode

variable {t : SyntaxTree} {p q : PlacedNode}

theorem mem_number {way : List Nat} {i : Nat} {ns : List SyntaxNode} :
    q ∈ number way i ns ↔ ∃ k, q.way = (i + k) :: way ∧ ns[k]? = some q.node := by
  induction ns generalizing i with
  | nil => simp [number]
  | cons n ns ih =>
    rw [number, List.mem_cons, ih]
    constructor
    · rintro (rfl | ⟨k, hway, hk⟩)
      · exact ⟨0, rfl, rfl⟩
      · exact ⟨k + 1, by rw [hway, show i + (k + 1) = i + 1 + k by omega], hk⟩
    · rintro ⟨k, hway, hk⟩
      cases k with
      | zero =>
        obtain ⟨w, node⟩ := q
        obtain rfl : w = i :: way := hway
        obtain rfl := Option.some.inj hk
        exact Or.inl rfl
      | succ k =>
        exact Or.inr ⟨k, by rw [hway, show i + 1 + k = i + (k + 1) by omega], hk⟩

theorem mem_children :
    q ∈ p.children ↔ ∃ i, q.way = i :: p.way ∧ p.node.children[i]? = some q.node := by
  rw [children, mem_number]
  simp only [Nat.zero_add]

theorem mem_nodes_of_mem_children (hp : p ∈ t.nodes) (hq : q ∈ p.children) : q ∈ t.nodes := by
  obtain ⟨i, hway, hchild⟩ := mem_children.mp hq
  rw [SyntaxTree.mem_nodes_iff] at hp ⊢
  rw [hway, SyntaxNode.at?, hp, Option.bind_some, hchild]

/-- **One node of a tree is directly around another exactly if the other is its child.** -/
theorem isParentOf_iff (hp : p ∈ t.nodes) (hq : q ∈ t.nodes) :
    p.isParentOf q = true ↔ q ∈ p.children := by
  have hways : p.isParentOf q = true ↔ ∃ i, q.way = i :: p.way := by
    unfold isParentOf
    cases q.way with
    | nil => simp
    | cons i way => simp
  rw [hways, mem_children]
  refine exists_congr fun i => ⟨fun hway => ⟨hway, ?_⟩, fun h => h.1⟩
  -- both nodes are what their ways lead to
  rw [SyntaxTree.mem_nodes_iff] at hp hq
  rw [hway, SyntaxNode.at?, hp, Option.bind_some] at hq
  exact hq

end PlacedNode

end SourceChunks
