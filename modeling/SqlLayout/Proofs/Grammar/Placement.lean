import SqlLayout.Proofs.Grammar.Document
import SqlLayout.Proofs.Tree.Links

/-!
# Statements and clauses of a tree

In the tree of every token list statements and clauses are where they belong, and the body of an
`IF`, `ELSE` or `WHILE` has one statement at most.
-/

namespace SqlLayout

/-- Statements and clauses are where they belong. -/
structure Tree.WellPlaced (tree : Tree) : Prop where
  /-- A statement stands in the document, in a body of statements, in the action of a branch, or in
  the contents of a definition or of a cursor. -/
  statement : ∀ id < tree.size, tree.kind id = .statement → ∃ parent, tree.parent id = some parent ∧
    (tree.kind parent ∈ [NodeKind.root, .containerMultiStatementBody, .containerSingleStatementBody,
        .mergeAction] ∨
      tree.kind parent = .containerContentBody ∧ ∃ owner, tree.parent parent = some owner ∧
        tree.kind owner ∈ [NodeKind.ddlAsBlock, .cursorForBlock])
  /-- Besides blanks and comments a statement holds clauses. -/
  clauses : ∀ id < tree.size, tree.kind id = .statement → ∀ child ∈ tree.children id,
    (tree.kind child).isTrivia = false → tree.kind child = .clause
  /-- A clause stands in a statement or in a group. -/
  clause : ∀ id < tree.size, tree.kind id = .clause → ∃ parent, tree.parent id = some parent ∧
    tree.kind parent ∈ [NodeKind.statement, .expressionParens, .inParens, .selectionTargetParens]
  /-- The body of an `IF`, `ELSE` or `WHILE` holds one statement at most. -/
  single : ∀ id < tree.size, tree.kind id = .containerSingleStatementBody →
    (tree.childrenOfKind id .statement).length ≤ 1

namespace Tree

variable {tree : Tree} {parent : Option NodeId} {outline : Outline} {around : List NodeKind}

/-- The containers from a node upwards have the given kinds. -/
def Encloses (tree : Tree) : Option NodeId → List NodeKind → Prop
  | none, [] => True
  | some id, kind :: others => tree.kind id = kind ∧ tree.Encloses (tree.parent id) others
  | _, _ => False

/-- A node stands where it may and holds what it may. -/
structure Places (tree : Tree) (id : NodeId) (around : List NodeKind) : Prop where
  encloses : tree.Encloses (tree.parent id) around
  stands : (tree.kind id).standsIn around = true
  takes : (tree.kind id).takes ((tree.children id).map tree.kind) = true

/-- What an outline says about its nodes holds of the tree that stores them. -/
theorem Stores.places (stored : tree.Stores parent outline) (placed : outline.Placed around)
    (encloses : tree.Encloses parent around) {record : NodeId × Node}
    (member : record ∈ outline.records parent) : ∃ around, tree.Places record.1 around := by
  induction placed generalizing parent with
  | @node around id kind text attributes children stands takes below ih =>
    have isNode := stored.node_eq
    have isKind : tree.kind id = kind := congrArg Node.kind isNode
    have isParent : tree.parent id = parent := congrArg Node.parent isNode
    rw [Outline.records_node] at member
    rcases List.mem_cons.mp member with rfl | inside
    · have kinds : (tree.children id).map tree.kind = children.map Outline.kind := by
        rw [Tree.children, isNode, List.map_map]
        refine List.map_congr_left fun child among => ?_
        obtain ⟨childId, childKind, childText, childAttributes, below⟩ := child
        exact congrArg Node.kind (stored.child _ among).node_eq
      exact ⟨around, isParent ▸ encloses, isKind ▸ stands, by rwa [kinds, isKind]⟩
    · obtain ⟨child, among, inChild⟩ := Outline.mem_recordsOfList.mp inside
      exact ih child among (stored.child child among) ⟨isKind, isParent ▸ encloses⟩ inChild

theorem Encloses.head {kind : NodeKind} {others : List NodeKind}
    (encloses : tree.Encloses parent (kind :: others)) :
    ∃ id, parent = some id ∧ tree.kind id = kind ∧ tree.Encloses (tree.parent id) others := by
  cases parent with
  | none => exact encloses.elim
  | some id => exact ⟨id, rfl, encloses⟩

namespace Places

variable {id : NodeId}

theorem statement (places : tree.Places id around) (isStatement : tree.kind id = .statement) :
    ∃ parent, tree.parent id = some parent ∧
      (tree.kind parent ∈
        [NodeKind.root, .containerMultiStatementBody, .containerSingleStatementBody,
          .mergeAction] ∨
        tree.kind parent = .containerContentBody ∧ ∃ owner, tree.parent parent = some owner ∧
          tree.kind owner ∈ [NodeKind.ddlAsBlock, .cursorForBlock]) := by
  obtain ⟨encloses, stands, _⟩ := places
  rw [isStatement] at stands
  cases around with
  | nil => exact absurd stands (by decide)
  | cons kind others =>
    obtain ⟨parent, isParent, isKind, above⟩ := encloses.head
    refine ⟨parent, isParent, ?_⟩
    simp only [NodeKind.standsIn, Bool.or_eq_true, Bool.and_eq_true, List.contains_iff_mem,
      beq_iff_eq] at stands
    rw [isKind]
    refine stands.imp_right fun content => ⟨content.1, ?_⟩
    have owned := content.2
    cases others with
    | nil => exact absurd owned (by decide)
    | cons owner outer =>
      obtain ⟨above, isAbove, isOwner, _⟩ := above.head
      exact ⟨above, isAbove, by simpa [isOwner] using owned⟩

theorem clause (places : tree.Places id around) (isClause : tree.kind id = .clause) :
    ∃ parent, tree.parent id = some parent ∧
      tree.kind parent ∈
        [NodeKind.statement, .expressionParens, .inParens, .selectionTargetParens] := by
  obtain ⟨encloses, stands, _⟩ := places
  rw [isClause] at stands
  cases around with
  | nil => exact absurd stands (by decide)
  | cons kind others =>
    obtain ⟨parent, isParent, isKind, _⟩ := encloses.head
    exact ⟨parent, isParent, isKind ▸ List.contains_iff_mem.mp stands⟩

theorem of_parent (places : tree.Places id around) {above : NodeId}
    (isParent : tree.parent id = some above) (inStatement : tree.kind above = .statement)
    (content : (tree.kind id).isTrivia = false) : tree.kind id = .clause := by
  obtain ⟨encloses, stands, _⟩ := places
  rw [isParent] at encloses
  cases around with
  | nil => exact encloses.elim
  | cons kind others =>
    obtain ⟨isKind, _⟩ := encloses
    rw [← isKind, inStatement, NodeKind.standsIn.eq_def] at stands
    revert stands content
    cases tree.kind id <;> simp [NodeKind.isTrivia, NodeKind.isComment]

/-- What a node may hold a limited number of. -/
theorem few (places : tree.Places id around) :
    (tree.kind id ≠ .containerSingleStatementBody ∨
      (tree.childrenOfKind id .statement).length ≤ 1) ∧
      (tree.childrenOfKind id .elseClause).length ≤ 1 := by
  have takes := places.takes
  rw [NodeKind.takes] at takes
  simpa [childrenOfKind, List.count_eq_countP, List.countP_map, ← List.countP_eq_length_filter,
    Function.comp_def] using takes

theorem single (places : tree.Places id around)
    (isBody : tree.kind id = .containerSingleStatementBody) :
    (tree.childrenOfKind id .statement).length ≤ 1 :=
  places.few.1.resolve_left fun notBody => notBody isBody

theorem elseClause (places : tree.Places id around) (isElse : tree.kind id = .elseClause) :
    ∃ parent, tree.parent id = some parent ∧ tree.kind parent = .ifStatement := by
  obtain ⟨encloses, stands, _⟩ := places
  rw [isElse] at stands
  cases around with
  | nil => exact absurd stands (by decide)
  | cons kind others =>
    obtain ⟨parent, isParent, isKind, _⟩ := encloses.head
    exact ⟨parent, isParent, isKind.trans (beq_iff_eq.mp stands)⟩

end Places

end Tree

/-- In the tree of every token list statements and clauses are where they belong, and the body of an
`IF`, `ELSE` or `WHILE` has one statement at most. -/
theorem Tree.ofTokens_wellPlaced (list : TokenList) :
    ∃ tree, Tree.ofTokens list = .ok tree ∧ tree.WellPlaced := by
  obtain ⟨tree, draft, isOk, shown, built⟩ := Tree.ofTokens_shows list
  have places : ∀ id < tree.size, ∃ around, tree.Places id around := fun id known =>
    shown.stores.places built.placed trivial (shown.record_of_lt known)
  refine ⟨tree, isOk, fun id known isStatement => ?_,
    fun id _ isStatement child isChild content => ?_,
    fun id known isClause => ?_, fun id known isBody => ?_⟩
  · obtain ⟨_, here⟩ := places id known
    exact here.statement isStatement
  · have isParent := shown.mem_children_iff.mp isChild
    have known : child < tree.size := by
      by_contra unknown
      rw [Tree.parent, node_of_le (Nat.le_of_not_lt unknown)] at isParent
      exact absurd isParent (Option.some_ne_none id).symm
    obtain ⟨_, below⟩ := places child known
    exact below.of_parent isParent isStatement content
  · obtain ⟨_, here⟩ := places id known
    exact here.clause isClause
  · obtain ⟨_, here⟩ := places id known
    exact here.single isBody

end SqlLayout
