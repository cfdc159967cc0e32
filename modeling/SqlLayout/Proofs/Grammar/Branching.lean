import SqlLayout.Proofs.Grammar.Placement
import SqlLayout.Proofs.Likeness.Tree

/-!
# `ELSE` and its `IF`

An `ELSE` belongs to the nearest `IF` around the cursor that has none yet: every `IF` between the
cursor and that one has its `ELSE` already. So in the tree of every token list each `ELSE` stands in
an `IF`, and no `IF` has two.
-/

namespace SqlLayout

/-- An `IF` is the one that an `ELSE` at the cursor belongs to: it encloses the cursor, it has no
`ELSE` yet, and every nearer `IF` has one. -/
structure Tree.Awaits (tree : Tree) (cursor owner : NodeId) : Prop where
  isIf : tree.kind owner = .ifStatement
  free : tree.childrenOfKind owner .elseClause = []
  nearest : ∃ levels, tree.ancestor cursor levels = some owner ∧ ∀ level < levels, ∀ nearer,
    tree.ancestor cursor level = some nearer → tree.kind nearer = .ifStatement →
      tree.childrenOfKind nearer .elseClause ≠ []

/-! ### New nodes -/

namespace Tree

variable (tree : Tree) (parent : NodeId) (kind : NodeKind) (text : String) (id : NodeId)

@[simp]
theorem size_append : (tree.append parent kind text).1.size = tree.size + 1 := by
  rw [append_eq_relink, size_relink, size_create]

theorem kind_append :
    (tree.append parent kind text).1.kind id = if id = tree.size then kind else tree.kind id := by
  rw [append_eq_relink, kind_relink, Tree.kind, node_create, apply_ite Node.kind]
  rfl

theorem parent_append :
    (tree.append parent kind text).1.parent id = if id = tree.size then some parent
      else tree.parent id := by
  rw [append_eq_relink]
  by_cases isNew : id = tree.size
  · simp [Tree.parent, relink, node_update, node_create, isNew]
    split <;> rfl
  · have older : tree.size ≠ id := fun same => isNew same.symm
    simp [Tree.parent, relink, node_update, node_create, isNew, older]
    split <;> rfl

end Tree

namespace Builder

variable {builder next : Builder}

theorem tree_enterContainer {kind body : NodeKind} {keyword : String}
    (isOk : builder.enterContainer kind keyword body = .ok next) :
    next.tree = ((((builder.tree.append builder.cursor kind "").1.append builder.tree.size
      .containerOpen "").1.append builder.tree.size body "").1.append (builder.tree.size + 1)
      .otherKeyword keyword).1 := by
  simp only [enterContainer, save, saveIn, saveLeafIn, moveTo, Tree.append_id, Tree.size_append]
    at isOk
  split at isOk
  · obtain rfl := Except.ok.inj isOk
    rfl
  · cases isOk

/-- Where a keyword opens a construct, an `ELSE` is new only if the construct is one. -/
theorem eq_size_of_enterContainer {kind body : NodeKind} {keyword : String}
    (isOk : builder.enterContainer kind keyword body = .ok next) (notBody : body ≠ .elseClause)
    {id : NodeId} (fresh : builder.tree.size ≤ id) (isElse : next.tree.kind id = .elseClause) :
    kind = .elseClause ∧ id = builder.tree.size ∧ next.tree.parent id = some builder.cursor := by
  rw [tree_enterContainer isOk] at isElse ⊢
  simp only [Tree.kind_append, Tree.parent_append, Tree.size_append] at isElse ⊢
  have old := builder.tree.kind_of_size_le id fresh
  grind

theorem kind_markError (builder : Builder) (id : NodeId) :
    builder.markError.tree.kind id = builder.tree.kind id := by
  obtain ⟨_, first⟩ := builder.tree.node_setAttribute builder.cursor .hasError "1" id
  obtain ⟨_, second⟩ :=
    (builder.tree.setAttribute builder.cursor .hasError "1").node_setAttribute Tree.root
    .errorFound "1" id
  rw [Tree.kind, markError, second, first]
  rfl

theorem eq_of_moveTo {id : NodeId} (isOk : builder.moveTo id = .ok next) :
    next = { builder with cursor := id } := by
  rw [moveTo] at isOk
  split at isOk
  · exact (Except.ok.inj isOk).symm
  · cases isOk

theorem tree_moveUpTo {levels : Nat} {expected : NodeKind}
    (isOk : builder.moveUpTo levels expected = .ok next) : next.tree = builder.tree := by
  rw [moveUpTo] at isOk
  split at isOk
  · split at isOk
    · rw [eq_of_moveTo isOk]
    · cases isOk
  · cases isOk

theorem At.tree_eq {tokens : List Token} {draft other : Draft} (located : builder.At tokens draft)
    (left : next.At tokens other) (above : draft.Above other) : next.tree = builder.tree :=
  left.stands.shown.eq_of_outline located.stands.shown above.outline

end Builder

theorem Tree.Shows.childrenOfKind_eq {tree : Tree} {draft : Draft} (shown : tree.Shows draft)
    (kind : NodeKind) :
    tree.childrenOfKind draft.id kind =
      (draft.children.filter fun child => child.kind == kind).map Outline.id := by
  rw [Tree.childrenOfKind, shown.children_id, List.filter_map]
  refine congrArg (List.map Outline.id) (List.filter_congr fun child member => ?_)
  obtain ⟨front, back, children⟩ := List.append_of_mem member
  have stored :=
    @Tree.Shows.node_child tree draft front back child (by rw [← children]; exact shown)
  rw [Function.comp_apply, Tree.kind, stored]
  rfl

/-- The `IF` whose first body is around the cursor, every nearer one having its `ELSE`. -/
theorem Builder.At.awaits {builder : Builder} {tokens : List Token} {draft body : Draft}
    (located : builder.At tokens draft)
    (owes : Reading.Owes draft body) : builder.tree.Awaits builder.cursor body.up.id := by
  have shown := located.stands.shown
  have notElse : body.kind ≠ .elseClause := owes.isBody ▸ by decide
  have undecided := (located.built.unbranched.passes owes.above.passes).up owes.enclosed notElse
  have around := (owes.above.shows shown).up
  obtain ⟨levels, enough, rfl, decided⟩ := owes.rises
  have length := Draft.length_outer_ups enough
  have more := List.length_pos_iff.mpr owes.enclosed
  refine ⟨around.kind_id.trans owes.inIf, ?_, levels + 1, ?_,
    fun level nearer node isNode isIf => ?_⟩
  · simpa [around.childrenOfKind_eq] using undecided owes.inIf
  · rw [located.stands.cursor, shown.ancestor_ups (by omega), Draft.ups_succ]
  · rw [located.stands.cursor, shown.ancestor_ups (by omega)] at isNode
    obtain rfl := Option.some_inj.mp isNode
    have here := shown.ups level
    rw [here.kind_id] at isIf
    have inner : level < levels := by
      refine Nat.lt_of_le_of_ne (Nat.le_of_lt_succ nearer) fun same => ?_
      rw [same, owes.isBody] at isIf
      cases isIf
    simpa [here.childrenOfKind_eq] using decided level inner isIf

namespace Reading

variable {reading : Reading} {builder next : Builder} {tokens : List Token} {draft : Draft}

/-- An `ELSE` that is opened belongs to the nearest `IF` without one. -/
theorem else_awaits (located : builder.At tokens draft) (isOpen : draft.IsOpen)
    (taken : reading.else_ builder = .ok next) {clause : NodeId}
    (fresh : builder.tree.size ≤ clause) (isElse : next.tree.kind clause = .elseClause) :
    ∃ owner, next.tree.parent clause = some owner ∧ builder.tree.Awaits builder.cursor owner := by
  obtain ⟨first, _, isFirst, between, one⟩ := located.leaveBetween isOpen
  rw [Reading.else_, isFirst, ok_bind] at taken
  have tree := located.tree_eq between one.above
  split at taken
  next inside =>
    -- An `ELSE` of a `CASE`.
    cases isMoved : first.moveUpTo 3 .caseStatement with
    | error error =>
      rw [isMoved] at taken
      cases taken
    | ok moved =>
      rw [isMoved, ok_bind, Reading.enter] at taken
      have same := (Builder.tree_moveUpTo isMoved).trans tree
      obtain ⟨isCase, _⟩ :=
        Builder.eq_size_of_enterContainer taken (by decide) (same ▸ fresh) isElse
      cases isCase
  obtain ⟨second, _, isSecond, target, two⟩ := between.leaveSelectionTarget one.isOpen
  obtain ⟨third, _, isThird, join, three⟩ := target.leaveJoinCondition two.isOpen
  obtain ⟨fourth, inner, isFourth, part, four⟩ := join.leavePartialStatement (.inl three.isOpen)
  rw [isSecond, ok_bind, isThird, ok_bind, isFourth, ok_bind] at taken
  have recedes := ((one.trans two).trans three).trans four
  have tree := located.tree_eq part recedes.above
  split at taken
  next owner found =>
    obtain ⟨body, owes, rfl⟩ := elseOwner?_eq part found
    have awaits := located.awaits
      ⟨recedes.above.trans owes.above, recedes.rises.trans owes.rises, owes.isBody,
        owes.enclosed, owes.inIf⟩
    refine ⟨body.up.id, ?_, awaits⟩
    cases isMoved : fourth.moveTo body.up.id with
    | error error =>
      rw [isMoved] at taken
      cases taken
    | ok moved =>
      rw [isMoved, ok_bind, Reading.enter] at taken
      cases isOpened :
          moved.enterContainer .elseClause reading.value .containerSingleStatementBody with
      | error error =>
        rw [isOpened] at taken
        cases taken
      | ok opened =>
        rw [isOpened, ok_bind] at taken
        obtain rfl := Except.ok.inj taken
        obtain rfl := Builder.eq_of_moveTo isMoved
        -- The statement in the new body comes after it.
        simp only [Builder.startStatement, Builder.startStatementIn, Tree.kind_append,
          Tree.parent_append]
          at isElse ⊢
        have old : opened.tree.kind clause = .elseClause := by grind
        obtain ⟨_, isNew, isParent⟩ := Builder.eq_size_of_enterContainer isOpened (by decide)
          (tree ▸ fresh) old
        grind
  next =>
    obtain rfl := Except.ok.inj taken
    rw [Builder.saveLeafWithError, Builder.kind_markError, Builder.saveLeaf,
      Builder.saveLeafIn, Builder.saveIn, Tree.kind_append] at isElse
    have old := fourth.tree.kind_of_size_le clause (tree ▸ fresh)
    grind

end Reading

/-- While a token list is read, an `ELSE` is opened in the nearest `IF` around the cursor that has
none: every nearer `IF` has its `ELSE`. In the tree of the list every `ELSE` stands in an `IF`, and
no `IF` has two. -/
theorem Tree.ofTokens_branches (list : TokenList) :
    (∀ progress, (Progress.start list).Advances progress →
      ∀ (reading : Reading) (next : Builder), reading.else_ progress.builder = .ok next →
        ∀ clause, progress.builder.tree.size ≤ clause → next.tree.kind clause = .elseClause →
          ∃ owner, next.tree.parent clause = some owner ∧
            progress.builder.tree.Awaits progress.builder.cursor owner) ∧
      ∃ tree, Tree.ofTokens list = .ok tree ∧
        (∀ id < tree.size, tree.kind id = .elseClause →
          ∃ owner, tree.parent id = some owner ∧ tree.kind owner = .ifStatement) ∧
        ∀ id < tree.size, tree.kind id = .ifStatement →
        (tree.childrenOfKind id .elseClause).length ≤ 1 := by
  refine ⟨fun progress advances reading next taken clause fresh isElse => ?_, ?_⟩
  · obtain ⟨_, _, _, located, atRest⟩ := advances.sound (Progress.sound_start list)
    exact Reading.else_awaits located atRest.isOpen taken fresh isElse
  · obtain ⟨tree, draft, isOk, shown, built⟩ := Tree.ofTokens_shows list
    have places : ∀ id < tree.size, ∃ around, tree.Places id around := fun id known =>
      shown.stores.places built.placed trivial (shown.record_of_lt known)
    refine ⟨tree, isOk, fun id known isElse => ?_, fun id known _ => ?_⟩
    · obtain ⟨_, here⟩ := places id known
      exact here.elseClause isElse
    · obtain ⟨_, here⟩ := places id known
      exact here.few.2

/-- Three `IF`s, the last of them with an `ELSE`. -/
def TokenList.threeIfs : TokenList :=
  .ofText "IF a\nIF b\nIF c\nPRINT 1\nELSE\nPRINT 2\n"

/-- An `ELSE` in hand, with nothing around it. -/
def Reading.loneElse : Reading :=
  { previous := none, token := ⟨.word, "ELSE", ⟨0, 0⟩⟩, rest := []
    phrase := .ofTokens [⟨.word, "ELSE", ⟨0, 0⟩⟩] }

/-- A second `ELSE` behind three `IF`s belongs to the second of them. -/
theorem Tree.ofTokens_branches_threeIfs :
    ∃ progress next, (Progress.start .threeIfs).Advances progress ∧
      Reading.loneElse.else_ progress.builder = .ok next ∧
      next.tree.kind 48 = .elseClause ∧ next.tree.parent 48 = some 13 ∧
      progress.builder.tree.Awaits progress.builder.cursor 13 := by
  obtain ⟨last, _, advances, isLast, _⟩ := Progress.exists_last .threeIfs
  have read : Builder.start.readAll none TokenList.threeIfs.tokens = .ok last.builder :=
    advances.readAll.trans (by rw [isLast, Builder.readAll])
  have taken : ((Builder.start.readAll none TokenList.threeIfs.tokens).bind fun builder =>
      (Reading.loneElse.else_ builder).map fun next =>
        (builder.tree.size, next.tree.kind 48, next.tree.parent 48)) =
      .ok (48, .elseClause, some 13) := by
    decide +kernel
  rw [read] at taken
  cases result : Reading.loneElse.else_ last.builder with
  | error error => simp [Except.bind, Except.map, result] at taken
  | ok next =>
    obtain ⟨size, isElse, isParent⟩ : last.builder.tree.size = 48 ∧
        next.tree.kind 48 = .elseClause ∧
        next.tree.parent 48 = some 13 := by simpa [Except.bind, Except.map, result] using taken
    obtain ⟨owner, isOwner, awaits⟩ :=
      (Tree.ofTokens_branches .threeIfs).1 last advances _ next result 48
      (Nat.le_of_eq size) isElse
    obtain rfl : owner = 13 := Option.some_inj.mp (isOwner.symm.trans isParent)
    exact ⟨last, next, advances, result, isElse, isParent, awaits⟩

end SqlLayout
