import SqlLayout.Proofs.Likeness.Tree

/-!
# Building alike documents

Two builders with alike trees whose cursors stand in the same place. Each operation of a builder
does the same to both: it fails on both with the same error, or leaves them alike.
-/

namespace SqlLayout.Builder

/-- Two builders of alike documents at the same place. -/
structure Alike (likeness : Likeness) (builder other : Builder) : Prop where
  tree : builder.tree.Alike likeness other.tree
  cursor : builder.cursor = other.cursor
  statementDue : builder.statementDue = other.statementDue
  hollow : builder.tree.Hollow builder.cursor

theorem saveLeafBefore_eq (builder : Builder) (kind : NodeKind) (text : String) (sibling : NodeId) :
    builder.saveLeafBefore kind text sibling =
      ((builder.tree.create kind text).1.insertBefore builder.tree.size sibling).map fun tree =>
        { builder with tree } := by
  simp only [saveLeafBefore, Tree.create]
  cases Tree.insertBefore _ _ sibling <;> rfl

theorem takeComments_eq (builder : Builder) (container : NodeId) :
    builder.takeComments container =
      (builder.tree.moveOwnLineComments container builder.cursor builder.tree.size).map fun tree =>
        { builder with tree } := by
  simp only [takeComments]
  cases builder.tree.moveOwnLineComments container builder.cursor builder.tree.size <;> rfl

theorem statementStartsWith_eq (builder : Builder) (keywords : List String) :
    builder.statementStartsWith keywords = builder.statementKeyword?.any keywords.contains := by
  rw [statementStartsWith]
  cases builder.statementKeyword? <;> rfl

def clauseKeyword? (tree : Tree) (clause : NodeId) : Option String :=
  (tree.contentChildren clause).head?.bind tree.keywordText?

theorem hasClauseStartingWith_eq (builder : Builder) (keywords : List String) :
    builder.hasClauseStartingWith keywords =
      (builder.tree.enclosingStatement? builder.cursor).any fun statement =>
        (builder.tree.childrenOfKind statement .clause).any fun clause =>
          (clauseKeyword? builder.tree clause).any keywords.contains := by
  rw [hasClauseStartingWith]
  cases builder.tree.enclosingStatement? builder.cursor with
  | none => rfl
  | some statement =>
    refine congrArg (List.any _) (funext fun clause => ?_)
    rw [clauseKeyword?]
    cases (builder.tree.contentChildren clause).head?.bind builder.tree.keywordText? <;> rfl

/-- Two builders after a new container, which can hold others like those before it. -/
structure Grown (likeness : Likeness) (builder grown twin : Builder) (id : NodeId) : Prop where
  alike : grown.Alike likeness twin
  hollow : grown.tree.Hollow id
  older : ∀ {old : NodeId}, builder.tree.Hollow old → grown.tree.Hollow old

namespace Alike

variable {likeness : Likeness} {builder other : Builder} (alike : builder.Alike likeness other)
include alike

/-! ### Observations -/

theorem cursorKind : builder.cursorKind = other.cursorKind := by
  rw [Builder.cursorKind, Builder.cursorKind, alike.tree.kind, alike.cursor]

theorem isIn (kinds : List NodeKind) : builder.isIn kinds = other.isIn kinds := by
  rw [Builder.isIn, Builder.isIn, alike.tree.pathIs, alike.cursor]

theorem hasContent : builder.hasContent = other.hasContent := by
  rw [Builder.hasContent, Builder.hasContent, alike.tree.hasContent, alike.cursor]

theorem hasMeaningfulContent : builder.hasMeaningfulContent = other.hasMeaningfulContent := by
  rw [Builder.hasMeaningfulContent, Builder.hasMeaningfulContent, alike.tree.hasMeaningfulContent,
    alike.cursor]

theorem isEmpty : builder.isEmpty = other.isEmpty := by
  rw [Builder.isEmpty, Builder.isEmpty, alike.tree.children, alike.cursor]

theorem firstContent? : builder.firstContent? = other.firstContent? := by
  rw [Builder.firstContent?, Builder.firstContent?, alike.tree.contentChildren, alike.cursor]

theorem lastContent? : builder.lastContent? = other.lastContent? := by
  rw [Builder.lastContent?, Builder.lastContent?, alike.tree.contentChildren, alike.cursor]

theorem lastContentIs (kind : NodeKind) :
    builder.lastContentIs kind = other.lastContentIs kind := by
  simp only [Builder.lastContentIs, alike.lastContent?, alike.tree.kind]

theorem statementStartsWith {keywords : List String}
    (plain : ∀ word ∈ keywords, '[' ∉ word.toList) :
    builder.statementStartsWith keywords = other.statementStartsWith keywords := by
  rw [statementStartsWith_eq, statementStartsWith_eq, statementKeyword?, statementKeyword?,
    ← alike.cursor, ← alike.tree.enclosingStatement?]
  exact (SaysAlike.bind _ alike.tree.firstKeyword?).any plain

theorem hasClauseStartingWith {keywords : List String}
    (plain : ∀ word ∈ keywords, '[' ∉ word.toList) :
    builder.hasClauseStartingWith keywords = other.hasClauseStartingWith keywords := by
  have same (clause : NodeId) : (clauseKeyword? builder.tree clause).any keywords.contains =
      (clauseKeyword? other.tree clause).any keywords.contains := by
    rw [clauseKeyword?, clauseKeyword?, ← alike.tree.contentChildren]
    exact (SaysAlike.bind _ alike.tree.keywordText?).any plain
  rw [hasClauseStartingWith_eq, hasClauseStartingWith_eq, ← alike.cursor,
    ← alike.tree.enclosingStatement?]
  simp only [alike.tree.childrenOfKind, same]

/-! ### New nodes -/

theorem setStatementDue : builder.setStatementDue.Alike likeness other.setStatementDue :=
  ⟨alike.tree, alike.cursor, rfl, alike.hollow⟩

theorem setSimpleText (id : NodeId) {name wording : String}
    (names : likeness.Names (some name) (some wording)) :
    (builder.setAttribute id .simpleText name).Alike likeness
      (other.setAttribute id .simpleText wording) :=
  ⟨alike.tree.setSimpleText id names, alike.cursor, alike.statementDue,
    alike.hollow.setAttribute ..⟩

theorem markError : builder.markError.Alike likeness other.markError := by
  have marked :=
    (alike.tree.setError builder.cursor (by decide : Attribute.hasError ≠ _) "1").setError
    Tree.root (by decide : Attribute.errorFound ≠ _) "1"
  refine ⟨?_, alike.cursor, alike.statementDue, (alike.hollow.setAttribute ..).setAttribute ..⟩
  simpa only [Builder.markError, ← alike.cursor] using marked

variable {kind : NodeKind} {text wording : String}

theorem saveLeafIn {parent : NodeId} (hollow : builder.tree.Hollow parent)
    (reads : kind.Reads likeness text wording) :
    (builder.saveLeafIn parent kind text).Alike likeness (other.saveLeafIn parent kind wording) :=
  ⟨alike.tree.append hollow reads, alike.cursor, alike.statementDue,
    alike.hollow.append parent kind text⟩

theorem saveLeaf (reads : kind.Reads likeness text wording) :
    (builder.saveLeaf kind text).Alike likeness (other.saveLeaf kind wording) := by
  rw [Builder.saveLeaf, Builder.saveLeaf, ← alike.cursor]
  exact alike.saveLeafIn alike.hollow reads

theorem saveLeafWithError (reads : kind.Reads likeness text wording) :
    (builder.saveLeafWithError kind text).Alike likeness (other.saveLeafWithError kind wording) :=
  (alike.saveLeaf reads).markError

theorem saveIn {parent : NodeId} (hollow : builder.tree.Hollow parent)
    (container : kind.isLeaf = false) :
    ∃ grown twin id, builder.saveIn parent kind "" = (grown, id) ∧
      other.saveIn parent kind "" = (twin, id) ∧ Grown likeness builder grown twin id := by
  refine ⟨_, (other.saveIn parent kind "").1, _, rfl, ?_,
    alike.saveLeafIn hollow (.refl ..), ?_, ?_⟩
  · exact Prod.ext rfl alike.tree.size.symm
  · exact builder.tree.hollow_append parent container ""
  · exact fun old => old.append parent kind ""

theorem save (container : kind.isLeaf = false) :
    ∃ grown twin id, builder.save kind "" = (grown, id) ∧ other.save kind "" = (twin, id) ∧
      Grown likeness builder grown twin id := by
  rw [Builder.save, Builder.save, ← alike.cursor]
  exact alike.saveIn alike.hollow container

theorem saveLeafBefore (reads : kind.Reads likeness text wording) (sibling : NodeId) :
    Agree (Alike likeness) (builder.saveLeafBefore kind text sibling)
      (other.saveLeafBefore kind wording sibling) := by
  rw [saveLeafBefore_eq, saveLeafBefore_eq, ← alike.tree.size]
  refine ((alike.tree.create reads).insertBefore builder.tree.size sibling).map ?_
  rintro grown twin ⟨inserted, rearranged⟩
  exact ⟨inserted, alike.cursor, alike.statementDue,
    (alike.hollow.create kind text).rearranged rearranged⟩

/-! ### Moves of the cursor -/

theorem movesTo {id : NodeId} (hollow : builder.tree.Hollow id) :
    Agree (fun moved twin => moved.Alike likeness twin ∧
      moved.tree = builder.tree) (builder.moveTo id)
      (other.moveTo id) :=
  .ite (alike.tree.isAttached id)
    (.ok ⟨⟨alike.tree, rfl, alike.statementDue, hollow⟩, rfl⟩) (.error _)

theorem moveTo {id : NodeId} (hollow : builder.tree.Hollow id) :
    Agree (Alike likeness) (builder.moveTo id) (other.moveTo id) :=
  (alike.movesTo hollow).imp fun _ _ moved => moved.1

theorem hollow_ancestor {id target : NodeId} (hollow : builder.tree.Hollow id) {levels : Nat}
    (reached : builder.tree.ancestor id levels = some target) : builder.tree.Hollow target := by
  induction levels generalizing id with
  | zero =>
    obtain rfl := Option.some_inj.mp reached
    exact hollow
  | succ levels ih =>
    rw [Tree.ancestor] at reached
    split at reached
    next parent isParent => exact ih (alike.tree.above isParent) reached
    · cases reached

theorem moveUp (levels : Nat) :
    Agree (Alike likeness) (builder.moveUp levels) (other.moveUp levels) := by
  rw [Builder.moveUp, Builder.moveUp, ← alike.cursor, ← alike.tree.ancestor, ← alike.cursorKind]
  split
  next target reached => exact alike.moveTo (alike.hollow_ancestor alike.hollow reached)
  · exact .error _

theorem moveUpTo (levels : Nat) (expected : NodeKind) :
    Agree (Alike likeness) (builder.moveUpTo levels expected) (other.moveUpTo levels expected) := by
  rw [Builder.moveUpTo, Builder.moveUpTo, ← alike.cursor, ← alike.tree.ancestor]
  split
  next target reached =>
    rw [← alike.tree.kind]
    split
    · exact alike.moveTo (alike.hollow_ancestor alike.hollow reached)
    · exact .error _
  · exact .error _

theorem enter (container : kind.isLeaf = false) :
    Agree (Alike likeness) (builder.enter kind) (other.enter kind) := by
  obtain ⟨grown, twin, id, saved, saved', entered⟩ := alike.save container
  rw [Builder.enter, Builder.enter, saved, saved']
  exact entered.alike.moveTo entered.hollow

theorem enterContainer (container : kind.isLeaf = false) {body : NodeKind}
    (holder : body.isLeaf = false) (reads : NodeKind.Reads likeness .otherKeyword text wording) :
    Agree (Alike likeness) (builder.enterContainer kind text body)
      (other.enterContainer kind wording body) := by
  obtain ⟨first, _, outside, saved, saved', one⟩ := alike.save container
  obtain ⟨second, _, opening, opened, opened', two⟩ :=
    one.alike.saveIn one.hollow (rfl : NodeKind.containerOpen.isLeaf = false)
  obtain ⟨third, _, inside, filled, filled', three⟩ :=
    two.alike.saveIn (two.older one.hollow) holder
  simp only [Builder.enterContainer, saved, saved', opened, opened', filled, filled']
  refine (three.alike.movesTo three.hollow).bind ?_
  rintro moved twin ⟨alike, same⟩
  exact .ok (alike.saveLeafIn (same ▸ three.older two.hollow) reads)

theorem startStatementIn {target : NodeId} (hollow : builder.tree.Hollow target) :
    (builder.startStatementIn target).Alike likeness (other.startStatementIn target) := by
  obtain ⟨first, twin, statement, saved, saved', one⟩ :=
    alike.saveIn hollow (rfl : NodeKind.statement.isLeaf = false)
  obtain ⟨second, twin', clause, opened, opened', two⟩ :=
    one.alike.saveIn one.hollow (rfl : NodeKind.clause.isLeaf = false)
  have begun (builder : Builder) : builder.startStatementIn target =
      let outer := builder.saveIn target .statement ""
      let inner := outer.1.saveIn outer.2 .clause ""
      { tree := inner.1.tree, cursor := inner.2, statementDue := false } := rfl
  simp only [begun, saved, saved', opened, opened']
  exact ⟨two.alike.tree, rfl, rfl, two.hollow⟩

theorem startStatement : builder.startStatement.Alike likeness other.startStatement := by
  rw [Builder.startStatement, Builder.startStatement, ← alike.cursor]
  exact alike.startStatementIn alike.hollow

theorem takeComments (container : NodeId) :
    Agree (Alike likeness) (builder.takeComments container) (other.takeComments container) := by
  rw [takeComments_eq, takeComments_eq, ← alike.cursor, ← alike.tree.size]
  refine (alike.tree.moveOwnLineComments container builder.cursor builder.tree.size).map ?_
  rintro moved twin ⟨moved, rearranged⟩
  exact ⟨moved, rfl, alike.statementDue, alike.hollow.rearranged rearranged⟩

/-! ### Leaving finished containers -/

theorem leaveBetween : Agree (Alike likeness) builder.leaveBetween other.leaveBetween :=
  .ite (alike.isIn _) (alike.moveUp 2) (.ok alike)

theorem leaveMergeAction : Agree (Alike likeness) builder.leaveMergeAction other.leaveMergeAction :=
  .ite (by rw [alike.isIn, alike.hasMeaningfulContent]) (alike.moveUp 4) (.ok alike)

theorem leavePartialStatement :
    Agree (Alike likeness) builder.leavePartialStatement other.leavePartialStatement := by
  unfold Builder.leavePartialStatement
  simp only [alike.isIn]
  refine .ite rfl (alike.moveUp 1) (.ite rfl (alike.moveUp 3) (.ite rfl (alike.moveUp 3) ?_))
  exact .ite rfl (alike.moveUp 3)
    (.ite rfl (alike.moveUp 2) (.ite rfl (alike.moveUp 2) (.ok alike)))

theorem leaveCursorQuery : Agree (Alike likeness) builder.leaveCursorQuery other.leaveCursorQuery :=
  .ite (by rw [alike.isIn, alike.hasMeaningfulContent]) (alike.moveUp 5) (.ok alike)

theorem leaveSelectionTarget :
    Agree (Alike likeness) builder.leaveSelectionTarget other.leaveSelectionTarget := by
  refine .iteBind (alike.isIn _) (alike.moveUp 1) (.ok alike) fun _ _ alike => ?_
  exact .ite (alike.isIn _) (alike.moveUp 1) (.ok alike)

theorem leaveJoinCondition :
    Agree (Alike likeness) builder.leaveJoinCondition other.leaveJoinCondition :=
  .ite (alike.isIn _) (alike.moveUp 2) (.ok alike)

omit alike in
theorem leaveSingleBodies (alike : builder.Alike likeness other) (bound : Nat) :
    Agree (Alike likeness) (builder.leaveSingleBodies bound) (other.leaveSingleBodies bound) := by
  induction bound generalizing builder other with
  | zero => exact .ok alike
  | succ bound ih =>
    unfold Builder.leaveSingleBodies
    refine .ite (alike.isIn _) ?_ (.ok alike)
    rw [← alike.cursor, ← alike.tree.ancestor, ← alike.cursorKind]
    split
    · exact .error _
    next body isBody =>
      dsimp only
      rw [← alike.tree.ancestorIs, ← alike.tree.ancestor]
      split
      · exact .error _
      next target reached =>
        have hollow := alike.hollow_ancestor (alike.hollow_ancestor alike.hollow isBody) reached
        exact (alike.moveTo hollow).bind fun _ _ alike => ih alike

theorem leaveStatementContainers :
    Agree (Alike likeness) builder.leaveStatementContainers other.leaveStatementContainers := by
  refine alike.leaveBetween.bind fun _ _ alike => ?_
  refine alike.leaveSelectionTarget.bind fun _ _ alike => ?_
  refine alike.leaveJoinCondition.bind fun _ _ alike => ?_
  refine .ite alike.hasMeaningfulContent ?_ (.ok alike)
  refine alike.leaveCursorQuery.bind fun _ _ alike => ?_
  refine alike.leaveMergeAction.bind fun _ _ alike => ?_
  refine alike.leavePartialStatement.bind fun _ _ alike => ?_
  rw [alike.tree.size]
  exact alike.leaveSingleBodies _

/-! ### New statements and clauses -/

theorem nextStatementContainer (leaveEmpty : Bool) :
    Agree (fun result twin => result.1.Alike likeness twin.1 ∧ result.2 = twin.2 ∧
        ∀ container, result.2 = some container → result.1.tree.Hollow container)
      (builder.nextStatementContainer leaveEmpty) (other.nextStatementContainer leaveEmpty) := by
  refine alike.leaveStatementContainers.bind fun builder other alike => ?_
  refine .ite (by rw [alike.isIn, alike.isIn]) ?_ (.ite ?_ ?_ ?_)
  · rw [← alike.cursor, ← alike.tree.parent]
    split
    · exact .ok ⟨alike, rfl, by simp⟩
    next owner isOwner =>
      obtain ⟨grown, twin, body, saved, saved', entered⟩ := alike.saveIn (alike.tree.above isOwner)
        (rfl : NodeKind.containerSingleStatementBody.isLeaf = false)
      rw [saved, saved']
      exact .ok ⟨entered.alike, rfl, by rintro _ ⟨⟩; exact entered.hollow⟩
  · rw [alike.isIn, alike.hasMeaningfulContent]
  · rw [← alike.cursor, ← alike.tree.ancestor]
    exact .ok ⟨alike, rfl, fun _ reached => alike.hollow_ancestor alike.hollow reached⟩
  · exact .ok ⟨alike, rfl, by simp⟩

theorem findBatchEnd :
    Agree (fun result twin => result.1.Alike likeness twin.1 ∧
      result.2 = twin.2) builder.findBatchEnd
      other.findBatchEnd := by
  refine (alike.nextStatementContainer true).bind ?_
  rintro ⟨builder, container?⟩ ⟨other, _⟩ ⟨alike, rfl, _⟩
  cases container? with
  | none => exact .ok ⟨alike, rfl⟩
  | some container => exact .ok ⟨alike, by rw [alike.tree.kind, alike.tree.pathIs]⟩

theorem considerStatement :
    Agree (Alike likeness) builder.considerStatement other.considerStatement := by
  refine alike.leaveBetween.bind fun _ _ alike => ?_
  refine alike.leaveSelectionTarget.bind fun _ _ alike => ?_
  refine alike.leaveJoinCondition.bind fun builder other alike => ?_
  dsimp only
  rw [← alike.cursor]
  refine (alike.nextStatementContainer false).bind ?_
  rintro ⟨left, target?⟩ ⟨twin, _⟩ ⟨alike, rfl, hollow⟩
  cases target? with
  | none => exact .ok alike
  | some target =>
    have begun := alike.startStatementIn (hollow target rfl)
    dsimp only
    rw [← show left.cursor = twin.cursor from alike.cursor]
    -- Comments are taken out of the container that was left, if it is another one, and of the old
    -- one.
    by_cases same : left.cursor = builder.cursor
    · rw [if_pos same, if_pos same]
      exact (Agree.ok begun).bind fun _ _ alike => alike.takeComments _
    · rw [if_neg same, if_neg same]
      exact (begun.takeComments _).bind fun _ _ alike => alike.takeComments _

theorem considerClause : Agree (Alike likeness) builder.considerClause other.considerClause := by
  refine alike.leaveSelectionTarget.bind fun _ _ alike => ?_
  refine alike.leaveBetween.bind fun _ _ alike => ?_
  refine alike.leavePartialStatement.bind fun _ _ alike => ?_
  refine alike.leaveJoinCondition.bind fun builder other alike => ?_
  rw [← alike.cursorKind]
  split
  · refine .ite alike.hasContent ?_ (.ok alike)
    dsimp only
    rw [← alike.cursor, ← alike.tree.parent]
    split
    · exact .ok alike
    next statement isStatement =>
      obtain ⟨grown, twin, clause, saved, saved', entered⟩ :=
        alike.saveIn (alike.tree.above isStatement)
        (rfl : NodeKind.clause.isLeaf = false)
      rw [saved, saved']
      exact (entered.alike.moveTo entered.hollow).bind fun _ _ alike => alike.takeComments _
  · exact alike.enter rfl
  · exact alike.enter rfl
  · exact alike.enter rfl
  · exact alike.enter rfl
  · exact .ok alike

end Alike

end SqlLayout.Builder
