import SqlLayout.Grammar.Blocks
import SqlLayout.Grammar.Definitions
import SqlLayout.Grammar.Queries
import SqlLayout.Proofs.Likeness.Reading

/-!
# Rules of words on alike documents

Each rule of the grammar for a word does the same to two alike documents with alike tokens ahead. A
rule asks for the containers around the cursor, for what the container in hand holds and for the
words of the phrase, and these are the same.
-/

namespace SqlLayout

theorem Phrase.joined_one (phrase : Phrase) : phrase.joined 1 = phrase.word 0 := by
  rcases phrase with ⟨_ | _⟩ <;> simp [Phrase.joined, Phrase.word]

namespace Reading

variable {likeness : Likeness} {reading twin : Reading} {builder other : Builder}

theorem Alike.isAloneOnLine (same : reading.Alike likeness twin) :
    reading.isAloneOnLine = twin.isAloneOnLine := by
  obtain ⟨previous, token, rest, phrase⟩ := reading
  obtain ⟨previous', token', rest', phrase'⟩ := twin
  obtain ⟨before, _, after, _, _⟩ := same
  have starts : previous.all Token.endsLine = previous'.all Token.endsLine := by
    cases before with
    | none => rfl
    | some alike => exact alike.endsLine
  rw [Reading.isAloneOnLine, Reading.isAloneOnLine]
  dsimp only at after ⊢
  rw [starts]
  cases after with
  | nil => rfl
  | cons next after =>
    cases after with
    | nil => simp [next.endsLine, next.kind]
    | cons second _ => simp [next.endsLine, next.kind, second.endsLine]

namespace AlikeWord

variable (same : reading.AlikeWord likeness twin) (alike : builder.Alike likeness other)
  {kind : NodeKind}
include same alike

theorem stray : Agree (Builder.Alike likeness)
    (.ok (builder.saveLeafWithError .otherKeyword reading.value) : Except TreeError Builder)
    (.ok (other.saveLeafWithError .otherKeyword twin.value)) :=
  .ok (alike.saveLeafWithError same.reads)

/-! ### Control flow, blocks, transactions and batches -/

theorem conditional (container : kind.isLeaf = false) :
    Agree (Builder.Alike likeness) (reading.conditional builder kind)
      (twin.conditional other kind) :=
  alike.considerStatement.bind fun _ _ alike => same.enter alike container rfl

theorem when_ : Agree (Builder.Alike likeness) (reading.when_ builder) (twin.when_ other) := by
  refine alike.leaveBetween.bind fun _ _ alike => ?_
  refine .ite (alike.isIn _) ((alike.moveUpTo 1 _).bind fun _ _ alike =>
    same.enter alike rfl rfl) ?_
  refine .ite (alike.isIn _) ((alike.moveUpTo 3 _).bind fun _ _ alike =>
    same.enter alike rfl rfl) ?_
  refine alike.leaveSelectionTarget.bind fun _ _ alike => ?_
  refine alike.leaveMergeAction.bind fun _ _ alike => ?_
  have inMerge (builder other : Builder) (alike : builder.Alike likeness other) :=
    Agree.ite (alike.isIn [.mergeClause])
      (same.enter alike (rfl : NodeKind.mergeWhen.isLeaf = false)
        (rfl : NodeKind.containerContentBody.isLeaf = false)) (same.stray alike)
  refine .ite (alike.isIn _) ((alike.moveUpTo 1 _).bind inMerge) ?_
  exact .ite (alike.isIn _) ((alike.moveUpTo 2 _).bind inMerge) (inMerge _ _ alike)

theorem then_ : Agree (Builder.Alike likeness) (reading.then_ builder) (twin.then_ other) := by
  refine alike.leaveBetween.bind fun _ _ alike => ?_
  refine .ite (alike.isIn _) ((alike.moveUpTo 1 _).bind fun _ _ alike =>
    same.enter alike rfl rfl) ?_
  refine .ite (alike.isIn _) ?_ (same.stray alike)
  refine (alike.moveUpTo 1 _).bind fun _ _ alike => ?_
  exact (same.enter alike rfl rfl).bind fun _ _ alike => .ok alike.startStatement

omit same in
theorem elseOwnerAbove (body : NodeId) (bound : Nat) :
    elseOwnerAbove builder.tree body bound = elseOwnerAbove other.tree body bound := by
  induction bound generalizing body with
  | zero => rfl
  | succ bound ih =>
    simp only [Reading.elseOwnerAbove, alike.tree.kind, alike.tree.parent, alike.tree.ancestor, ih]

omit same in
/-- The `IF` of an `ELSE` holds the body before it. -/
theorem hollow_elseOwnerAbove {body owner : NodeId} {bound : Nat}
    (found : Reading.elseOwnerAbove builder.tree body bound = some owner) :
    builder.tree.Hollow owner := by
  induction bound generalizing body with
  | zero => cases found
  | succ bound ih =>
    rw [Reading.elseOwnerAbove] at found
    split at found
    · split at found
      · cases found
      next above isAbove =>
        split at found
        · exact Option.some_inj.mp found ▸ alike.tree.above isAbove
        · obtain ⟨outer, _, found⟩ := Option.bind_eq_some_iff.mp found
          exact ih found
        · obtain ⟨outer, _, found⟩ := Option.bind_eq_some_iff.mp found
          exact ih found
        · cases found
    · cases found

omit same in
theorem elseOwner? : elseOwner? builder = elseOwner? other := by
  simp only [Reading.elseOwner?, alike.isIn, alike.tree.ancestor, alike.cursor, alike.tree.size,
    elseOwnerAbove alike]

theorem else_ : Agree (Builder.Alike likeness) (reading.else_ builder) (twin.else_ other) := by
  refine alike.leaveBetween.bind fun _ _ alike => ?_
  refine .ite (alike.isIn _) ((alike.moveUpTo 3 _).bind fun _ _ alike =>
    same.enter alike rfl rfl) ?_
  refine alike.leaveSelectionTarget.bind fun _ _ alike => ?_
  refine alike.leaveJoinCondition.bind fun _ _ alike => ?_
  refine alike.leavePartialStatement.bind fun builder other alike => ?_
  rw [← elseOwner? alike]
  split
  next owner found =>
    have hollow : builder.tree.Hollow owner := by
      rw [Reading.elseOwner?] at found
      split at found
      · obtain ⟨body, _, found⟩ := Option.bind_eq_some_iff.mp found
        exact hollow_elseOwnerAbove alike found
      · cases found
    refine (alike.moveTo hollow).bind fun _ _ alike => ?_
    exact (same.enter alike rfl rfl).bind fun _ _ alike => .ok alike.startStatement
  · exact same.stray alike

theorem endHandler (exact : reading.phrase.Exact 2) :
    Agree (Step.Alike likeness) (reading.endHandler builder kind) (twin.endHandler other kind) := by
  refine alike.leaveStatementContainers.bind fun _ _ alike => ?_
  refine .ite (alike.isIn _) ?_ ?_
  · refine (alike.moveUpTo 3 kind).bind fun _ _ alike => ?_
    obtain ⟨grown, saved, close, opened, opened', entered⟩ :=
      alike.save (rfl : NodeKind.containerClose.isLeaf = false)
    rw [opened, opened']
    obtain ⟨filled, twinFilled, used, keyword, keyword', alike, _⟩ :=
      same.saveKeyword entered.alike entered.hollow fun _ => exact
    simp only [keyword, keyword']
    exact (alike.moveUp 1).bind fun _ _ alike => .ok ⟨alike.setStatementDue, rfl⟩
  · rw [← alike.cursor]
    obtain ⟨filled, twinFilled, used, keyword, keyword', alike, _⟩ :=
      same.saveKeyword alike alike.hollow fun _ => exact
    rw [keyword, keyword']
    exact .ok ⟨alike.markError, rfl⟩

theorem close : Agree (Builder.Alike likeness) (reading.close builder) (twin.close other) := by
  obtain ⟨grown, saved, close, opened, opened', entered⟩ :=
    alike.save (rfl : NodeKind.containerClose.isLeaf = false)
  rw [Reading.close, Reading.close, opened, opened']
  exact (entered.alike.saveLeafIn entered.hollow same.reads).moveUp 1

theorem end_ : Agree (Step.Alike likeness) (reading.end_ builder) (twin.end_ other) := by
  have isTry : reading.phrase.startsWith ["END", "TRY"] = twin.phrase.startsWith ["END", "TRY"] :=
    same.phrases.startsWith (by decide)
  have isCatch : reading.phrase.startsWith ["END", "CATCH"] =
      twin.phrase.startsWith ["END", "CATCH"] :=
    same.phrases.startsWith (by decide)
  unfold Reading.end_
  rw [← isTry, ← isCatch]
  split
  next starts => exact same.endHandler alike (Phrase.exact_of_startsWith starts (by decide))
  split
  next starts => exact same.endHandler alike (Phrase.exact_of_startsWith starts (by decide))
  refine alike.leaveBetween.bind fun _ _ alike => ?_
  refine .ite (alike.isIn _) ((alike.moveUpTo 3 _).bind fun _ _ alike => (same.close alike).done) ?_
  refine .ite (alike.isIn _) ((alike.moveUpTo 2 _).bind fun _ _ alike => (same.close alike).done) ?_
  refine alike.leaveStatementContainers.bind fun _ _ alike => ?_
  refine .ite (alike.isIn _) ?_ (.ok ⟨alike.saveLeafWithError same.reads, rfl⟩)
  refine (alike.moveUpTo 3 _).bind fun _ _ alike => ?_
  exact (same.close alike).bind fun _ _ alike => .ok ⟨alike.setStatementDue, rfl⟩

theorem beginHandler (container : kind.isLeaf = false) (exact : reading.phrase.Exact 2) :
    Agree (Step.Alike likeness) (reading.beginHandler builder kind)
      (twin.beginHandler other kind) := by
  obtain ⟨first, _, block, saved, saved', one⟩ := alike.save container
  obtain ⟨second, _, opening, opened, opened', two⟩ :=
    one.alike.saveIn one.hollow (rfl : NodeKind.containerOpen.isLeaf = false)
  obtain ⟨third, _, used, keyword, keyword', alike, older⟩ :=
    same.saveKeyword two.alike two.hollow fun _ => exact
  obtain ⟨fourth, _, body, filled, filled', three⟩ := alike.saveIn (older (two.older one.hollow))
    (rfl : NodeKind.containerMultiStatementBody.isLeaf = false)
  simp only [Reading.beginHandler, saved, saved', opened, opened', keyword, keyword',
    filled, filled']
  exact (three.alike.moveTo three.hollow).bind fun _ _ alike => .ok ⟨alike.startStatement, rfl⟩

theorem begin_ (isBegin : reading.word = "BEGIN") :
    Agree (Step.Alike likeness) (reading.begin_ builder) (twin.begin_ other) := by
  have exact {word : String} (second : (reading.phrase.word 1 == word) = true)
      (plain : Keyword.isPlain word = true) : reading.phrase.Exact 2 := by
    refine Phrase.exact_of_word ?_ (beq_iff_eq.mp second ▸ plain)
    rw [show reading.phrase.word 0 = "BEGIN" from isBegin]
    decide
  refine alike.considerStatement.bind fun _ _ alike => ?_
  rw [← same.phrases.word_beq 1 (by decide : "TRY".toList.head? ≠ some '['),
    ← same.phrases.word_beq 1 (by decide : "CATCH".toList.head? ≠ some '['),
    ← same.phrases.compoundLength?]
  split
  next isTry => exact same.beginHandler alike rfl (exact isTry (by decide))
  split
  next isCatch => exact same.beginHandler alike rfl (exact isCatch (by decide))
  split
  next count found =>
    obtain ⟨grown, _, transaction, opened, opened', entered⟩ :=
      alike.save (rfl : NodeKind.beginTransaction.isLeaf = false)
    obtain ⟨filled, _, used, keyword, keyword', alike, _⟩ :=
      same.saveKeyword entered.alike entered.hollow
      fun _ => Phrase.exact_of_compoundLength? found
    simp only [opened, opened', keyword, keyword']
    exact .ok ⟨alike, rfl⟩
  · exact (same.enter alike rfl rfl).bind fun _ _ alike => .ok ⟨alike.startStatement, rfl⟩

theorem transaction (container : kind.isLeaf = false) :
    Agree (Step.Alike likeness) (reading.transaction builder kind)
      (twin.transaction other kind) := by
  refine alike.considerStatement.bind fun _ _ alike => ?_
  have exact : 1 < reading.phrase.compoundLength?.getD 1 →
      reading.phrase.Exact (reading.phrase.compoundLength?.getD 1) := by
    cases found : reading.phrase.compoundLength? with
    | none => simp
    | some count => exact fun _ => Phrase.exact_of_compoundLength? found
  obtain ⟨grown, _, transaction, opened, opened', entered⟩ := alike.save container
  obtain ⟨filled, _, used, keyword, keyword', alike, _⟩ :=
    same.saveKeyword entered.alike entered.hollow exact
  rw [← same.phrases.compoundLength?]
  simp only [opened, opened', keyword, keyword']
  exact .ok ⟨alike, rfl⟩

theorem batchSeparator :
    Agree (Builder.Alike likeness) (reading.batchSeparator builder)
      (twin.batchSeparator other) := by
  have value : NodeKind.Reads likeness .other reading.value twin.value :=
    NodeKind.reads_of_eq (by decide) fun isStrict =>
      same.token.exact isStrict (by simp [same.isWord])
  refine alike.leaveStatementContainers.bind fun _ _ alike => ?_
  refine .ite same.isAloneOnLine ?_ (.ok (alike.saveLeaf value))
  refine alike.findBatchEnd.bind ?_
  rintro ⟨builder, valid⟩ ⟨other, _⟩ ⟨alike, rfl⟩
  refine .ite rfl ?_ (.ok (alike.saveLeafWithError value))
  obtain ⟨grown, _, separator, opened, opened', entered⟩ :=
    alike.saveIn alike.tree.root (rfl : NodeKind.batchSeparator.isLeaf = false)
  have filled := entered.alike.saveLeafIn entered.hollow same.reads
  simp only [opened, opened']
  exact .ok (filled.startStatementIn filled.tree.root)

/-! ### Declarations, definitions, cursors and permissions -/

theorem definition (container : kind.isLeaf = false) :
    Agree (Builder.Alike likeness) (reading.definition builder kind)
      (twin.definition other kind) := by
  refine alike.considerStatement.bind fun _ _ alike => ?_
  exact (alike.enter container).bind fun _ _ alike => .ok (same.saveWord alike)

omit same in
theorem isInProcedureHead : isInProcedureHead builder = isInProcedureHead other := by
  rw [Reading.isInProcedureHead, Reading.isInProcedureHead, alike.isIn, alike.isIn]

omit same in
theorem leaveProcedureOptions :
    Agree (Builder.Alike likeness) (leaveProcedureOptions builder) (leaveProcedureOptions other) :=
  .ite (alike.isIn _) (alike.moveUpTo 2 _) (.ok alike)

theorem triggerCondition {words : Nat} (found : reading.phrase.triggerLength? = some words) :
    Agree (Step.Alike likeness) (reading.triggerCondition builder words)
      (twin.triggerCondition other words) := by
  refine (leaveProcedureOptions alike).bind fun _ _ alike => ?_
  have exact : 1 < (if reading.word == "INSTEAD" then 2 else 1) →
      reading.phrase.Exact (if reading.word == "INSTEAD" then 2 else 1) := by
    split
    next instead =>
      exact fun _ => Phrase.exact_of_triggerLength? (by rw [found]; rfl) (beq_iff_eq.mp instead)
    · simp
  obtain ⟨grown, _, condition, opened, opened', entered⟩ :=
    alike.save (rfl : NodeKind.triggerCondition.isLeaf = false)
  obtain ⟨filled, saved, used, keyword, keyword', alike, older⟩ :=
    same.saveKeyword entered.alike entered.hollow exact
  rw [← same.word, ← same.phrases.lastPlace?]
  simp only [opened, opened', keyword, keyword']
  split
  · exact .ok ⟨alike, rfl⟩
  next last _ =>
    exact .ok ⟨(alike.saveTokens (same.tokens (used + 1) last) (older entered.hollow)).1, rfl⟩

theorem returns : (reading.returns builder).Alike likeness (twin.returns other) := by
  obtain ⟨grown, _, returns, opened, opened', entered⟩ :=
    alike.save (rfl : NodeKind.ddlReturns.isLeaf = false)
  simp only [Reading.returns, opened, opened']
  exact entered.alike.saveLeafIn entered.hollow same.reads

theorem as_ : Agree (Builder.Alike likeness) (reading.as_ builder) (twin.as_ other) := by
  refine (leaveProcedureOptions alike).bind fun _ _ alike => ?_
  refine .ite (alike.isIn _) ?_ (.ite (alike.isIn _) ?_ (.ok (same.saveWord alike)))
  · refine .ite (same.phrases.isDataType 1) (.ok (same.saveWord alike)) ?_
    exact (same.enter alike rfl rfl).bind fun _ _ alike => .ok alike.startStatement
  · exact (alike.moveUp 1).bind fun _ _ alike => same.enter alike rfl rfl

theorem for_ : Agree (Builder.Alike likeness) (reading.for_ builder) (twin.for_ other) := by
  refine .ite (alike.isIn _) ?_ ?_
  · exact (same.enter alike rfl rfl).bind fun _ _ alike => .ok alike.startStatement
  refine alike.leaveSelectionTarget.bind fun _ _ alike => ?_
  refine .ite (alike.isIn _) ((alike.moveUpTo 4 _).bind fun _ _ alike =>
    same.enter alike rfl rfl) ?_
  exact .iteBind (alike.isIn _) alike.considerClause (.ok alike) fun _ _ alike =>
    .ok (same.saveWord alike)

theorem with_ : Agree (Builder.Alike likeness) (reading.with_ builder) (twin.with_ other) := by
  refine .iteBind alike.statementDue alike.considerStatement (.ok alike) fun _ _ alike => ?_
  refine .ite (by rw [alike.isIn, alike.hasContent]) ?_
    (.ite (alike.isIn _) ?_ (.ite ?_ ?_ (.ite ?_ ?_ ?_)))
  · exact (same.enter alike rfl rfl).bind fun _ _ alike => alike.enter rfl
  · exact (alike.moveUpTo 2 _).bind fun _ _ alike => same.enter alike rfl rfl
  · rw [alike.isIn, alike.isIn]
  · exact same.enter alike rfl rfl
  · rw [alike.isIn, alike.isIn]
  · exact .ok (same.saveWord alike)
  · exact alike.considerClause.bind fun _ _ alike => .ok (same.saveWord alike)

theorem permissionsDetail :
    Agree (Builder.Alike likeness) (reading.permissionsDetail builder)
      (twin.permissionsDetail other) := by
  rw [Reading.permissionsDetail, Reading.permissionsDetail, ← same.word]
  split
  · exact (alike.moveUpTo 1 _).bind fun _ _ alike => same.enter alike rfl rfl
  · exact (alike.moveUpTo 1 _).bind fun _ _ alike => same.enter alike rfl rfl
  · exact (alike.moveUpTo 1 _).bind fun _ _ alike => same.enter alike rfl rfl
  · exact .ok (same.saveTyped alike)

theorem permissions :
    Agree (Builder.Alike likeness) (reading.permissions builder) (twin.permissions other) := by
  refine .ite (by rw [same.word, alike.isIn, alike.hasContent]) (.ok (same.saveWord alike)) ?_
  exact alike.considerStatement.bind fun _ _ alike => same.enter alike rfl rfl

theorem permissionsRecipient :
    Agree (Builder.Alike likeness) (reading.permissionsRecipient builder)
      (twin.permissionsRecipient other) :=
  (alike.moveUpTo 2 _).bind fun _ _ alike => same.enter alike rfl rfl

theorem cascade :
    Agree (Builder.Alike likeness) (reading.cascade builder) (twin.cascade other) := by
  refine .ite (by rw [alike.isIn, alike.isIn]) ?_ (.ok (same.saveWord alike))
  exact (alike.moveUpTo 2 _).bind fun _ _ alike => same.enter alike rfl rfl

/-! ### Queries, changes of data and expressions -/

omit same in
theorem isAfterCte : isAfterCte builder = isAfterCte other :=
  alike.isIn _

omit same in
theorem considerStatementUnlessCte :
    Agree (Builder.Alike likeness) (considerStatementUnlessCte builder)
      (considerStatementUnlessCte other) :=
  .ite (isAfterCte alike) (.ok alike) alike.considerStatement

theorem join {words : Nat} (found : reading.phrase.joinLength? = some words) :
    Agree (Step.Alike likeness) (reading.join builder words) (twin.join other words) := by
  have exact : reading.phrase.Exact words := Phrase.exact_of_joinLength? found
  refine alike.leaveBetween.bind fun _ _ alike => ?_
  refine alike.leaveSelectionTarget.bind fun _ _ alike => ?_
  refine alike.leaveJoinCondition.bind fun _ _ alike => ?_
  obtain ⟨first, _, target, saved, saved', one⟩ :=
    alike.save (rfl : NodeKind.joinTarget.isLeaf = false)
  obtain ⟨second, _, opening, opened, opened', two⟩ :=
    one.alike.saveIn one.hollow (rfl : NodeKind.containerOpen.isLeaf = false)
  simp only [saved, saved', opened, opened']
  by_cases several : 1 < words
  · obtain ⟨third, _, used, keyword, keyword', alike, older⟩ :=
      same.saveKeyword two.alike two.hollow fun _ => exact
    rw [if_pos several, if_pos several]
    simp only [keyword, keyword']
    exact (alike.moveTo (older (two.older one.hollow))).bind fun _ _ alike => .ok ⟨alike, rfl⟩
  · obtain ⟨third, _, compound, named, named', three⟩ :=
      two.alike.saveIn two.hollow (rfl : NodeKind.compoundKeyword.isLeaf = false)
    have joined : reading.phrase.joined 1 = twin.phrase.joined 1 := by
      rw [Phrase.joined_one, Phrase.joined_one]
      exact same.word
    have names : likeness.Names (some (reading.phrase.joined 1)) (some (twin.phrase.joined 1)) := by
      rw [joined]
      exact .refl ..
    have spelled := three.alike.setSimpleText compound names
    have filled := spelled.saveLeafIn (three.hollow.setAttribute ..) same.reads
    rw [if_neg several, if_neg several]
    simp only [named, named']
    refine (filled.moveTo ?_).bind fun _ _ alike => .ok ⟨alike, rfl⟩
    exact ((three.older (two.older one.hollow)).setAttribute ..).append ..

theorem from_ : Agree (Builder.Alike likeness) (reading.from_ builder) (twin.from_ other) :=
  alike.considerClause.bind fun _ _ alike => (same.saveWord alike).enter rfl

theorem on_ : Agree (Builder.Alike likeness) (reading.on_ builder) (twin.on_ other) := by
  refine .iteBind (by rw [alike.isIn, alike.isIn]) alike.leaveSelectionTarget (.ok alike)
    fun _ _ alike => ?_
  refine .ite (alike.isIn _) ((alike.moveUpTo 1 _).bind fun _ _ alike =>
    same.enter alike rfl rfl) ?_
  exact .ite (alike.lastContentIs _) (same.enter alike rfl rfl) (.ok (same.saveWord alike))

theorem mergeUsing :
    Agree (Builder.Alike likeness) (reading.mergeUsing builder) (twin.mergeUsing other) :=
  (alike.moveUpTo 1 _).bind fun _ _ alike => same.enter alike rfl rfl

theorem merge : Agree (Builder.Alike likeness) (reading.merge builder) (twin.merge other) := by
  refine (considerStatementUnlessCte alike).bind fun _ _ alike => ?_
  exact alike.considerClause.bind fun _ _ alike => same.enter alike rfl rfl

theorem startsClause :
    Agree (Builder.Alike likeness) (do return reading.saveWord (← builder.considerClause))
      (do return twin.saveWord (← other.considerClause)) :=
  alike.considerClause.bind fun _ _ alike => .ok (same.saveWord alike)

theorem select : Agree (Builder.Alike likeness) (reading.select builder) (twin.select other) := by
  have isInsert :=
    alike.statementStartsWith (by decide : ∀ word ∈ ["INSERT", "INSERT INTO"], '[' ∉ word.toList)
  have hasSource :=
    alike.hasClauseStartingWith (by decide : ∀ word ∈ ["SELECT", "VALUES"], '[' ∉ word.toList)
  refine .iteBind ?_ (.ok alike) alike.considerStatement fun _ _ alike => same.startsClause alike
  rw [alike.lastContentIs, isInsert, alike.isIn, hasSource, isAfterCte alike]

theorem update : Agree (Builder.Alike likeness) (reading.update builder) (twin.update other) := by
  refine .ite (by rw [alike.isIn, same.nextSignificant?]) (.ok (same.saveWord alike)) ?_
  exact (considerStatementUnlessCte alike).bind fun _ _ alike => same.startsClause alike

theorem set : Agree (Builder.Alike likeness) (reading.set builder) (twin.set other) := by
  refine .ite (alike.isIn _) (.ok (same.saveWord alike)) (.ite ?_ (same.startsClause alike) ?_)
  · rw [alike.statementStartsWith (by decide : ∀ word ∈ ["UPDATE"], '[' ∉ word.toList),
      alike.hasClauseStartingWith (by decide : ∀ word ∈ ["SET"], '[' ∉ word.toList)]
  · exact alike.considerStatement.bind fun _ _ alike => .ok (same.saveWord alike)

theorem execute (isExecute : Keyword.isPlain reading.word = true) :
    Agree (Step.Alike likeness) (reading.execute builder) (twin.execute other) := by
  have isAs := same.phrases.word_beq 1 (by decide : "AS".toList.head? ≠ some '[')
  unfold Reading.execute
  rw [← isAs]
  split
  next second =>
    have exact : reading.phrase.Exact 2 :=
      Phrase.exact_of_word isExecute (beq_iff_eq.mp second ▸ by decide)
    have saved (builder other : Builder) (alike : builder.Alike likeness other) :
        Step.Alike likeness (reading.saveKeyword builder builder.cursor 2)
          (twin.saveKeyword other other.cursor 2) := by
      obtain ⟨filled, _, used, keyword, keyword', alike', _⟩ :=
        same.saveKeyword alike alike.hollow fun _ => exact
      rw [← alike.cursor, keyword, keyword']
      exact ⟨alike', rfl⟩
    refine .ite (alike.isIn _) (.ok (saved _ _ alike))
      (alike.considerStatement.bind fun _ _ alike => ?_)
    exact alike.considerClause.bind fun _ _ alike => .ok (saved _ _ alike)
  · have isInsert :=
      alike.statementStartsWith (by decide : ∀ word ∈ ["INSERT", "INSERT INTO"], '[' ∉ word.toList)
    refine .ite (by rw [isInsert, alike.isIn]) ?_ ?_
    · exact alike.considerClause.bind fun _ _ alike => same.keyword alike
    · exact alike.considerStatement.bind fun _ _ alike => same.keyword alike

theorem logicalOperator (container : kind.isLeaf = false) :
    Agree (Builder.Alike likeness) (reading.logicalOperator builder kind)
      (twin.logicalOperator other kind) := by
  refine alike.leaveBetween.bind fun _ _ alike => ?_
  obtain ⟨grown, _, operator, opened, opened', entered⟩ := alike.save container
  simp only [opened, opened']
  exact .ok (entered.alike.saveLeafIn entered.hollow same.reads)

theorem and_ : Agree (Builder.Alike likeness) (reading.and_ builder) (twin.and_ other) := by
  refine .ite (alike.isIn _) ?_ (same.logicalOperator alike rfl)
  refine (alike.moveUpTo 1 _).bind fun _ _ alike => ?_
  obtain ⟨grown, _, close, opened, opened', entered⟩ :=
    alike.save (rfl : NodeKind.containerClose.isLeaf = false)
  simp only [opened, opened']
  exact (entered.alike.saveLeafIn entered.hollow same.reads).enter rfl

theorem setOperator :
    Agree (Step.Alike likeness) (reading.setOperator builder) (twin.setOperator other) := by
  refine alike.considerClause.bind fun _ _ alike => ?_
  have isAll : reading.phrase.startsWith ["UNION", "ALL"] =
      twin.phrase.startsWith ["UNION", "ALL"] :=
    same.phrases.startsWith (by decide)
  have exact : 1 < (if reading.phrase.startsWith ["UNION", "ALL"] then 2 else 1) →
      reading.phrase.Exact (if reading.phrase.startsWith ["UNION", "ALL"] then 2 else 1) := by
    split
    next starts => exact fun _ => Phrase.exact_of_startsWith starts (by decide)
    · simp
  obtain ⟨grown, _, clause, opened, opened', entered⟩ :=
    alike.save (rfl : NodeKind.setOperatorClause.isLeaf = false)
  obtain ⟨filled, _, used, keyword, keyword', alike, _⟩ :=
    same.saveKeyword entered.alike entered.hollow exact
  rw [← isAll]
  simp only [opened, opened', keyword, keyword']
  exact .ok ⟨alike, rfl⟩

end AlikeWord

end Reading

end SqlLayout
