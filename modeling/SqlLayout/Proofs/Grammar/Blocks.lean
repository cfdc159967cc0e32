import SqlLayout.Grammar.Blocks
import SqlLayout.Proofs.Grammar.Rule

/-!
# Control flow, blocks, transactions and batches complete
-/

namespace SqlLayout.Reading

variable {reading : Reading} {builder : Builder} {tokens : List Token} {draft : Draft}
  {kind : NodeKind} {tree : Tree} {owner : NodeId} {bound : Nat}

theorem OnWord.conditional (onWord : reading.OnWord) (located : builder.At tokens draft)
    (isOpen : draft.IsOpen) (anywhere : kind.parents = NodeKind.holders)
    (shape : kind.opensWith .booleanExpression = true) :
    Reaches (tokens ++ [reading.token]) (reading.conditional builder kind) Draft.AtRest := by
  refine (located.considerStatement isOpen).bind fun builder draft located isOpen => ?_
  exact (onWord.enterHere located isOpen anywhere shape).imp fun _ entered =>
    entered.atRest (by decide)

theorem OnWord.when_ (onWord : reading.OnWord) (located : builder.At tokens draft)
    (isOpen : draft.IsOpen) :
    Reaches (tokens ++ [reading.token]) (reading.when_ builder) Draft.AtRest := by
  refine (located.leaveBetween isOpen).bind fun builder draft located escapes => ?_
  split
  next inside =>
    obtain ⟨others, path, _⟩ := located.path_of_isIn [] .caseInput inside rfl
    exact onWord.enterPart located path rfl (by decide)
  split
  next inside =>
    obtain ⟨others, path⟩ := located.path_of_caseThen inside
    exact onWord.enterPart located path rfl (by decide)
  refine (located.leaveSelectionTarget escapes.isOpen).bind fun builder draft located escapes => ?_
  refine (located.leaveMergeAction escapes.isOpen).bind fun builder draft located left => ?_
  have onward : ∀ builder draft, Builder.At builder tokens draft →
      draft.IsOpen ∨ draft.kind = .mergeClause →
      Reaches (tokens ++ [reading.token])
        (if builder.isIn [.mergeClause] then reading.enter builder .mergeWhen .containerContentBody
          else .ok (builder.saveLeafWithError .otherKeyword reading.value)) Draft.AtRest := by
    intro builder draft located isOpen
    split
    next inside =>
      have isClause := (located.isIn_kind _).mp inside
      have accepted : draft.Accepts .mergeWhen :=
        Draft.accepts_of_unstaged (by rw [isClause]; rfl) _
      exact (onWord.enter located (isClause ▸ by decide) accepted rfl (absurd · (by decide))).imp
        fun _ entered => entered.atRest (by decide)
    next outside =>
      rw [located.isIn_kind] at outside
      exact onWord.saveWithError located (isOpen.resolve_right outside) rfl
  dsimp only
  split
  next inside =>
    obtain ⟨others, path, _⟩ := located.path_of_isIn [] .mergeWhen inside rfl
    refine (located.moveUpTo path (by decide)).bind fun builder draft located left => ?_
    exact onward builder draft located (.inr (Draft.kind_eq left.path))
  next outside =>
    rw [located.isIn_kind] at outside
    split
    next inside =>
      obtain ⟨others, path, _⟩ :=
        located.path_of_isIn [.containerContentBody] .mergeCondition inside rfl
      refine (located.moveUpTo path (by decide)).bind fun builder draft located left => ?_
      exact onward builder draft located (.inr (Draft.kind_eq left.path))
    next => exact onward builder draft located (.inl (left.2.resolve_right outside))

theorem OnWord.then_ (onWord : reading.OnWord) (located : builder.At tokens draft)
    (isOpen : draft.IsOpen) :
    Reaches (tokens ++ [reading.token]) (reading.then_ builder) Draft.AtRest := by
  refine (located.leaveBetween isOpen).bind fun builder draft located escapes => ?_
  split
  next inside =>
    obtain ⟨others, path⟩ := (located.isIn_iff (by simp)).mp inside
    have path : draft.path = [NodeKind.containerContentBody] ++ .caseWhen :: others := path
    exact onWord.enterPart located path rfl (by decide)
  split
  next inside =>
    obtain ⟨others, path⟩ := (located.isIn_iff (by simp)).mp inside
    have path : draft.path = [NodeKind.containerContentBody] ++ .mergeWhen :: others := path
    exact (onWord.enterAbove located path rfl).bind_bind fun builder draft located entered =>
      startStatement located entered (by decide) nofun
  next => exact onWord.saveWithError located escapes.isOpen rfl

theorem clause_of_body {others : List NodeKind} {first second : NodeKind}
    (nested : Nested (first :: second :: .containerSingleStatementBody :: others)) :
    first = .clause ∧ second = .statement := by
  have inBody : ∀ kind : NodeKind, .containerSingleStatementBody ∈ kind.parents →
      kind = .statement := by
    intro kind
    cases kind <;> decide
  have inStatement : ∀ kind : NodeKind, .statement ∈ kind.parents → kind = .clause := by
    intro kind
    cases kind <;> decide
  obtain ⟨around, body, _⟩ := nested
  obtain rfl := inBody second body
  exact ⟨inStatement first around, rfl⟩

theorem kind_of_elseOwnerAbove {body : NodeId}
    (found : elseOwnerAbove tree body bound = some owner) :
    tree.kind body = .containerSingleStatementBody := by
  cases bound with
  | zero => simp [elseOwnerAbove] at found
  | succ bound =>
    rw [elseOwnerAbove] at found
    split at found
    next isBody => exact isBody
    next => simp at found

/-- A draft lies in the first body of an `IF`, and every nearer `IF` has an `ELSE`. -/
structure Owes (draft body : Draft) : Prop where
  above : draft.Above body
  rises : draft.Rises body
  isBody : body.kind = .containerSingleStatementBody
  enclosed : body.outer ≠ []
  inIf : body.up.kind = .ifStatement

theorem Owes.trans {draft middle body : Draft} (above : draft.Above middle)
    (rises : draft.Rises middle) (owes : Owes middle body) : Owes draft body :=
  ⟨above.trans owes.above, rises.trans owes.rises, owes.isBody, owes.enclosed, owes.inIf⟩

/-- A further body in which the owner of an `ELSE` is looked for lies two levels above the
construct. -/
theorem above_of_elseOwnerAbove (shown : tree.Shows draft) (sound : draft.Sound)
    {inner more : List NodeKind} (path : draft.path = inner ++ more)
    (plain : ∀ kind ∈ inner, kind.isPlain = true)
    (found : ((tree.ancestor draft.id (inner.length + 2)).bind fun outer =>
      elseOwnerAbove tree outer bound) = some owner) :
    ∃ other, draft.Above other ∧ (draft.ups inner.length).Rises other ∧
      elseOwnerAbove tree other.id bound = some owner := by
  obtain ⟨_, isAncestor, found⟩ := Option.bind_eq_some_iff.mp found
  rcases shown.ups_of_ancestor isAncestor with ⟨enough, rfl⟩
  have isBody := kind_of_elseOwnerAbove found
  rw [(shown.ups _).kind_id] at isBody
  have further := Draft.path_ups enough
  rw [path, ← List.drop_drop, List.drop_left, Draft.path, isBody] at further
  rcases more with _ | ⟨first, _ | ⟨second, rest⟩⟩
  · simp at further
  · simp at further
  obtain rfl : rest = _ := further.symm
  obtain ⟨rfl, rfl⟩ := clause_of_body (Nested.of_append (path ▸ sound.nested))
  have left := Draft.left_ups sound path (List.cons_ne_nil _ _) plain
  have outside := Draft.left_ups (sound.ups _)
    (left.path.trans (rfl : _ = [NodeKind.clause, .statement] ++ _))
    (List.cons_ne_nil _ _) (by decide)
  rw [Draft.ups_add] at found
  exact ⟨_, left.above.trans outside.above, outside.rises (List.cons_ne_nil _ _) (by decide), found⟩

/-- The owner of an `ELSE` is an `IF` around the cursor, and every nearer one has its `ELSE`. -/
theorem elseOwnerAbove_eq (shown : tree.Shows draft) (sound : draft.Sound)
    (found : elseOwnerAbove tree draft.id bound = some owner) :
    ∃ body, Owes draft body ∧ body.up.id = owner := by
  induction bound generalizing draft with
  | zero => simp [elseOwnerAbove] at found
  | succ bound ih =>
    have isBody := kind_of_elseOwnerAbove found
    rw [elseOwnerAbove, if_pos isBody] at found
    rw [shown.kind_id] at isBody
    have enclosed : draft.outer ≠ [] := by
      intro none
      rw [shown.parent_id, none] at found
      simp at found
    have path : draft.path =
        .containerSingleStatementBody :: draft.up.kind :: draft.up.outer.map Frame.kind := by
      rw [← isBody, ← Draft.path, Draft.path_up enclosed]
      rfl
    have further : ∀ {inner more : List NodeKind}, draft.path = inner ++ more →
        (∀ kind ∈ inner, kind.isPlain = true) → draft.Rises (draft.ups inner.length) →
        ((tree.ancestor draft.id (inner.length + 2)).bind fun outer =>
          elseOwnerAbove tree outer bound) = some owner →
        ∃ body, Owes draft body ∧ body.up.id = owner := by
      intro inner more path plain rises found
      obtain ⟨middle, above, more, found⟩ := above_of_elseOwnerAbove shown sound path plain found
      obtain ⟨body, owes, isOwner⟩ := ih (above.shows shown) (above.sound sound) found
      exact ⟨body, owes.trans above (rises.trans more), isOwner⟩
    simp only [shown.parent_up enclosed, shown.up.kind_id] at found
    split at found
    next isIf =>
      exact ⟨draft, ⟨.refl, .refl draft, isBody, enclosed, isIf⟩, Option.some_inj.mp found⟩
    next isElse =>
      rw [isElse] at path
      obtain ⟨others, inIf, _⟩ := (path ▸ sound.nested : Nested _).tail.parent_eq rfl
      rw [inIf] at path
      have path : draft.path =
          [NodeKind.containerSingleStatementBody, .elseClause, .ifStatement] ++ others := path
      -- The `IF` of the `ELSE` that is left has this `ELSE` as its last part.
      have left := Draft.left_ups sound (path.trans
        (rfl : _ = [NodeKind.containerSingleStatementBody, .elseClause] ++ .ifStatement :: others))
        (List.cons_ne_nil _ _) (by decide)
      have decided : (draft.ups 2).Decided := by
        intro _
        obtain ⟨child, isChild, isElse⟩ := List.mem_map.mp
          (List.mem_of_getLast? ((List.getLast?_map ..).trans (left.last .elseClause rfl)))
        exact ⟨child, isChild, isElse⟩
      have inIf : (draft.ups 2).kind ≠ .root := Draft.kind_eq left.path ▸ by decide
      have rises := decided.rises ((sound.ups 2).enclosed inIf)
      exact further path (by decide)
        ((left.rises (List.cons_ne_nil _ _) (by decide)).trans rises) found
    next isWhile =>
      have inLoop := sound.up.enclosed (isWhile ▸ by decide)
      rw [isWhile] at path
      have path : draft.path = [NodeKind.containerSingleStatementBody, .whileLoop] ++ _ := path
      have left := Draft.left_ups sound path (by simpa using inLoop) (by decide)
      exact further path (by decide) (left.rises (by simpa using inLoop) (by decide)) found
    next => simp at found

theorem elseOwner?_eq (located : builder.At tokens draft)
    (found : elseOwner? builder = some owner) : ∃ body, Owes draft body ∧ body.up.id = owner := by
  rw [elseOwner?] at found
  split at found
  next inside =>
    obtain ⟨others, path, nested⟩ := located.nested_of_isIn (by simp) inside
    have path : draft.path = [NodeKind.clause, .statement] ++
        .containerSingleStatementBody :: others := path
    have left := Draft.left_ups located.sound path (by simp) (by decide)
    have enough : 2 ≤ draft.outer.length := Draft.length_le_of_path path (List.cons_ne_nil _ _)
    have shown := located.stands.shown
    rw [located.stands.cursor, shown.ancestor_ups enough, Option.bind_some] at found
    obtain ⟨body, owes, isOwner⟩ :=
      elseOwnerAbove_eq (left.above.shows shown) (left.above.sound located.sound) found
    exact ⟨body, owes.trans left.above (left.rises (by simp) (by decide)), isOwner⟩
  next => simp at found

theorem OnWord.else_ (onWord : reading.OnWord) (located : builder.At tokens draft)
    (isOpen : draft.IsOpen) :
    Reaches (tokens ++ [reading.token]) (reading.else_ builder) Draft.AtRest := by
  refine (located.leaveBetween isOpen).bind fun builder draft located escapes => ?_
  split
  next inside =>
    obtain ⟨others, path⟩ := located.path_of_caseThen inside
    exact onWord.enterPart located path rfl (by decide)
  refine (located.leaveSelectionTarget escapes.isOpen).bind fun builder _ located escapes => ?_
  refine (located.leaveJoinCondition escapes.isOpen).bind fun builder _ located escapes => ?_
  refine (located.leavePartialStatement (.inl escapes.isOpen)).bind
    fun builder draft located escapes => ?_
  split
  next owner found =>
    obtain ⟨body, owes, rfl⟩ := elseOwner?_eq located found
    have notElse : body.kind ≠ .elseClause := owes.isBody ▸ by decide
    have undecided := (located.built.unbranched.passes owes.above.passes).up owes.enclosed notElse
    refine (located.moveTo
      (owes.above.tail (Draft.leave_up (owes.isBody ▸ by decide) owes.enclosed))).bind ?_
    rintro builder _ located rfl
    have accepted : body.up.Accepts .elseClause :=
      Draft.accepts_of_unstaged (by rw [owes.inIf]; rfl) _
    exact (onWord.enter located (owes.inIf ▸ by decide) accepted rfl fun _ => undecided).bind
      fun builder draft located entered => startStatement located entered (by decide) nofun
  next => exact onWord.saveWithError located escapes.isOpen rfl

theorem OnWord.close (onWord : reading.OnWord) (located : builder.At tokens draft)
    (closes : draft.kind.finish? = some .containerClose)
    (accepted : draft.Accepts .containerClose) :
    Reaches (tokens ++ [reading.token]) (reading.close builder) Draft.AtRest := by
  obtain ⟨opened, close, savedClose, sees⟩ := located.stands.sees.openIn .containerClose
  obtain ⟨grown, word, saved, sees⟩ := sees.saveIn .otherKeyword reading.value
  have stands : grown.Stands (draft.add (.bracket close .containerClose
      (.leaf word .otherKeyword reading.value))) := ⟨sees.shown.of_outline rfl, sees.cursor⟩
  have reaches := leaveClosed located closes accepted (onWord.isKeyword word) stands
  rw [Draft.enter_id] at saved
  simp only [Reading.close, Builder.save, located.stands.cursor, savedClose,
    Builder.saveLeafIn, saved]
  exact reaches

theorem OnWord.closeLeft (onWord : reading.OnWord) (located : builder.At tokens draft)
    {origin : Draft} {inner others : List NodeKind}
    (left : origin.Left inner (kind :: others) draft) (nonempty : inner ≠ [])
    (closes : kind.finish? = some .containerClose)
    (accepted : kind.accepts inner.getLast? .containerClose = true) :
    Reaches (tokens ++ [reading.token]) (reading.close builder) Draft.AtRest := by
  have isKind := Draft.kind_eq left.path
  exact onWord.close located (isKind ▸ closes) (left.accepts nonempty accepted)

theorem OnWord.endHandler (onWord : reading.OnWord) (located : builder.At tokens draft)
    (isOpen : draft.IsOpen) (closes : kind.finish? = some .containerClose)
    (accepted : kind.accepts (some .containerMultiStatementBody) .containerClose = true)
    (exact : reading.phrase.Exact 2) :
    Completes tokens reading.source (reading.endHandler builder kind) := by
  refine (located.leaveStatementContainers isOpen).thenStep fun builder draft located escapes => ?_
  split
  next inside =>
    obtain ⟨others, path⟩ := (located.isIn_iff (by simp)).mp inside
    have path : draft.path =
        [NodeKind.clause, .statement, .containerMultiStatementBody] ++ kind :: others := path
    refine (located.moveUpTo path (by decide)).thenStep fun builder draft located left => ?_
    have isKind := Draft.kind_eq left.path
    obtain ⟨opened, close, savedClose, sees⟩ := located.stands.sees.openIn .containerClose
    obtain ⟨grown, used, keyword, saved, sees, isKeyword, _⟩ :=
      onWord.saveKeyword sees fun _ => exact
    have stands : grown.Stands (draft.add (.bracket close .containerClose keyword)) :=
      ⟨sees.shown.of_outline rfl, sees.cursor⟩
    have closed :=
      leaveClosed located (isKind ▸ closes) (left.accepts (by simp) accepted) isKeyword stands
    obtain ⟨moved, other, isOk, ⟨stands, built⟩, atRest⟩ := closed
    rw [Draft.enter_id] at saved
    simp only [Builder.save, located.stands.cursor, savedClose, saved, isOk, ok_bind]
    exact ⟨_, _, _, rfl, ⟨stands.setStatementDue, built⟩, atRest⟩
  next =>
    obtain ⟨grown, used, other, saved, ⟨stands, built⟩, atRest⟩ :=
      onWord.completesKeyword located escapes.isOpen fun _ => exact
    rw [Except.ok.inj saved]
    exact ⟨_, _, _, rfl, ⟨stands.markError, built.mark⟩, atRest.mark⟩

theorem OnWord.end_ (onWord : reading.OnWord) (located : builder.At tokens draft)
    (isOpen : draft.IsOpen) : Completes tokens reading.source (reading.end_ builder) := by
  rw [Reading.end_]
  split
  next both =>
    exact onWord.endHandler located isOpen rfl rfl (Phrase.exact_of_startsWith both (by decide))
  split
  next both =>
    exact onWord.endHandler located isOpen rfl rfl (Phrase.exact_of_startsWith both (by decide))
  refine (located.leaveBetween isOpen).thenStep fun builder draft located escapes => ?_
  split
  next inside =>
    obtain ⟨others, path⟩ := located.path_of_caseThen inside
    refine (located.moveUpTo path (by decide)).thenStep fun builder draft located left => ?_
    exact (onWord.closeLeft located left (by simp) rfl rfl).done
  split
  next inside =>
    obtain ⟨others, path, _⟩ := located.path_of_isIn [.containerContentBody] .caseElse inside rfl
    refine (located.moveUpTo path (by decide)).thenStep fun builder draft located left => ?_
    exact (onWord.closeLeft located left (by simp) rfl rfl).done
  refine (located.leaveStatementContainers escapes.isOpen).thenStep
    fun builder draft located escapes => ?_
  split
  next inside =>
    obtain ⟨others, path⟩ := (located.isIn_iff (by simp)).mp inside
    have path : draft.path =
        [NodeKind.clause, .statement, .containerMultiStatementBody] ++ .beginEndBlock :: others :=
          path
    refine (located.moveUpTo path (by decide)).thenStep fun builder draft located left => ?_
    refine (onWord.closeLeft located left (by simp) rfl rfl).thenStep
      fun builder draft located atRest => ?_
    exact ⟨_, 0, _, rfl, ⟨located.stands.setStatementDue, located.built⟩, atRest⟩
  next => exact (onWord.saveWithError located escapes.isOpen rfl).done

theorem OnWord.beginHandler (onWord : reading.OnWord) (located : builder.At tokens draft)
    (isOpen : draft.IsOpen) (anywhere : kind.parents = NodeKind.holders)
    (shape : kind.opensWith .containerMultiStatementBody = true) (exact : reading.phrase.Exact 2) :
    Completes tokens reading.source (reading.beginHandler builder kind) := by
  obtain ⟨first, block, savedBlock, sees⟩ := located.stands.sees.openIn kind
  obtain ⟨second, opening, savedOpening, sees⟩ := sees.openIn .containerOpen
  obtain ⟨third, used, keyword, saved, sees, isKeyword, _⟩ := onWord.saveKeyword sees fun _ => exact
  have beside : third.Sees ((draft.enter block kind).add (.bracket opening .containerOpen keyword))
      draft.id := sees.of_outline rfl
  obtain ⟨fourth, body, savedBody, sees⟩ := beside.openIn .containerMultiStatementBody
  obtain ⟨moved, movedTo, stands⟩ := sees.moveTo
  obtain ⟨built, entered⟩ := isKeyword.opens located.built (anywhere ▸ isOpen) (isOpen.accepts kind)
    shape (fun inIf => absurd (anywhere ▸ inIf) (by decide)) block opening body
  obtain ⟨final, other, isOk, located', atRest⟩ :=
    startStatement ⟨stands, built⟩ entered (by decide) nofun
  change first.saveIn block .containerOpen "" = _ at savedOpening
  change reading.saveKeyword second opening 2 = _ at saved
  change third.saveIn block .containerMultiStatementBody "" = _ at savedBody
  change fourth.moveTo body = _ at movedTo
  simp only [Reading.beginHandler, Builder.save, located.stands.cursor, savedBlock,
    savedOpening, saved, savedBody, movedTo, ok_bind]
  exact ⟨final, used, other,
    congrArg (fun builder => Except.ok (builder, used)) (Except.ok.inj isOk), located', atRest⟩

theorem OnWord.begin_ (onWord : reading.OnWord) (located : builder.At tokens draft)
    (isOpen : draft.IsOpen) (plain : Keyword.isPlain reading.word = true) :
    Completes tokens reading.source (reading.begin_ builder) := by
  have exact : ∀ second, Keyword.isPlain second = true → (reading.phrase.word 1 == second) = true →
      reading.phrase.Exact 2 := by
    intro second plainSecond isSecond
    exact Phrase.exact_of_word plain (eq_of_beq isSecond ▸ plainSecond)
  refine (located.considerStatement isOpen).thenStep fun builder draft located isOpen => ?_
  split
  next isTry => exact onWord.beginHandler located isOpen rfl rfl (exact "TRY" (by decide) isTry)
  split
  next isCatch =>
    exact onWord.beginHandler located isOpen rfl rfl (exact "CATCH" (by decide) isCatch)
  split
  next count found =>
    exact onWord.completesWrapped located isOpen rfl fun _ => Phrase.exact_of_compoundLength? found
  next =>
    refine (onWord.enterHere located isOpen rfl rfl).thenStep fun builder draft located entered =>
      ?_
    exact (startStatement located entered (by decide) nofun).done

theorem OnWord.transaction (onWord : reading.OnWord) (located : builder.At tokens draft)
    (isOpen : draft.IsOpen) (transparent : kind.isTransparent = true) :
    Completes tokens reading.source (reading.transaction builder kind) := by
  refine (located.considerStatement isOpen).thenStep fun builder draft located isOpen => ?_
  refine onWord.completesWrapped located isOpen transparent fun several => ?_
  cases found : reading.phrase.compoundLength? with
  | none =>
    rw [found] at several
    exact absurd several (by decide)
  | some count => exact Phrase.exact_of_compoundLength? found

theorem OnWord.batchSeparator (onWord : reading.OnWord) (located : builder.At tokens draft)
    (isOpen : draft.IsOpen) :
    Reaches (tokens ++ [reading.token]) (reading.batchSeparator builder) Draft.AtRest := by
  refine (located.leaveStatementContainers isOpen).bind fun builder draft located escapes => ?_
  split
  next =>
    obtain ⟨left, valid, other, isOk, located, isOpen, rests⟩ := located.findBatchEnd escapes.isOpen
    rw [isOk, ok_bind]
    dsimp only
    split
    next isValid =>
      have shown : left.tree.Shows other.top := located.stands.shown.ups _
      have isRoot : other.top.id = Tree.root := by
        rw [← shown.rooted, Draft.outline, Draft.outer_top]
        rfl
      have sees : left.Sees other.top left.cursor := ⟨shown, rfl⟩
      obtain ⟨opened, separator, savedNode, sees⟩ := sees.openIn .batchSeparator
      obtain ⟨grown, word, saved, sees⟩ := sees.saveIn .otherKeyword reading.value
      have beside : grown.Sees (other.top.add (.bracket separator .batchSeparator
          (.leaf word .otherKeyword reading.value))) left.cursor := sees.of_outline rfl
      obtain ⟨statement, clause, stands⟩ := beside.startStatementIn
      have built := located.built.separate separator word onWord.isWord (rests isValid)
      rw [isRoot] at savedNode
      rw [Draft.enter_id] at saved
      simp only [savedNode, Builder.saveLeafIn, saved]
      rw [← isRoot]
      have top := Draft.kind_top located.sound
      have opens : other.top.kind ∈ NodeKind.parents .statement := top ▸ by decide
      have hosts : Draft.Hosts (other.top.add (.bracket separator .batchSeparator
          (.leaf word .otherKeyword reading.value))) :=
        ⟨fun isBody => absurd (top.symm.trans isBody) (by decide),
          fun isContent => absurd (top.symm.trans isContent) (by decide)⟩
      exact ⟨_, _, rfl, ⟨stands, built.startStatement opens hosts statement clause⟩,
        Draft.atRest_startStatement ..⟩
    next => exact onWord.saveWithError located isOpen rfl
  next => exact located.saveLeaf escapes.isOpen (onWord.readAs rfl) rfl

end SqlLayout.Reading
