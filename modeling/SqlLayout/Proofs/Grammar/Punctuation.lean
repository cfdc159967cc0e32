import SqlLayout.Grammar.Punctuation
import SqlLayout.Proofs.Grammar.Rule

/-!
# Parentheses, colons, commas, blanks and comments complete
-/

namespace SqlLayout

theorem Token.readAs (token : Token) (notWord : token.kind ≠ .word) (notColon : token.kind ≠ .colon)
    (plain : token.isPlain = true) (id : NodeId) :
    Outline.ReadAs [.leaf id token.kind.leafKind token.value] [token] :=
  .leaf id (TokenKind.isLeaf_leafKind _) (List.forall_mem_singleton.mpr plain)
    fun _ => by rw [Token.leafKind_symbols notWord notColon plain, Token.symbolsOf_singleton]

namespace Draft

variable {draft : Draft}

/-- A container whose last content is a closed group, or ends in one, is followed by anything. -/
theorem firm_up (sound : draft.Sound) (enclosed : draft.outer ≠ [])
    (notCondition : draft.kind ≠ .booleanExpression) (firm : draft.closed.exposed = false) :
    draft.up.closed.exposed = false := by
  obtain ⟨frame, outer, around⟩ := List.exists_cons_of_ne_nil enclosed
  rw [up_eq around, sound.after_eq_nil around notCondition]
  exact Outline.exposed_of_last sound.content firm

theorem slip_kind (draft : Draft) (outline : Outline) : (draft.slip outline).kind = draft.kind := by
  rw [slip]
  split <;> rfl

theorem settled_slip (empty : draft.children = []) (enclosed : draft.outer ≠ []) {outline : Outline}
    (firm : outline.exposed = false) : (draft.slip outline).Settled := by
  obtain ⟨frame, outer, around⟩ := List.exists_cons_of_ne_nil enclosed
  simp only [slip, around]
  refine ⟨by simp [empty], fun _ _ first isFirst last isLast => ?_⟩
  simp only [List.head?_cons, Option.mem_def, Option.some.injEq] at isFirst
  subst isFirst
  simp only [List.getLast?_append, List.getLast?_singleton, Option.some_or, Option.mem_def,
    Option.some.injEq] at isLast
  exact isLast ▸ firm

theorem flagged_mark (rooted : draft.outline.id = Tree.root) : draft.mark.Flagged := by
  have flags : ∀ other : Draft, other.outline.id = Tree.root →
      (other.setAttribute Tree.root .errorFound "1").Flagged := by
    intro other rooted
    have outermost := other.outline_id
    rw [rooted, pathIds] at outermost
    obtain ⟨id, kind, attributes, children, outer⟩ := other
    cases outer using List.reverseRecOn with
    | nil =>
      have isRoot : id = Tree.root := by simpa using outermost.symm
      refine ⟨attributes.set .errorFound "1", ?_, by simp⟩
      simp [setAttribute, Frame.setAttributes, isRoot]
    | append_singleton front last _ =>
      have isRoot : last.id = Tree.root := by simpa [List.getLast?_cons] using outermost.symm
      refine ⟨last.attributes.set .errorFound "1", ?_, by simp⟩
      simp [setAttribute, Frame.setAttributes, isRoot, List.getLast?_cons]
  refine flags _ (rooted_of_pathIds rooted ?_)
  simp

end Draft

namespace Reading

variable {reading : Reading} {builder : Builder} {tokens : List Token} {draft : Draft}

theorem openGroup (located : builder.At tokens draft) (isOpen : draft.IsOpen) {token : Token}
    (isOpening : token.kind = .openParens) {kind : NodeKind} (group : kind.isParens = true) :
    Reaches (tokens ++ [token]) (builder.enter kind) Draft.AtRest := by
  have facts : kind.parents = NodeKind.holders ∧ kind ∈ NodeKind.holders ∧ kind ≠ .clause := by
    revert group
    cases kind <;> decide
  obtain ⟨anywhere, holder, notClause⟩ := facts
  obtain ⟨moved, id, isOk, stands⟩ := located.stands.enter kind
  have built := located.built.openGroup id isOpening group (anywhere ▸ isOpen) (isOpen.accepts kind)
  exact ⟨moved, _, isOk, ⟨stands, built⟩, holder,
    Draft.settled_enter fun isClause => absurd isClause notClause⟩

theorem openParens_reaches (located : builder.At tokens draft) (isOpen : draft.IsOpen)
    {token : Token} (isOpening : token.kind = .openParens) :
    Reaches (tokens ++ [token]) (openParens builder) Draft.AtRest := by
  have here : ∀ kind : NodeKind, kind.isParens = true →
      Reaches (tokens ++ [token]) (builder.enter kind) Draft.AtRest :=
    fun _ group => openGroup located isOpen isOpening group
  rw [openParens]
  split
  next => exact here _ rfl
  split
  next => exact here _ rfl
  split
  next => exact here _ rfl
  split
  next =>
    exact (located.considerClause isOpen).bind
      fun builder draft located isOpen => openGroup located isOpen isOpening rfl
  split
  next => exact here _ rfl
  split
  next => exact here _ rfl
  split
  next => exact here _ rfl
  next => exact here _ rfl

theorem leaveParens_reaches {more : List Token} {group : Draft} (built : Built more group.up)
    (stands : builder.Stands draft) {levels : Nat} (enough : levels ≤ draft.outer.length)
    (isGroup : group.kind.isParens = true) (sound : group.Sound)
    (up : draft.ups levels = group.up) :
    Reaches more (leaveParens builder levels) Draft.AtRest := by
  have facts : ∀ kind : NodeKind, kind.isParens = true →
      kind.parents = NodeKind.holders ∧ kind ≠ .booleanExpression := by
    intro kind
    cases kind <;> decide
  obtain ⟨anywhere, notCondition⟩ := facts group.kind isGroup
  have enclosed := sound.enclosed_of_isParens isGroup
  have firm : group.closed.exposed = false := Outline.exposed_of_isParens isGroup
  have isOpen : group.up.IsOpen := by
    rw [Draft.IsOpen, ← anywhere]
    exact sound.kind_up enclosed
  obtain ⟨moved, isOk, stands⟩ := stands.moveUp enough
  rw [up] at stands
  rw [leaveParens, isOk, ok_bind]
  have located : moved.At more group.up := ⟨stands, built⟩
  split
  next inside =>
    obtain ⟨others, path, _⟩ := located.path_of_isIn [.containerContentBody] .cteAsBlock inside rfl
    obtain ⟨final, other, isOk, located, left⟩ := located.moveUpTo path (by decide)
    refine ⟨final, other, isOk, located, (left.escapes (by decide)).isOpen, ?_⟩
    have bodyEnclosed := isOpen.enclosed sound.up
    have blockPath := Draft.path_up bodyEnclosed
    rw [path] at blockPath
    have isBlock : group.up.up.kind = .cteAsBlock := Draft.kind_eq blockPath
    have blockEnclosed : group.up.up.outer ≠ [] := by
      intro none
      rw [Draft.path, none] at blockPath
      simp at blockPath
    have bodyFirm := Draft.firm_up sound enclosed notCondition firm
    have blockFirm :=
      Draft.firm_up sound.up bodyEnclosed (by rw [Draft.kind_eq path]; decide) bodyFirm
    rw [left.ups]
    exact Draft.settled_closed sound.up.up blockEnclosed (by rw [isBlock]; decide) blockFirm
  next => exact located.reaches ⟨isOpen, Draft.settled_closed sound enclosed notCondition firm⟩

/-- A group closes; a parenthesis that closes none is kept and marked. -/
theorem closeParens_reaches (located : builder.At tokens draft) (isOpen : draft.IsOpen)
    {token : Token} (isClosing : token.kind = .closeParens) :
    Reaches (tokens ++ [token]) (closeParens builder) Draft.AtRest := by
  refine (located.leaveStatementContainers isOpen).bind fun builder draft located escapes => ?_
  dsimp only
  have enclosed := escapes.isOpen.enclosed located.sound
  rw [located.stands.cursorKind_eq, located.stands.cursor, located.stands.shown.parent_up enclosed]
  simp only [located.stands.shown.up.kind_id]
  split
  next group =>
    exact leaveParens_reaches (located.built.closeGroup isClosing group) located.stands
      (List.length_pos_iff.mpr enclosed) group located.sound rfl
  split
  next inGroup =>
    simp only [Bool.and_eq_true, beq_iff_eq] at inGroup
    obtain ⟨isClause, isGroup⟩ := inGroup
    have left :=
      located.built.pass (.leave (Draft.leavable_of_isFree (by rw [isClause]; rfl)) enclosed)
    have groupOpen : draft.up.IsOpen := by
      have holders : ∀ kind : NodeKind, kind.isParens = true → kind ∈ NodeKind.holders := by
        intro kind
        cases kind <;> decide
      exact holders _ isGroup
    have more := List.length_pos_iff.mpr (groupOpen.enclosed left.sound)
    rw [Draft.outer_up enclosed, List.length_tail] at more
    exact leaveParens_reaches (left.closeGroup isClosing isGroup) located.stands (by omega) isGroup
      left.sound rfl
  next =>
    obtain ⟨id, stands⟩ := located.stands.saveLeafWithError .other ")"
    have flagged := Draft.flagged_mark located.stands.shown.rooted
    have built := located.built.mark.stray id isClosing flagged (escapes.isOpen.accepts _)
      escapes.isOpen.notStatement
    refine ⟨_, _, rfl, ⟨stands, built⟩, escapes.isOpen, ?_⟩
    exact (Draft.settled_add draft (Outline.exposed_leaf ..)).mark

/-- Colons resolve a scope, make a host variable, or are marked. -/
theorem colon_completes (located : builder.At tokens draft) (isOpen : draft.IsOpen)
    (isColon : reading.token.kind = .colon) :
    Completes tokens reading.source (.ok (reading.colon builder)) := by
  have plain : reading.token.isPlain = true := by rw [Token.isPlain, isColon]; rfl
  have spelled : reading.token.Faithful → reading.token.symbols = [.token .colon ":"] := by
    intro faithful
    rw [Token.Faithful, isColon] at faithful
    simp [Token.symbols, isColon, faithful, TokenKind.isTrivia, TokenKind.isComment]
  have stray : Completes tokens reading.source (.ok (builder.saveLeafWithError .other ":", 0)) := by
    refine (located.saveLeafWithError isOpen (fun id => ?_) rfl).done
    refine .leaf id rfl (by simpa using plain) fun faithful => ?_
    rw [Token.symbolsOf_singleton, spelled (faithful _ (by simp))]
    rfl
  rw [Reading.colon]
  split
  next next after rest =>
    have source : reading.source.take 2 = [reading.token, next] := by rw [Reading.source, rest]; rfl
    split
    next isSecond =>
      have read : ∀ id,
          Outline.ReadAs [.leaf id .scopeResolutionOperator "::"] [reading.token, next] := by
        refine fun id =>
          .leaf id rfl (by simpa [Token.isPlain, isSecond] using plain) fun faithful => ?_
        have second := faithful next (by simp)
        rw [Token.Faithful, isSecond] at second
        rw [← List.singleton_append, Token.symbolsOf_append, Token.symbolsOf_singleton,
          Token.symbolsOf_singleton, spelled (faithful _ (by simp))]
        simp [Token.symbols, isSecond, second, TokenKind.isTrivia, TokenKind.isComment,
          NodeKind.symbols, NodeKind.isTrivia, NodeKind.isComment, NodeKind.isParens,
          NodeKind.tokens, Symbol.ofScope]
      obtain ⟨saved, other, isOk, located, atRest⟩ := located.saveLeaf isOpen read rfl
      exact ⟨saved, 1, other, by rw [Except.ok.inj isOk], source ▸ located, atRest⟩
    split
    next isName =>
      have read : ∀ id,
          Outline.ReadAs [.leaf id .other (":" ++ next.value)] [reading.token, next] := by
        refine fun id =>
          .leaf id rfl (by simpa [Token.isPlain, isName] using plain) fun faithful => ?_
        have notParens : ":" ++ next.value ≠ ")" := by
          intro same
          have chars := congrArg String.toList same
          simp at chars
        have named : next.value ≠ "" := by
          have name := faithful next (by simp)
          rw [Token.Faithful, isName] at name
          exact name.1
        rw [← List.singleton_append, Token.symbolsOf_append, Token.symbolsOf_singleton,
          Token.symbolsOf_singleton, spelled (faithful _ (by simp))]
        simp [Token.symbols, isName, notParens, TokenKind.isTrivia, TokenKind.isComment,
          NodeKind.symbols, NodeKind.isTrivia, NodeKind.isComment, NodeKind.isParens,
          NodeKind.tokens, Symbol.ofName_append named]
      obtain ⟨saved, other, isOk, located, atRest⟩ := located.saveLeaf isOpen read rfl
      exact ⟨saved, 1, other, by rw [Except.ok.inj isOk], source ▸ located, atRest⟩
    next => exact stray
  next => exact stray

theorem comma_reaches (located : builder.At tokens draft) (isOpen : draft.IsOpen)
    (isComma : reading.token.kind = .comma) :
    Reaches (tokens ++ [reading.token]) (reading.comma builder) Draft.AtRest := by
  have read := Token.readAs reading.token (by simp [isComma]) (by simp [isComma])
    (by simp [Token.isPlain, isComma])
  rw [isComma] at read
  obtain ⟨saved, other, isOk, located, atRest⟩ := located.saveLeaf isOpen read rfl
  rw [Reading.comma, show builder.saveLeaf .comma reading.value = _ from Except.ok.inj isOk]
  split
  next inside =>
    obtain ⟨others, path⟩ := (located.isIn_iff (by simp)).mp inside
    have isBody := Draft.kind_eq path
    exact located.enterHolder rfl (isBody ▸ by decide)
      (atRest.isOpen.accepts _) (by decide) (by decide)
      (by decide)
  next => exact located.reaches atRest

theorem equalsSign_reaches (located : builder.At tokens draft) (isOpen : draft.IsOpen)
    (isEquals : reading.token.kind = .equalsSign) :
    Reaches (tokens ++ [reading.token]) (reading.equalsSign builder) Draft.AtRest := by
  have read := Token.readAs reading.token (by simp [isEquals]) (by simp [isEquals])
    (by simp [Token.isPlain, isEquals])
  rw [isEquals] at read
  obtain ⟨saved, other, isOk, located, atRest⟩ := located.saveLeaf isOpen read rfl
  rw [Reading.equalsSign, show builder.saveLeaf .equalsSign reading.value = _ from
    Except.ok.inj isOk]
  split
  next inside =>
    have isDeclaration := (located.isIn_kind _).mp inside
    exact located.enterHolder rfl (isDeclaration ▸ by decide) (atRest.isOpen.accepts _) (by decide)
      (by decide) (by decide)
  next => exact located.reaches atRest

/-- A blank or a comment goes into the container in hand, or before it if it is an empty clause. -/
theorem trivia_reaches (located : builder.At tokens draft) (atRest : draft.AtRest)
    (isTrivia : reading.token.kind.isTrivia = true) :
    Reaches (tokens ++ [reading.token]) (reading.trivia builder) Draft.AtRest := by
  rw [Reading.trivia]
  split
  next outside =>
    simp only [Bool.and_eq_true] at outside
    obtain ⟨others, path⟩ := (located.isIn_iff (by simp)).mp outside.1
    have empty : draft.children = [] := by
      simpa [Builder.isEmpty, located.stands.cursor, located.stands.shown.children_id] using
        outside.2
    have enclosed := atRest.isOpen.enclosed located.sound
    obtain ⟨grown, id, isOk, stands⟩ := located.stands.saveLeafBefore enclosed
      reading.token.kind.leafKind reading.value
    have built := located.built.slip id isTrivia atRest.settled ⟨others, path.symm⟩ empty
    refine ⟨grown, _, isOk, ⟨stands, built⟩, ?_, Draft.settled_slip empty enclosed (by simp)⟩
    rw [Draft.IsOpen, Draft.slip_kind]
    exact atRest.isOpen
  next =>
    obtain ⟨id, stands⟩ := located.stands.saveLeaf reading.token.kind.leafKind reading.value
    have built := located.built.trivia id isTrivia atRest.settled (atRest.isOpen.accepts _)
    exact ⟨_, _, rfl, ⟨stands, built⟩, atRest.isOpen, Draft.settled_add _ (Outline.exposed_leaf ..)⟩

end Reading

end SqlLayout
