import SqlLayout.Proofs.Grammar.Document
import SqlLayout.Proofs.Likeness.Rules
import SqlLayout.Proofs.Token.Smooth

/-!
# Documents of alike tokens

The tokens of two lists are taken one after the other. As long as they are alike, the trees stay
alike, and in the end they differ in texts only.
-/

namespace SqlLayout

namespace Reading

variable {likeness : Likeness} {reading twin : Reading} {builder other : Builder}

/-! ### Parentheses, colons and commas -/

section Punctuation

variable (alike : builder.Alike likeness other)
include alike

theorem followsCompoundType_eq : followsCompoundType builder = followsCompoundType other := by
  have named (builder : Builder) : followsCompoundType builder =
      builder.lastContent?.any fun last => builder.tree.kind last == .compoundKeyword &&
        ((builder.tree.attributeOf last .simpleText).map Keyword.endsInDataType).getD false := by
    rw [followsCompoundType]
    cases builder.lastContent? with
    | none => rfl
    | some last =>
      dsimp only [Option.any_some]
      cases builder.tree.attributeOf last .simpleText <;> rfl
  simp only [named, alike.lastContent?, alike.tree.kind, (alike.tree.names _).type]

theorem isInListClause_eq : isInListClause builder = isInListClause other := by
  have keyword (builder : Builder) : isInListClause builder =
      (builder.isIn [.clause] && (builder.firstContent?.bind builder.tree.keywordText?).any
        ["OPTION", "INSERT", "INSERT INTO", "VALUES"].contains) := by
    rw [isInListClause]
    cases builder.firstContent?.bind builder.tree.keywordText? <;> rfl
  rw [keyword, keyword, alike.isIn, ← alike.firstContent?,
    (SaysAlike.bind builder.firstContent? alike.tree.keywordText?).any (by decide)]

theorem followsIn_eq : followsIn builder = followsIn other := by
  rw [followsIn, followsIn, ← alike.lastContent?]
  split
  · rfl
  next last _ =>
    rw [← alike.tree.kind]
    by_cases isOperator : builder.tree.kind last = .alphaOperator
    · rw [(alike.tree.reads last).letters (.inr isOperator)]
    · simp [beq_false_of_ne isOperator]

theorem openParens_agree :
    Agree (Builder.Alike likeness) (openParens builder) (openParens other) := by
  unfold openParens
  refine .ite ?_ (alike.enter rfl)
    (.ite (alike.isIn _) (alike.enter rfl) (.ite ?_ (alike.enter rfl) ?_))
  · rw [alike.cursorKind, isInListClause_eq alike]
  · rw [alike.cursorKind, alike.hasContent]
  refine .ite (alike.lastContentIs _) (alike.considerClause.bind fun _ _ alike =>
    alike.enter rfl) ?_
  refine .ite ?_ (alike.enter rfl) (.ite (followsIn_eq alike) (alike.enter rfl) ?_)
  · rw [alike.lastContentIs, followsCompoundType_eq alike]
  · exact .ite (by simp only [alike.lastContentIs]) (alike.enter rfl) (alike.enter rfl)

theorem leaveParens_agree (levels : Nat) :
    Agree (Builder.Alike likeness) (leaveParens builder levels) (leaveParens other levels) :=
  (alike.moveUp levels).bind fun _ _ alike => .ite (alike.isIn _) (alike.moveUpTo 2 _) (.ok alike)

theorem closeParens_agree :
    Agree (Builder.Alike likeness) (closeParens builder) (closeParens other) := by
  refine alike.leaveStatementContainers.bind fun _ _ alike => ?_
  refine .ite (by rw [alike.cursorKind]) (leaveParens_agree alike 1)
    (.ite ?_ (leaveParens_agree alike 2) ?_)
  · simp only [alike.cursorKind, alike.tree.parent, alike.cursor, alike.tree.kind]
  · exact .ok (alike.saveLeafWithError (.refl ..))

end Punctuation

namespace Alike

variable (same : reading.Alike likeness twin) (alike : builder.Alike likeness other)
include same alike

theorem colon : Step.Alike likeness (reading.colon builder) (twin.colon other) := by
  obtain ⟨previous, token, rest, phrase⟩ := reading
  obtain ⟨previous', token', rest', phrase'⟩ := twin
  have stray : Step.Alike likeness (builder.saveLeafWithError .other ":", 0)
      (other.saveLeafWithError .other ":", 0) :=
    ⟨alike.saveLeafWithError (.refl ..), rfl⟩
  have rest := same.rest
  rw [Reading.colon, Reading.colon]
  dsimp only at rest ⊢
  cases rest with
  | nil => exact stray
  | @cons next next' _ _ first _ =>
    dsimp only
    rw [← first.kind]
    split
    · exact ⟨alike.saveLeaf (.refl ..), rfl⟩
    · split
      next isWord =>
        refine ⟨alike.saveLeaf (NodeKind.reads_of_eq (by decide) fun isStrict => ?_), rfl⟩
        rw [first.exact isStrict (by simp [isWord])]
      · exact stray

theorem comma (isComma : reading.token.kind = .comma) :
    Agree (Builder.Alike likeness) (reading.comma builder) (twin.comma other) := by
  have reads := same.token.reads_leaf
  rw [isComma] at reads
  have saved := alike.saveLeaf reads
  exact .ite (saved.isIn _) (saved.enter rfl) (.ok saved)

theorem equalsSign (isEquals : reading.token.kind = .equalsSign) :
    Agree (Builder.Alike likeness) (reading.equalsSign builder) (twin.equalsSign other) := by
  have reads := same.token.reads_leaf
  rw [isEquals] at reads
  have saved := alike.saveLeaf reads
  exact .ite (saved.isIn _) (saved.enter rfl) (.ok saved)

theorem trivia : Agree (Builder.Alike likeness) (reading.trivia builder) (twin.trivia other) := by
  unfold Reading.trivia
  rw [← same.token.kind, ← alike.cursor]
  refine .ite (by rw [alike.isIn, alike.isEmpty]) ?_ (.ok (alike.saveLeaf same.token.reads_leaf))
  exact alike.saveLeafBefore same.token.reads_leaf _

omit alike in
theorem isLabel : reading.isLabel = twin.isLabel := by
  obtain ⟨previous, token, rest, phrase⟩ := reading
  obtain ⟨previous', token', rest', phrase'⟩ := twin
  have rest := same.rest
  rw [Reading.isLabel, Reading.isLabel]
  dsimp only at rest ⊢
  cases rest with
  | nil => rfl
  | cons next after =>
    cases after with
    | nil => simp only [next.kind]
    | cons second _ => simp only [next.kind, second.kind]

end Alike

/-! ### Words -/

namespace AlikeWord

variable (same : reading.AlikeWord likeness twin) (alike : builder.Alike likeness other)
include same alike

theorem label : Agree (Step.Alike likeness) (reading.label builder) (twin.label other) := by
  refine alike.considerStatement.bind fun _ _ alike => ?_
  refine .ok ⟨alike.saveLeaf (NodeKind.reads_of_eq (by decide) fun isStrict => ?_), rfl⟩
  rw [Reading.value, same.token.exact isStrict (by simp [same.isWord])]
  rfl

theorem otherWord :
    Agree (Step.Alike likeness) (reading.otherWord builder) (twin.otherWord other) := by
  have isOrder : reading.phrase.startsWith ["ORDER", "BY"] =
      twin.phrase.startsWith ["ORDER", "BY"] :=
    same.phrases.startsWith (by decide)
  have isGroup : reading.phrase.startsWith ["GROUP", "BY"] =
      twin.phrase.startsWith ["GROUP", "BY"] :=
    same.phrases.startsWith (by decide)
  unfold Reading.otherWord
  dsimp only
  rw [← same.word, ← isAfterCte alike, ← same.phrases.compoundLength?, ← isOrder, ← isGroup]
  refine .iteBind (by rw [alike.statementDue]) alike.considerStatement (.ok alike)
    fun _ _ alike => ?_
  refine .iteBind (by rw [alike.isIn]) alike.considerClause (.ok alike) fun _ _ alike => ?_
  split
  · exact .ok ⟨same.saveTyped alike, rfl⟩
  next count found =>
    refine .iteBind (by rw [alike.isIn]) alike.considerClause (.ok alike) fun _ _ alike => ?_
    obtain ⟨filled, _, used, keyword, keyword', saved, _⟩ :=
      same.saveKeyword alike alike.hollow fun _ => Phrase.exact_of_compoundLength? found
    rw [← alike.cursor, keyword, keyword']
    exact .ok ⟨saved, rfl⟩

theorem keywordRule :
    Agree (Step.Alike likeness) (reading.keywordRule builder) (twin.keywordRule other) := by
  have opens {kind body : NodeKind} (container : kind.isLeaf = false)
      (holder : body.isLeaf = false) :=
    (same.enter alike container holder).done
  have defines {kind : NodeKind} (container : kind.isLeaf = false) :=
    (same.definition alike container).done
  have rest := same.otherWord alike
  rw [Reading.keywordRule, Reading.keywordRule, ← same.word]
  split
  · exact opens rfl rfl
  · exact (same.when_ alike).done
  · exact (same.then_ alike).done
  · exact (same.else_ alike).done
  · exact same.end_ alike
  next isBegin => exact same.begin_ alike isBegin
  · exact same.transaction alike rfl
  · exact same.transaction alike rfl
  · exact .ite (by rw [same.phrases.compoundLength?]) (same.transaction alike rfl) rest
  · exact (same.batchSeparator alike).done
  · exact (same.conditional alike rfl).done
  · exact (same.conditional alike rfl).done
  · exact defines rfl
  · exact defines rfl
  · exact defines rfl
  · exact (same.permissions alike).done
  · exact (same.permissions alike).done
  · exact (same.permissions alike).done
  · exact .ite (alike.isIn _) (same.permissionsRecipient alike).done rest
  · exact .ite (alike.isIn _) (same.permissionsRecipient alike).done (same.from_ alike).done
  · exact (same.cascade alike).done
  · exact .ite (alike.isIn _) (.ok ⟨same.returns alike, rfl⟩) rest
  · exact (same.as_ alike).done
  · exact (same.for_ alike).done
  · exact (same.with_ alike).done
  · exact (same.on_ alike).done
  · exact .ite (alike.isIn _) (same.mergeUsing alike).done rest
  · exact (same.merge alike).done
  · exact (same.select alike).done
  · exact (same.update alike).done
  · exact (same.set alike).done
  next isExec => exact same.execute alike (isExec ▸ by decide)
  next isExecute => exact same.execute alike (isExecute ▸ by decide)
  · exact opens rfl rfl
  · exact (same.and_ alike).done
  · exact (same.logicalOperator alike rfl).done
  · exact same.setOperator alike
  · exact same.setOperator alike
  · exact same.setOperator alike
  · exact rest

theorem takeWord :
    Agree (Step.Alike likeness) (reading.takeWord builder) (twin.takeWord other) := by
  have trigger : reading.triggerWords? builder = twin.triggerWords? other := by
    rw [Reading.triggerWords?, Reading.triggerWords?, isInProcedureHead alike,
      same.phrases.triggerLength?]
  unfold Reading.takeWord
  rw [← trigger, ← same.phrases.joinLength?]
  refine .ite (alike.isIn _) (same.permissionsDetail alike).done ?_
  refine .ite same.isLabel (same.label alike) ?_
  refine .ite same.phrases.isProceduralDefinition (same.definition alike rfl).done ?_
  refine .ite same.phrases.declaresCursor (same.definition alike rfl).done ?_
  split
  next words found =>
    rw [Reading.triggerWords?] at found
    split at found
    · exact same.triggerCondition alike found
    · cases found
  · split
    next words found => exact same.join alike found
    · exact same.keywordRule alike

end AlikeWord

/-- The rule for the token in hand does the same to alike documents. -/
theorem Alike.take (same : reading.Alike likeness twin) (alike : builder.Alike likeness other) :
    Agree (Step.Alike likeness) (reading.take builder) (twin.take other) := by
  rw [Reading.take, Reading.take, ← same.token.kind]
  split
  · exact (openParens_agree alike).done
  · exact (closeParens_agree alike).done
  next isWord => exact AlikeWord.takeWord ⟨same, isWord⟩ alike
  next isSemicolon =>
    have reads := same.token.reads_leaf
    rw [isSemicolon] at reads
    exact .ok ⟨(alike.saveLeaf reads).setStatementDue, rfl⟩
  · exact .ok (same.colon alike)
  next isComma => exact (same.comma alike isComma).done
  next isEquals => exact (same.equalsSign alike isEquals).done
  · exact .ite rfl (same.trivia alike).done (.ok ⟨alike.saveLeaf same.token.reads_leaf, rfl⟩)

end Reading

namespace Builder

variable {likeness : Likeness}

/-- Alike tokens are read into alike documents. -/
theorem Alike.readAll {tokens others : List Token}
    (same : List.Forall₂ (Token.Alike likeness) tokens others) {builder other : Builder}
    (alike : builder.Alike likeness other) {previous before : Option Token}
    (behind : Option.Rel (Token.Alike likeness) previous before) :
    Agree (Alike likeness) (builder.readAll previous tokens) (other.readAll before others) := by
  -- By the number of tokens, since a rule may use several.
  induction length : tokens.length using Nat.strong_induction_on
    generalizing tokens others builder other previous before with
  | _ length ih =>
    subst length
    cases same with
    | nil =>
      rw [Builder.readAll, Builder.readAll]
      exact .ok alike
    | @cons token twin rest behindTwin first later =>
      have taken : Agree (Step.Alike likeness)
          (Reading.take { previous, token, rest, phrase := .ofTokens (token :: rest) } builder)
          (Reading.take { previous := before, token := twin, rest := behindTwin
                          phrase := .ofTokens (twin :: behindTwin) } other) :=
        Reading.Alike.take ⟨behind, first, later, rfl, rfl⟩ alike
      rw [Builder.readAll, Builder.readAll]
      rcases taken.inversion with
        ⟨error, here, there⟩ | ⟨⟨grown, used⟩, ⟨saved, _⟩, here, there, alike, rfl⟩
      · rw [here, there]
        exact .error error
      · rw [here, there]
        refine ih _ ?_ (List.forall₂_drop used later) alike ?_ rfl
        · rw [List.length_drop, List.length_cons]
          omega
        · rcases getElem?_of_forall₂ (.cons first later) used with
            ⟨here, there⟩ | ⟨_, _, here, there, same⟩
          · rw [here, there]
            exact behind
          · rw [here, there]
            exact .some same

theorem Alike.finish {builder other : Builder} (alike : builder.Alike likeness other)
    (unfinished : Bool) :
    Agree (Tree.Alike likeness) (builder.finish unfinished) (other.finish unfinished) := by
  have marked : (if unfinished then builder.markError else builder).Alike likeness
      (if unfinished then other.markError else other) := by
    cases unfinished with
    | false => exact alike
    | true => exact alike.markError
  refine marked.findBatchEnd.bind ?_
  rintro ⟨builder, valid⟩ ⟨other, _⟩ ⟨alike, rfl⟩
  cases valid with
  | false => exact .ok alike.markError.tree
  | true => exact .ok alike.tree

theorem alike_start (likeness : Likeness) : start.Alike likeness start := by
  have bare (id : NodeId) : Tree.empty.node id = { kind := .root, text := "" } := by
    cases id <;> rfl
  have empty : Tree.empty.Alike likeness Tree.empty := by
    refine ⟨rfl, fun id => .refl .., fun id => .refl .., fun isParent => ?_, fun some => ?_,
      ⟨by decide, by decide⟩⟩
    · rw [Tree.parent, bare] at isParent
      cases isParent
    · rw [Tree.children, bare] at some
      exact absurd rfl some
  have beginning : Alike likeness { tree := .empty, cursor := Tree.root, statementDue := false }
      { tree := .empty, cursor := Tree.root, statementDue := false } :=
    ⟨empty, rfl, rfl, empty.root⟩
  exact beginning.startStatementIn empty.root

end Builder

theorem Tree.ofTokens_alike {likeness : Likeness} {list other : TokenList}
    (same : List.Forall₂ (Token.Alike likeness) list.tokens other.tokens)
    (unfinished : list.unfinished = other.unfinished) :
    ∃ tree twin, Tree.ofTokens list = .ok tree ∧ Tree.ofTokens other = .ok twin ∧
      tree.Alike likeness twin := by
  obtain ⟨tree, _, isOk, _⟩ := Tree.ofTokens_shows list
  have agree : Agree (Tree.Alike likeness) (Tree.ofTokens list) (Tree.ofTokens other) := by
    rw [Tree.ofTokens, Tree.ofTokens, ← unfinished]
    exact ((Builder.alike_start likeness).readAll same .none).bind fun _ _ alike => alike.finish _
  rcases agree.inversion with ⟨error, failed, _⟩ | both
  · rw [isOk] at failed
    cases failed
  · exact both

/-! ### Structural content -/

def Node.skeleton (node : Node) : Node :=
  { node with text := "" }

/-- A tree without the texts of its nodes. -/
def Tree.skeleton (tree : Tree) : Tree :=
  { nodes := tree.nodes.map Node.skeleton }

section Attributes

variable {likeness : Likeness} {tree other : Tree} (alike : tree.Alike likeness other)
  (unbroken : likeness.unbroken)
include alike unbroken

/-- Where no blank lies inside a word, the nodes of alike trees have the same attributes. -/
theorem Tree.Alike.attributes (id : NodeId) :
    (tree.node id).attributes = (other.node id).attributes := by
  have silent : (tree.node id).attributes.silent = (other.node id).attributes.silent := by
    have same := congrArg (fun tree : Tree => (tree.node id).attributes) alike.bones
    simpa only [node_bones, Node.bones] using same
  have name : (tree.node id).attributes.simpleText = (other.node id).attributes.simpleText :=
    (alike.names id).equal unbroken
  revert silent name
  cases (tree.node id).attributes
  cases (other.node id).attributes
  simp +contextual [Attributes.silent]

/-- Where no blank lies inside a word, alike trees differ in the texts of their nodes only. -/
theorem Tree.Alike.skeleton : tree.skeleton = other.skeleton := by
  have same (id : NodeId) : (tree.node id).skeleton = (other.node id).skeleton := by
    have kind := alike.kind id
    have attributes := alike.attributes unbroken id
    have parent := alike.parent id
    have children := alike.children id
    rw [Tree.kind, Tree.kind] at kind
    rw [Tree.parent, Tree.parent] at parent
    rw [Tree.children, Tree.children] at children
    rw [Node.skeleton, Node.skeleton, kind, attributes, parent, children]
  refine congrArg Tree.mk
    (Array.ext (by simpa [Tree.size] using alike.size) fun place here there => ?_)
  rw [Array.getElem_map, Array.getElem_map]
  rw [Array.size_map] at here there
  rw [← Tree.node_eq (Array.getElem?_eq_getElem here),
    ← Tree.node_eq (Array.getElem?_eq_getElem there)]
  exact same place

end Attributes

/-- Two tokens with the same structural content: they are of one kind, words are the same in upper
case, and blanks and block comments agree in holding a line break. -/
structure Token.Similar (token other : Token) : Prop where
  kind : token.kind = other.kind
  letters : token.kind = .word → Text.upper token.value = Text.upper other.value
  breaks : token.kind = .whiteSpace ∨ token.kind = .blockComment →
    containsLineBreak token.value = containsLineBreak other.value

/-- Two token lists with the same structural content. -/
structure TokenList.Similar (list other : TokenList) : Prop where
  tokens : List.Forall₂ Token.Similar list.tokens other.tokens
  unfinished : list.unfinished = other.unfinished

/-- The tree of a token list depends on its structural content only: nodes, kinds, parents, children
and attributes, the texts of keywords of several words excepted. Where no blank lies inside a word
these are the same as well. -/
theorem Tree.ofTokens_similar {list other : TokenList} (similar : list.Similar other) :
    ∃ tree twin, Tree.ofTokens list = .ok tree ∧ Tree.ofTokens other = .ok twin ∧
      tree.bones = twin.bones ∧
      ((∀ token ∈ list.tokens, token.kind = .word → ' ' ∉ token.value.toList) →
        tree.skeleton = twin.skeleton) := by
  let likeness : Likeness :=
    { exact := False
      unbroken := ∀ token ∈ list.tokens, token.kind = .word → ' ' ∉ token.value.toList }
  have spaceless : ∀ token ∈ list.tokens, likeness.unbroken → token.kind = .word →
      ' ' ∉ (Text.upper token.value).toList :=
    fun token member unbroken isWord => Text.notMem_upper (by decide) (unbroken token member isWord)
  have alike : List.Forall₂ (Token.Alike likeness) list.tokens other.tokens :=
    ((List.forall₂_and_left _ _).mpr ⟨spaceless, similar.tokens⟩).imp fun _ _ both =>
      ⟨both.2.kind, both.2.letters, both.2.breaks, False.elim, both.1⟩
  obtain ⟨tree, twin, isTree, isTwin, alike⟩ := Tree.ofTokens_alike alike similar.unfinished
  exact ⟨tree, twin, isTree, isTwin, alike.bones, fun unbroken => alike.skeleton unbroken⟩

def TokenList.wordAndName (word name : String) : TokenList where
  tokens := [⟨.word, word, ⟨0, 0⟩⟩, ⟨.bracketName, name, ⟨0, 0⟩⟩]
  unfinished := false

theorem TokenList.wordAndName_similar {word other : String}
    (letters : Text.upper word = Text.upper other)
    (name third : String) : (wordAndName word name).Similar (wordAndName other third) where
  tokens := .cons ⟨rfl, fun _ => letters, by simp⟩ (.cons ⟨rfl, by simp, by simp⟩ .nil)
  unfinished := rfl

theorem Tree.ofTokens_similar_join :
    (TokenList.wordAndName "join" "a").Similar (.wordAndName "Join" "b c") ∧
      ∃ tree twin, Tree.ofTokens (.wordAndName "join" "a") = .ok tree ∧
        Tree.ofTokens (.wordAndName "Join" "b c") = .ok twin ∧ tree.bones = twin.bones ∧
        tree.skeleton = twin.skeleton := by
  have letters : Text.upper "join" = Text.upper "Join" := by decide +kernel
  have similar := TokenList.wordAndName_similar letters "a" "b c"
  obtain ⟨tree, twin, isTree, isTwin, bones, skeleton⟩ := Tree.ofTokens_similar similar
  exact ⟨similar, tree, twin, isTree, isTwin, bones, skeleton (by decide)⟩

/-- A word with a blank counts as two words of a join, so that the text of the keyword takes in the
name behind it. -/
theorem Tree.ofTokens_differ : ¬ ∀ list other : TokenList, list.Similar other →
    (Tree.ofTokens list).map Tree.skeleton = (Tree.ofTokens other).map Tree.skeleton := by
  intro same
  have equal := same _ _ (TokenList.wordAndName_similar (rfl : Text.upper "LEFT JOIN" = _) "a" "b")
  exact absurd equal (by decide +kernel)

end SqlLayout
