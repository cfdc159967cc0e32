import SqlLayout.Grammar.Queries
import SqlLayout.Proofs.Grammar.Rule

/-!
# Queries, changes of data and expressions complete
-/

namespace SqlLayout.Reading

variable {reading : Reading} {builder : Builder} {tokens : List Token} {draft : Draft}

theorem considerStatementUnlessCte_reaches (located : builder.At tokens draft)
    (isOpen : draft.IsOpen) :
    Reaches tokens (considerStatementUnlessCte builder) Draft.IsOpen := by
  rw [considerStatementUnlessCte]
  split
  next => exact located.reaches isOpen
  next => exact located.considerStatement isOpen

theorem OnWord.join (onWord : reading.OnWord) (located : builder.At tokens draft)
    (isOpen : draft.IsOpen) {words : Nat} (found : reading.phrase.joinLength? = some words) :
    Completes tokens reading.source (reading.join builder words) := by
  refine (located.leaveBetween isOpen).thenStep fun builder _ located escapes => ?_
  refine (located.leaveSelectionTarget escapes.isOpen).thenStep fun builder _ located escapes => ?_
  refine (located.leaveJoinCondition escapes.isOpen).thenStep fun builder draft located escapes =>
    ?_
  obtain ⟨first, target, savedTarget, sees⟩ := located.stands.sees.openIn .joinTarget
  obtain ⟨second, opening, savedOpening, sees⟩ := sees.openIn .containerOpen
  have onward : ∀ grown used keyword, Builder.Sees grown
      (((draft.enter target .joinTarget).enter opening .containerOpen).add keyword) draft.id →
      IsKeyword keyword (reading.source.take (used + 1)) →
      Completes tokens reading.source (grown.moveTo target >>= fun builder =>
        .ok (builder, used)) := by
    intro grown used keyword sees isKeyword
    have beside : grown.Sees ((draft.enter target .joinTarget).add
        (.bracket opening .containerOpen keyword)) draft.id := sees.of_outline rfl
    obtain ⟨moved, isOk, stands⟩ := beside.moveTo
    have read := isKeyword.bracket opening (rfl : NodeKind.isTransparent .containerOpen = true)
    have opened := located.built.pass (.enter target (rfl : NodeKind.isParens .joinTarget = false)
      escapes.isOpen (escapes.isOpen.accepts _) nofun (absurd · (by decide)))
    have built := opened.add read rfl (Draft.accepts_of_unstaged rfl _) nofun
    refine ⟨moved, used, _, ?_,
      ⟨stands, built⟩, (by decide : NodeKind.joinTarget ∈ NodeKind.holders),
      Draft.settled_add _ (read.firm _ (by simp))⟩
    rw [show grown.moveTo target = _ from isOk, ok_bind]
  change first.saveIn target .containerOpen "" = _ at savedOpening
  simp only [Builder.save, located.stands.cursor, savedTarget, savedOpening]
  split
  next =>
    obtain ⟨grown, used, keyword, saved, sees, isKeyword, _⟩ :=
      onWord.saveKeyword sees fun _ => Phrase.exact_of_joinLength? found
    rw [show reading.saveKeyword second opening words = _ from saved]
    exact onward grown used keyword sees isKeyword
  next single =>
    have exact : (Phrase.ofTokens reading.source).Exact 1 := by
      obtain rfl : words = 1 := by
        rcases Option.map_eq_some_iff.mp found with ⟨_, _, isCount⟩
        omega
      exact onWord.phrase ▸ Phrase.exact_of_joinLength? found
    obtain ⟨third, compound, savedCompound, sees⟩ := sees.openIn .compoundKeyword
    obtain ⟨grown, word, saved, sees⟩ :=
      (sees.setAttribute .simpleText (reading.phrase.joined 1)).saveIn
      .otherKeyword reading.value
    change (third.setAttribute compound .simpleText (reading.phrase.joined 1)).saveIn compound
      .otherKeyword reading.value = _ at saved
    simp only [show second.saveIn opening .compoundKeyword "" = _ from savedCompound,
      Builder.saveLeafIn, saved]
    have first : (Phrase.ofTokens reading.source).lastPlace? 1 = some 0 := by
      simp [Phrase.ofTokens, Phrase.maxLength, source, Phrase.collect, Phrase.partOf, onWord.isWord,
        Phrase.lastPlace?]
    have part : reading.token.partKind = .otherKeyword := if_pos onWord.isWord
    have parts : [Outline.leaf word .otherKeyword reading.value].map Outline.part =
        (reading.source.take 1).map fun token => (token.partKind, token.value) := by
      simp [source, part]
      rfl
    have isKeyword := isKeyword_compound exact first (onWord.isKeyword word).read parts compound
    rw [← onWord.phrase] at isKeyword
    exact onward grown 0 _ (sees.of_outline rfl) isKeyword

theorem OnWord.from_ (onWord : reading.OnWord) (located : builder.At tokens draft)
    (isOpen : draft.IsOpen) :
    Reaches (tokens ++ [reading.token]) (reading.from_ builder) Draft.AtRest := by
  refine (located.considerClause isOpen).bind fun builder draft located isOpen => ?_
  obtain ⟨saved, other, isOk, located, atRest⟩ := onWord.saveWord located isOpen
  rw [Except.ok.inj isOk]
  exact located.enterHolder rfl atRest.isOpen
    (atRest.isOpen.accepts _) (by decide) (by decide) (by decide)

theorem OnWord.on_ (onWord : reading.OnWord) (located : builder.At tokens draft)
    (isOpen : draft.IsOpen) :
    Reaches (tokens ++ [reading.token]) (reading.on_ builder) Draft.AtRest := by
  have left := (located.leaveSelectionTarget isOpen).imp fun _ escapes => escapes.isOpen
  refine (located.optional isOpen left _).bind_ite fun builder draft located isOpen => ?_
  dsimp only
  split
  next inside =>
    obtain ⟨others, path, _⟩ := located.path_of_isIn [] .mergeUsing inside rfl
    exact onWord.enterPart located path rfl (by decide)
  split
  next =>
    exact (onWord.enterHere located isOpen rfl rfl).imp fun _ entered => entered.atRest (by decide)
  next => exact onWord.saveWord located isOpen

theorem OnWord.mergeUsing (onWord : reading.OnWord) (located : builder.At tokens draft)
    (inside : builder.isIn [.mergeTarget] = true) :
    Reaches (tokens ++ [reading.token]) (reading.mergeUsing builder) Draft.AtRest := by
  obtain ⟨others, path, _⟩ := located.path_of_isIn [] .mergeTarget inside rfl
  exact onWord.enterPart located path rfl (by decide)

theorem OnWord.merge (onWord : reading.OnWord) (located : builder.At tokens draft)
    (isOpen : draft.IsOpen) :
    Reaches (tokens ++ [reading.token]) (reading.merge builder) Draft.AtRest := by
  refine (considerStatementUnlessCte_reaches located isOpen).bind fun builder _ located isOpen => ?_
  refine (located.considerClause isOpen).bind fun builder draft located isOpen => ?_
  exact (onWord.enterHere located isOpen rfl rfl).imp fun _ entered => entered.atRest (by decide)

theorem OnWord.select (onWord : reading.OnWord) (located : builder.At tokens draft)
    (isOpen : draft.IsOpen) :
    Reaches (tokens ++ [reading.token]) (reading.select builder) Draft.AtRest := by
  rw [Reading.select]
  have begun : ∀ continues : Bool, Reaches tokens
      (if continues then .ok builder else builder.considerStatement) Draft.IsOpen := by
    intro continues
    split
    next => exact located.reaches isOpen
    next => exact located.considerStatement isOpen
  refine (begun _).bind_ite fun builder _ located isOpen => ?_
  exact (located.considerClause isOpen).bind
    fun builder draft located isOpen => onWord.saveWord located isOpen

theorem OnWord.update (onWord : reading.OnWord) (located : builder.At tokens draft)
    (isOpen : draft.IsOpen) :
    Reaches (tokens ++ [reading.token]) (reading.update builder) Draft.AtRest := by
  rw [Reading.update]
  split
  next => exact onWord.saveWord located isOpen
  refine (considerStatementUnlessCte_reaches located isOpen).bind fun builder _ located isOpen => ?_
  exact (located.considerClause isOpen).bind
    fun builder draft located isOpen => onWord.saveWord located isOpen

theorem OnWord.set (onWord : reading.OnWord) (located : builder.At tokens draft)
    (isOpen : draft.IsOpen) :
    Reaches (tokens ++ [reading.token]) (reading.set builder) Draft.AtRest := by
  rw [Reading.set]
  split
  next => exact onWord.saveWord located isOpen
  split
  next =>
    exact (located.considerClause isOpen).bind
      fun builder draft located isOpen => onWord.saveWord located isOpen
  next =>
    exact (located.considerStatement isOpen).bind
      fun builder draft located isOpen => onWord.saveWord located isOpen

theorem OnWord.execute (onWord : reading.OnWord) (located : builder.At tokens draft)
    (isOpen : draft.IsOpen) (plain : Keyword.isPlain reading.word = true) :
    Completes tokens reading.source (reading.execute builder) := by
  rw [Reading.execute]
  split
  next isAs =>
    have exact : 1 < 2 → reading.phrase.Exact 2 := by
      intro _
      refine Phrase.exact_of_word plain ?_
      rw [eq_of_beq isAs]
      decide
    dsimp only
    split
    next => exact onWord.completesKeyword located isOpen exact
    next =>
      refine (located.considerStatement isOpen).thenStep fun builder _ located isOpen => ?_
      exact (located.considerClause isOpen).thenStep
        fun builder draft located isOpen => onWord.completesKeyword located isOpen exact
  split
  next =>
    exact (located.considerClause isOpen).thenStep
      fun builder draft located isOpen => (onWord.saveWord located isOpen).done
  next =>
    exact (located.considerStatement isOpen).thenStep
      fun builder draft located isOpen => (onWord.saveWord located isOpen).done

theorem OnWord.logicalOperator (onWord : reading.OnWord) (located : builder.At tokens draft)
    (isOpen : draft.IsOpen) {kind : NodeKind} (isOperator : kind = .and ∨ kind = .or) :
    Reaches (tokens ++ [reading.token]) (reading.logicalOperator builder kind) Draft.AtRest := by
  refine (located.leaveBetween isOpen).bind fun builder draft located escapes => ?_
  obtain ⟨opened, operator, savedNode, sees⟩ := located.stands.sees.openIn kind
  obtain ⟨grown, word, saved, sees⟩ := sees.saveIn .otherKeyword reading.value
  have stands : grown.Stands (draft.add (.bracket operator kind
      (.leaf word .otherKeyword reading.value))) := ⟨sees.shown.of_outline rfl, sees.cursor⟩
  have read : Outline.ReadAs [.bracket operator kind (.leaf word .otherKeyword reading.value)]
      [reading.token] := by
    have keyword : Outline.ReadAs ([] ++ [Outline.leaf word .otherKeyword reading.value])
        [reading.token] :=
      onWord.readAs rfl word
    have facts : kind.isLeaf = false ∧ kind ≠ .compoundKeyword ∧ kind.stages = [] ∧
        kind.parents = [] ∧ kind.symbols "" ++ kind.ending = [] := by
      rcases isOperator with rfl | rfl <;> decide
    obtain ⟨notLeaf, notCompound, unstaged, inert, silent⟩ := facts
    refine keyword.node operator unstaged inert ⟨?_, ?_, fun _ => ⟨_, rfl, rfl⟩,
      .of_unstaged unstaged, ?_⟩
      silent rfl
    · exact fun isLeaf => absurd isLeaf (by simp [notLeaf])
    · exact fun isCompound => absurd isCompound notCompound
    · exact fun isCompound => absurd isCompound notCompound
  have content : kind.isTrivia = false := by rcases isOperator with rfl | rfl <;> rfl
  obtain ⟨grownAt, atRest⟩ := located.add escapes.isOpen stands read content
  rw [Draft.enter_id] at saved
  simp only [Builder.save, located.stands.cursor, savedNode, Builder.saveLeafIn, saved]
  exact grownAt.reaches atRest

theorem OnWord.and_ (onWord : reading.OnWord) (located : builder.At tokens draft)
    (isOpen : draft.IsOpen) :
    Reaches (tokens ++ [reading.token]) (reading.and_ builder) Draft.AtRest := by
  rw [Reading.and_]
  split
  next inside =>
    obtain ⟨others, path, _⟩ := located.path_of_isIn [] .lowerBound inside rfl
    refine (located.moveUpTo path (by decide)).bind fun builder draft located left => ?_
    have isBetween := Draft.kind_eq left.path
    obtain ⟨opened, close, savedClose, sees⟩ := located.stands.sees.openIn .containerClose
    obtain ⟨grown, word, saved, sees⟩ := sees.saveIn .otherKeyword reading.value
    have stands : grown.Stands (draft.add (.bracket close .containerClose
        (.leaf word .otherKeyword reading.value))) := ⟨sees.shown.of_outline rfl, sees.cursor⟩
    have read := (onWord.isKeyword word).bracket close
      (rfl : NodeKind.isTransparent .containerClose = true)
    have built :=
      located.built.add read rfl (left.accepts (by simp) rfl) (by rw [isBetween]; decide)
    rw [Draft.enter_id] at saved
    simp only [Builder.save, located.stands.cursor, savedClose, Builder.saveLeafIn, saved]
    refine Builder.At.enterHolder ⟨stands, built⟩ rfl ?_ ?_ (by decide) (by decide) (by decide)
    · exact isBetween ▸ (by decide : NodeKind.between ∈ NodeKind.parents .upperBound)
    · rw [Draft.Accepts, Draft.lastKind_add]
      have accepted : NodeKind.accepts .between (some .containerClose) .upperBound = true := by
        decide
      exact isBetween ▸ accepted
  next => exact onWord.logicalOperator located isOpen (.inl rfl)

theorem OnWord.setOperator (onWord : reading.OnWord) (located : builder.At tokens draft)
    (isOpen : draft.IsOpen) : Completes tokens reading.source (reading.setOperator builder) := by
  refine (located.considerClause isOpen).thenStep fun builder draft located isOpen => ?_
  refine onWord.completesWrapped located isOpen rfl ?_
  split
  next both => exact fun _ => Phrase.exact_of_startsWith both (by decide)
  next => exact fun several => absurd several (by decide)

end SqlLayout.Reading
