import SqlLayout.Proofs.Builder.Supply
import SqlLayout.Proofs.Grammar.Document
import SqlLayout.Proofs.Token.Smooth
import SqlLayout.Proofs.Tree.Links

/-!
# Reserved words

Only words of the vocabulary become keywords, data types and operators: a word is looked up where it
stands, and every rule of the grammar that takes a word for a keyword has found a word of the
vocabulary. All other words stay names, whatever surrounds them.
-/

namespace SqlLayout

/-- Whether a word in upper case is reserved: it is part of a keyword of several words, or a keyword
of its own and no built-in function. -/
def Keyword.isReserved (word : String) : Bool :=
  compounds.flatten.contains word || Phrase.joinWords.contains word ||
    [some .operator, some .dataType, some .other].contains (class? word)

namespace Keyword

theorem isReserved_of_compound :
    ∀ sequence ∈ compounds, ∀ word ∈ sequence, isReserved word = true := by
  intro sequence isCompound word member
  simp only [isReserved, List.contains_iff_mem.mpr (List.mem_flatten_of_mem isCompound member),
    Bool.true_or]

theorem isReserved_of_join : ∀ word ∈ Phrase.joinWords, isReserved word = true := by
  intro word member
  simp only [isReserved, List.contains_iff_mem.mpr member, Bool.or_true, Bool.true_or]

/-- The words that the grammar looks for one by one. -/
def ruleWords : List String := [
  "CASE", "WHEN", "THEN", "ELSE", "END", "BEGIN", "TRY", "CATCH", "COMMIT", "ROLLBACK", "SAVE",
  "GO", "IF", "WHILE", "DECLARE", "CREATE", "ALTER", "GRANT", "DENY", "REVOKE", "TO", "FROM",
  "CASCADE", "RETURNS", "AS", "FOR", "WITH", "ON", "USING", "MERGE", "SELECT", "UPDATE", "SET",
  "EXEC", "EXECUTE", "BETWEEN", "AND", "OR", "UNION", "ALL", "INTERSECT", "EXCEPT", "AFTER",
  "INSTEAD", "OF", "INSERT", "DELETE"]

theorem isReserved_of_rule : ∀ word ∈ ruleWords, isReserved word = true := by
  decide +kernel

/-- What a trigger reacts to is named by reserved words, with commas between. -/
theorem isReserved_of_trigger :
    ∀ word ∈ Phrase.triggerWords, ',' ∈ word.toList ∨ isReserved word = true := by
  intro word member
  have known : ∀ word ∈ Phrase.triggerWords, ',' ∈ word.toList ∨ word ∈ ruleWords := by decide
  exact (known word member).imp_right (isReserved_of_rule word)

end Keyword

/-- The kinds of words that are written in the case of keywords. -/
def NodeKind.isRespelled (kind : NodeKind) : Bool :=
  [otherKeyword, dataTypeKeyword, alphaOperator].contains kind

/-- Nodes with a reserved word, if with a word that is written in the case of keywords. -/
def Supply.reserved : Supply where
  allows kind text := kind.isRespelled = true → Keyword.isReserved (Text.upper text) = true
  statement := nofun
  clause := nofun
  body := nofun

theorem allows_of_plain (kind : NodeKind) (text : String) (plain : kind.isRespelled = false) :
    Supply.reserved.allows kind text :=
  fun respelled => absurd (respelled.symm.trans plain) (by decide)

theorem allows_wordKind (word : String) : Supply.reserved.allows (wordKind word) word := by
  intro respelled
  rw [wordKind] at respelled
  have known :
      [some .operator, some .dataType, some .other].contains (Keyword.class? (Text.upper word)) =
        true := by
    split at respelled
    next isClass => rw [isClass]; rfl
    next => cases respelled
    next isClass => rw [isClass]; rfl
    next isClass => rw [isClass]; rfl
    next => cases respelled
  rw [Keyword.isReserved, known, Bool.or_true]

theorem TokenKind.plain_leafKind (kind : TokenKind) : kind.leafKind.isRespelled = false := by
  cases kind <;> rfl

/-- A word has no blank and no comma in it. -/
def Token.IsClean (token : Token) : Prop :=
  token.kind = .word → ' ' ∉ (Text.upper token.value).toList ∧ ',' ∉ (Text.upper token.value).toList

theorem TokenList.isClean_ofText (script : String) :
    ∀ token ∈ (TokenList.ofText script).tokens, token.IsClean := by
  intro token member isWord
  have solid : token.kind.isSolid = true := by
    rw [isWord]
    rfl
  obtain ⟨text, lexeme⟩ := lexeme_ofText script token member solid
  have noBlank : ' ' ∉ token.value.toList := fun inside =>
    absurd (lexeme.not_isBlank solid ' ' inside) (by decide)
  rw [isWord] at lexeme
  exact ⟨Text.notMem_upper (by decide) noBlank, Text.notMem_upper (by decide) lexeme.notMem_comma⟩

/-- New words that are written in the case of keywords are reserved. -/
abbrev Builder.Respects (builder : Builder) (result : Except TreeError Builder) : Prop :=
  Adds .reserved Builder.tree builder.tree result

/-- New words that are written in the case of keywords are reserved, also where several tokens are
used. -/
abbrev Builder.StepRespects (builder : Builder) (step : Step) : Prop :=
  Adds .reserved (fun taken : Builder × Nat => taken.1.tree) builder.tree step

theorem Builder.Respects.done {builder : Builder} {result : Except TreeError Builder}
    (respects : builder.Respects result) : builder.StepRespects (.done result) :=
  respects.map fun _ => rfl

def Phrase.IsReserved (phrase : Phrase) (count : Nat) : Prop :=
  ∀ word ∈ phrase.words.take count, Keyword.isReserved word.text = true

namespace Builder

variable (builder : Builder)

theorem gains_saveTokens (parent : NodeId) {tokens : List Token}
    (words : ∀ token ∈ tokens, token.kind = .word →
      Keyword.isReserved (Text.upper token.value) = true) :
    builder.tree.Gains .reserved (builder.saveTokens parent tokens).tree := by
  induction tokens generalizing builder with
  | nil => exact .refl builder.tree
  | cons token rest ih =>
    obtain ⟨here, later⟩ := List.forall_mem_cons.mp words
    refine (builder.gains_saveIn parent ?_).trans (ih _ later)
    intro respelled
    split at respelled
    next isWord => exact here isWord
    next => exact absurd (respelled.symm.trans (TokenKind.plain_leafKind _)) (by decide)

end Builder

namespace Reading

variable {reading : Reading} (builder : Builder) {count : Nat}

theorem OnWord.words_eq (onWord : reading.OnWord) :
    ∃ more, reading.phrase.words = { place := 0, text := Text.upper reading.value } :: more := by
  refine ⟨Phrase.collect 1 6 reading.rest, ?_⟩
  rw [onWord.phrase]
  simp only [source, Phrase.ofTokens, Phrase.maxLength, Phrase.collect, Phrase.partOf,
    onWord.isWord, Reading.value]

theorem OnWord.word_eq (onWord : reading.OnWord) : reading.word = Text.upper reading.value := by
  obtain ⟨more, words⟩ := onWord.words_eq
  rw [Reading.word, Phrase.word, words]
  rfl

structure OnReserved (reading : Reading) : Prop extends reading.OnWord where
  reserved : Keyword.isReserved reading.word = true

theorem OnWord.first_mem (onWord : reading.OnWord) (some : 0 < count) :
    { place := 0, text := Text.upper reading.value } ∈ reading.phrase.words.take count := by
  obtain ⟨more, isFirst⟩ := onWord.words_eq
  obtain ⟨fewer, rfl⟩ := Nat.exists_eq_succ_of_ne_zero (Nat.ne_of_gt some)
  rw [isFirst, List.take_succ_cons]
  exact List.mem_cons_self

theorem OnWord.onReserved (onWord : reading.OnWord) (words : reading.phrase.IsReserved count)
    (some : 0 < count) : reading.OnReserved := by
  refine ⟨onWord, ?_⟩
  rw [onWord.word_eq]
  exact words { place := 0, text := Text.upper reading.value } (onWord.first_mem some)

namespace OnReserved

variable (word : reading.OnReserved) {kind : NodeKind}
include word

theorem allows (kind : NodeKind) : Supply.reserved.allows kind reading.value := by
  intro _
  rw [← word.word_eq]
  exact word.reserved

theorem gains_saveWord : builder.tree.Gains .reserved (reading.saveWord builder).tree :=
  builder.gains_saveLeaf (word.allows _)

theorem saveWord : builder.Respects (.ok (reading.saveWord builder)) :=
  .ok (word.gains_saveWord builder)

theorem saveWithError :
    builder.Respects (.ok (builder.saveLeafWithError .otherKeyword reading.value)) :=
  .ok (builder.gains_saveLeafWithError (word.allows _))

theorem enter {kind body : NodeKind} (plain : kind.isRespelled = false)
    (plainBody : body.isRespelled = false) : builder.Respects (reading.enter builder kind body) :=
  builder.adds_enterContainer (allows_of_plain _ _ plain) (allows_of_plain _ _ rfl)
    (allows_of_plain _ _ plainBody) (word.allows _)

theorem gains_saveKeyword (parent : NodeId) (words : 1 < count → reading.phrase.IsReserved count) :
    builder.tree.Gains .reserved (reading.saveKeyword builder parent count).1.tree := by
  rw [saveKeyword]
  split
  next => exact builder.gains_saveIn parent (word.allows _)
  next last isLast =>
    split at isLast
    next several =>
      have all := words several
      rw [word.phrase] at isLast all
      refine ((builder.gains_saveIn parent (allows_of_plain .compoundKeyword "" rfl)).trans
        (Builder.gains_setAttribute ..)).trans (Builder.gains_saveTokens _ _ ?_)
      exact Phrase.forall_of_lastPlace? isLast all
    next => cases isLast

/-! ### Blocks -/

theorem conditional (plain : kind.isRespelled = false) :
    builder.Respects (reading.conditional builder kind) :=
  builder.adds_considerStatement.bind fun builder => word.enter builder plain rfl

theorem when_ : builder.Respects (reading.when_ builder) := by
  refine builder.adds_leaveBetween.bind fun builder => .ite ?_ (.ite ?_ ?_)
  · exact (builder.adds_moveUpTo 1 _).bind fun builder => word.enter builder rfl rfl
  · exact (builder.adds_moveUpTo 3 _).bind fun builder => word.enter builder rfl rfl
  · refine builder.adds_leaveSelectionTarget.bind fun builder => ?_
    refine builder.adds_leaveMergeAction.bind fun builder => ?_
    have branch : ∀ builder : Builder, builder.Respects (if builder.isIn [.mergeClause] then
        reading.enter builder .mergeWhen .containerContentBody
        else return builder.saveLeafWithError .otherKeyword reading.value) :=
      fun builder => .ite (word.enter builder rfl rfl) (word.saveWithError builder)
    exact .ite ((builder.adds_moveUpTo 1 _).bind branch)
      (.ite ((builder.adds_moveUpTo 2 _).bind branch) (branch builder))

theorem then_ : builder.Respects (reading.then_ builder) := by
  refine builder.adds_leaveBetween.bind fun builder =>
    .ite ?_ (.ite ?_ (word.saveWithError builder))
  · exact (builder.adds_moveUpTo 1 _).bind fun builder => word.enter builder rfl rfl
  · exact (builder.adds_moveUpTo 1 _).bind fun builder =>
      (word.enter builder rfl rfl).bind fun builder =>
      .ok builder.gains_startStatement

theorem else_ : builder.Respects (reading.else_ builder) := by
  refine builder.adds_leaveBetween.bind fun builder => .ite ?_ ?_
  · exact (builder.adds_moveUpTo 3 _).bind fun builder => word.enter builder rfl rfl
  · refine builder.adds_leaveSelectionTarget.bind fun builder =>
      builder.adds_leaveJoinCondition.bind fun builder =>
      builder.adds_leavePartialStatement.bind fun builder => ?_
    split
    · exact (builder.adds_moveTo _).bind fun builder =>
        (word.enter builder rfl rfl).bind fun builder =>
        .ok builder.gains_startStatement
    · exact word.saveWithError builder

theorem endHandler (words : reading.phrase.IsReserved 2) :
    builder.StepRespects (reading.endHandler builder kind) := by
  refine builder.adds_leaveStatementContainers.bind fun builder => .ite ?_ ?_
  · refine (builder.adds_moveUpTo 3 kind).bind fun builder => ?_
    refine Adds.after ?_ ((builder.gains_save (allows_of_plain .containerClose "" rfl)).trans
      (word.gains_saveKeyword _ (builder.save .containerClose "").2 fun _ => words))
    exact (Builder.adds_moveUp _ 1).bind fun builder => .ok (.refl builder.tree)
  · exact .ok ((word.gains_saveKeyword builder _ fun _ => words).trans (Builder.gains_markError _))

theorem close : builder.Respects (reading.close builder) := by
  rcases saved : builder.saveIn builder.cursor .containerClose "" with ⟨opened, close⟩
  rw [Reading.close, Builder.save, saved]
  exact (Builder.adds_moveUp _ 1).after
    ((Builder.gains_of_saveIn saved (allows_of_plain _ _ rfl)).trans
    (opened.gains_saveIn close (word.allows .otherKeyword)))

theorem end_ : builder.StepRespects (reading.end_ builder) := by
  rw [Reading.end_]
  split
  next both => exact word.endHandler builder (Phrase.forall_of_startsWith both (by decide))
  split
  next both => exact word.endHandler builder (Phrase.forall_of_startsWith both (by decide))
  refine builder.adds_leaveBetween.bind fun builder => .ite ?_ (.ite ?_ ?_)
  · exact (builder.adds_moveUpTo 3 _).bind fun builder => (word.close builder).done
  · exact (builder.adds_moveUpTo 2 _).bind fun builder => (word.close builder).done
  · refine builder.adds_leaveStatementContainers.bind fun builder => .ite ?_ ?_
    · exact (builder.adds_moveUpTo 3 _).bind fun builder => (word.close builder).bind fun builder =>
        .ok (.refl builder.tree)
    · exact .ok (builder.gains_saveLeafWithError (word.allows _))

theorem beginHandler (plain : kind.isRespelled = false) (words : reading.phrase.IsReserved 2) :
    builder.StepRespects (reading.beginHandler builder kind) := by
  rcases isBlock : builder.saveIn builder.cursor kind "" with ⟨first, block⟩
  rcases isOpening : first.saveIn block .containerOpen "" with ⟨second, opening⟩
  rcases isKeyword : reading.saveKeyword second opening 2 with ⟨third, used⟩
  rcases isBody : third.saveIn block .containerMultiStatementBody "" with ⟨fourth, body⟩
  have opened := (Builder.gains_of_saveIn isBlock (allows_of_plain _ _ plain)).trans
    (Builder.gains_of_saveIn isOpening (allows_of_plain _ _ rfl))
  have named := word.gains_saveKeyword second opening fun _ => words
  rw [isKeyword] at named
  have filled :=
    Builder.gains_of_saveIn isBody (allows_of_plain .containerMultiStatementBody "" rfl)
  simp only [Reading.beginHandler, Builder.save, isBlock, isOpening, isKeyword, isBody]
  refine Adds.after ?_ ((opened.trans named).trans filled)
  exact (fourth.adds_moveTo body).bind fun builder => .ok builder.gains_startStatement

theorem begin_ : builder.StepRespects (reading.begin_ builder) := by
  have second : ∀ {next}, Keyword.isReserved next = true → (reading.phrase.word 1 == next) = true →
      reading.phrase.IsReserved 2 :=
    fun reserved isNext => Phrase.forall_of_word word.reserved (eq_of_beq isNext ▸ reserved)
  refine builder.adds_considerStatement.bind fun builder => ?_
  split
  next isTry => exact word.beginHandler builder rfl (second (by decide) isTry)
  split
  next isCatch => exact word.beginHandler builder rfl (second (by decide) isCatch)
  split
  next count found =>
    have words : reading.phrase.IsReserved count :=
      Phrase.forall_of_compoundLength? found Keyword.isReserved_of_compound
    exact .ok ((builder.gains_save (allows_of_plain .beginTransaction "" rfl)).trans
      (word.gains_saveKeyword _ (builder.save .beginTransaction "").2 fun _ => words))
  next => exact (word.enter builder rfl rfl).bind fun builder => .ok builder.gains_startStatement

theorem transaction (plain : kind.isRespelled = false) :
    builder.StepRespects (reading.transaction builder kind) := by
  refine builder.adds_considerStatement.bind fun builder => ?_
  refine .ok ((builder.gains_save (allows_of_plain kind "" plain)).trans
    (word.gains_saveKeyword _ (builder.save kind "").2 ?_))
  intro several
  cases found : reading.phrase.compoundLength? with
  | none =>
    rw [found] at several
    exact absurd several (by decide)
  | some count => exact Phrase.forall_of_compoundLength? found Keyword.isReserved_of_compound

theorem batchSeparator : builder.Respects (reading.batchSeparator builder) := by
  refine builder.adds_leaveStatementContainers.bind fun builder => .ite ?_ ?_
  · refine builder.adds_findBatchEnd.bind fun found => ?_
    obtain ⟨builder, valid⟩ := found
    refine .ite ?_ ?_
    · have named := (builder.gains_saveIn Tree.root (allows_of_plain .batchSeparator "" rfl)).trans
        (Builder.gains_saveIn _ (builder.saveIn Tree.root .batchSeparator "").2
          (word.allows .otherKeyword))
      exact .ok (named.trans (Builder.gains_startStatementIn _ Tree.root))
    · exact .ok (builder.gains_saveLeafWithError (allows_of_plain .other _ rfl))
  · exact .ok (builder.gains_saveLeaf (allows_of_plain .other _ rfl))

/-! ### Definitions -/

theorem definition (plain : kind.isRespelled = false) :
    builder.Respects (reading.definition builder kind) :=
  builder.adds_considerStatement.bind fun builder =>
    (builder.adds_enter (allows_of_plain kind "" plain)).bind fun builder => word.saveWord builder

theorem returns : builder.tree.Gains .reserved (reading.returns builder).tree :=
  (builder.gains_save (allows_of_plain .ddlReturns "" rfl)).trans
    (Builder.gains_saveIn _ (builder.save .ddlReturns "").2 (word.allows .otherKeyword))

theorem as_ : builder.Respects (reading.as_ builder) := by
  have leaves : builder.Respects (leaveProcedureOptions builder) :=
    .ite (builder.adds_moveUpTo 2 _) (.ok (.refl builder.tree))
  refine leaves.bind fun builder =>
    .ite (.ite (word.saveWord builder) ?_) (.ite ?_ (word.saveWord builder))
  · exact (word.enter builder rfl rfl).bind fun builder => .ok builder.gains_startStatement
  · exact (builder.adds_moveUp 1).bind fun builder => word.enter builder rfl rfl

theorem for_ : builder.Respects (reading.for_ builder) := by
  refine .ite ?_ ?_
  · exact (word.enter builder rfl rfl).bind fun builder => .ok builder.gains_startStatement
  · refine builder.adds_leaveSelectionTarget.bind fun builder => .ite ?_ ?_
    · exact (builder.adds_moveUpTo 4 _).bind fun builder => word.enter builder rfl rfl
    · exact (Adds.ite builder.adds_considerClause (.ok (.refl builder.tree))).bind_ite
        fun builder =>
        word.saveWord builder

theorem with_ : builder.Respects (reading.with_ builder) := by
  refine (Adds.ite builder.adds_considerStatement (.ok (.refl builder.tree))).bind_ite
    fun builder =>
    .ite ?_ (.ite ?_ (.ite (word.enter builder rfl rfl) (.ite (word.saveWord builder) ?_)))
  · exact (word.enter builder rfl rfl).bind fun builder =>
      builder.adds_enter (allows_of_plain _ _ rfl)
  · exact (builder.adds_moveUpTo 2 _).bind fun builder => word.enter builder rfl rfl
  · exact builder.adds_considerClause.bind fun builder => word.saveWord builder

theorem permissions : builder.Respects (reading.permissions builder) :=
  .ite (word.saveWord builder) (builder.adds_considerStatement.bind fun builder =>
    word.enter builder rfl rfl)

theorem permissionsRecipient : builder.Respects (reading.permissionsRecipient builder) :=
  (builder.adds_moveUpTo 2 _).bind fun builder => word.enter builder rfl rfl

theorem cascade : builder.Respects (reading.cascade builder) :=
  .ite ((builder.adds_moveUpTo 2 _).bind fun builder => word.enter builder rfl rfl)
    (word.saveWord builder)

/-! ### Queries -/

theorem from_ : builder.Respects (reading.from_ builder) :=
  builder.adds_considerClause.bind fun builder =>
    (Builder.adds_enter _ (allows_of_plain _ _ rfl)).after (word.gains_saveWord builder)

theorem on_ : builder.Respects (reading.on_ builder) := by
  refine (Adds.ite builder.adds_leaveSelectionTarget (.ok (.refl builder.tree))).bind_ite
    fun builder =>
    .ite ?_ (.ite (word.enter builder rfl rfl) (word.saveWord builder))
  exact (builder.adds_moveUpTo 1 _).bind fun builder => word.enter builder rfl rfl

theorem mergeUsing : builder.Respects (reading.mergeUsing builder) :=
  (builder.adds_moveUpTo 1 _).bind fun builder => word.enter builder rfl rfl

omit word in
theorem considerStatementUnlessCte : builder.Respects (considerStatementUnlessCte builder) :=
  .ite (.ok (.refl builder.tree)) builder.adds_considerStatement

theorem merge : builder.Respects (reading.merge builder) :=
  (considerStatementUnlessCte builder).bind fun builder =>
    builder.adds_considerClause.bind fun builder =>
    word.enter builder rfl rfl

theorem select : builder.Respects (reading.select builder) :=
  (Adds.ite (.ok (.refl builder.tree)) builder.adds_considerStatement).bind_ite fun builder =>
    builder.adds_considerClause.bind fun builder => word.saveWord builder

theorem update : builder.Respects (reading.update builder) :=
  .ite (word.saveWord builder) ((considerStatementUnlessCte builder).bind fun builder =>
    builder.adds_considerClause.bind fun builder => word.saveWord builder)

theorem set : builder.Respects (reading.set builder) :=
  .ite (word.saveWord builder)
    (.ite (builder.adds_considerClause.bind fun builder => word.saveWord builder)
    (builder.adds_considerStatement.bind fun builder => word.saveWord builder))

theorem keyword : builder.StepRespects (reading.keyword builder) :=
  .ok (word.gains_saveWord builder)

theorem execute : builder.StepRespects (reading.execute builder) := by
  rw [Reading.execute]
  split
  next isAs =>
    have words : reading.phrase.IsReserved 2 :=
      Phrase.forall_of_word word.reserved (eq_of_beq isAs ▸ by decide)
    have save : ∀ builder : Builder,
        builder.StepRespects (.ok (reading.saveKeyword builder builder.cursor 2)) :=
      fun builder => .ok (word.gains_saveKeyword builder _ fun _ => words)
    refine .ite (save builder) ?_
    exact builder.adds_considerStatement.bind fun builder => builder.adds_considerClause.bind save
  refine .ite ?_ ?_
  · exact builder.adds_considerClause.bind fun builder => word.keyword builder
  · exact builder.adds_considerStatement.bind fun builder => word.keyword builder

theorem logicalOperator (plain : kind.isRespelled = false) :
    builder.Respects (reading.logicalOperator builder kind) :=
  builder.adds_leaveBetween.bind fun builder =>
    .ok ((builder.gains_save (allows_of_plain kind "" plain)).trans
      (Builder.gains_saveIn _ (builder.save kind "").2 (word.allows .otherKeyword)))

theorem and_ : builder.Respects (reading.and_ builder) := by
  refine .ite ?_ (word.logicalOperator builder rfl)
  refine (builder.adds_moveUpTo 1 _).bind fun builder => ?_
  exact (Builder.adds_enter _ (allows_of_plain _ _ rfl)).after
    ((builder.gains_save (allows_of_plain .containerClose "" rfl)).trans
      (Builder.gains_saveIn _ (builder.save .containerClose "").2 (word.allows .otherKeyword)))

theorem setOperator : builder.StepRespects (reading.setOperator builder) := by
  refine builder.adds_considerClause.bind fun builder => ?_
  refine .ok ((builder.gains_save (allows_of_plain .setOperatorClause "" rfl)).trans
    (word.gains_saveKeyword _ (builder.save .setOperatorClause "").2 ?_))
  split
  next both => exact fun _ => Phrase.forall_of_startsWith both (by decide)
  next => exact fun several => absurd several (by decide)

end OnReserved

/-! ### Other words -/

theorem gains_saveTyped : builder.tree.Gains .reserved (reading.saveTyped builder).tree :=
  builder.gains_saveLeaf (allows_wordKind _)

theorem respects_label : builder.StepRespects (reading.label builder) :=
  builder.adds_considerStatement.bind fun builder =>
    .ok (builder.gains_saveLeaf (allows_of_plain .label _ rfl))

namespace OnWord

variable (onWord : reading.OnWord)
include onWord

theorem respects_otherWord : builder.StepRespects (reading.otherWord builder) := by
  refine (Adds.ite builder.adds_considerStatement (.ok (.refl builder.tree))).bind_ite
    fun builder =>
    (Adds.ite builder.adds_considerClause (.ok (.refl builder.tree))).bind_ite fun builder => ?_
  split
  next => exact .ok (gains_saveTyped builder)
  next count found =>
    have words : reading.phrase.IsReserved count :=
      Phrase.forall_of_compoundLength? found Keyword.isReserved_of_compound
    have some : 0 < count := by
      obtain ⟨sequence, isFirst, rfl⟩ := Option.map_eq_some_iff.mp found
      exact (by decide : ∀ sequence ∈ Keyword.compounds, 0 < sequence.length) _
        (List.mem_of_find?_eq_some isFirst)
    have word := onWord.onReserved words some
    exact (Adds.ite builder.adds_considerClause (.ok (.refl builder.tree))).bind_ite fun builder =>
      .ok (word.gains_saveKeyword builder _ fun _ => words)

theorem respects_permissionsDetail : builder.Respects (reading.permissionsDetail builder) := by
  have enters : ∀ {kind : NodeKind} {text : String}, kind.isRespelled = false →
      reading.word = text → text ∈ Keyword.ruleWords →
      builder.Respects
        (do reading.enter (← builder.moveUpTo 1 .permissionsBlock) kind .containerContentBody) :=
    fun plain isText member => (builder.adds_moveUpTo 1 _).bind fun builder =>
      OnReserved.enter builder ⟨onWord, isText ▸ Keyword.isReserved_of_rule _ member⟩ plain rfl
  rw [Reading.permissionsDetail]
  split
  next isOn => exact enters rfl isOn (by decide)
  next isTo => exact enters rfl isTo (by decide)
  next isFrom => exact enters rfl isFrom (by decide)
  next => exact .ok (gains_saveTyped builder)

theorem respects_keywordRule : builder.StepRespects (reading.keywordRule builder) := by
  have word : ∀ {text}, reading.word = text → text ∈ Keyword.ruleWords → reading.OnReserved :=
    fun isText member => ⟨onWord, isText ▸ Keyword.isReserved_of_rule _ member⟩
  have other := onWord.respects_otherWord builder
  rw [Reading.keywordRule]
  split
  next isCase => exact ((word isCase (by decide)).enter builder rfl rfl).done
  next isWhen => exact ((word isWhen (by decide)).when_ builder).done
  next isThen => exact ((word isThen (by decide)).then_ builder).done
  next isElse => exact ((word isElse (by decide)).else_ builder).done
  next isEnd => exact (word isEnd (by decide)).end_ builder
  next isBegin => exact (word isBegin (by decide)).begin_ builder
  next isCommit => exact (word isCommit (by decide)).transaction builder rfl
  next isRollback => exact (word isRollback (by decide)).transaction builder rfl
  next isSave => exact .ite ((word isSave (by decide)).transaction builder rfl) other
  next isGo => exact ((word isGo (by decide)).batchSeparator builder).done
  next isIf => exact ((word isIf (by decide)).conditional builder rfl).done
  next isWhile => exact ((word isWhile (by decide)).conditional builder rfl).done
  next isDeclare => exact ((word isDeclare (by decide)).definition builder rfl).done
  next isCreate => exact ((word isCreate (by decide)).definition builder rfl).done
  next isAlter => exact ((word isAlter (by decide)).definition builder rfl).done
  next isGrant => exact ((word isGrant (by decide)).permissions builder).done
  next isDeny => exact ((word isDeny (by decide)).permissions builder).done
  next isRevoke => exact ((word isRevoke (by decide)).permissions builder).done
  next isTo => exact .ite ((word isTo (by decide)).permissionsRecipient builder).done other
  next isFrom =>
    have word := word isFrom (by decide)
    exact .ite (word.permissionsRecipient builder).done (word.from_ builder).done
  next isCascade => exact ((word isCascade (by decide)).cascade builder).done
  next isReturns => exact .ite (.ok ((word isReturns (by decide)).returns builder)) other
  next isAs => exact ((word isAs (by decide)).as_ builder).done
  next isFor => exact ((word isFor (by decide)).for_ builder).done
  next isWith => exact ((word isWith (by decide)).with_ builder).done
  next isOn => exact ((word isOn (by decide)).on_ builder).done
  next isUsing => exact .ite ((word isUsing (by decide)).mergeUsing builder).done other
  next isMerge => exact ((word isMerge (by decide)).merge builder).done
  next isSelect => exact ((word isSelect (by decide)).select builder).done
  next isUpdate => exact ((word isUpdate (by decide)).update builder).done
  next isSet => exact ((word isSet (by decide)).set builder).done
  next isExec => exact (word isExec (by decide)).execute builder
  next isExecute => exact (word isExecute (by decide)).execute builder
  next isBetween => exact ((word isBetween (by decide)).enter builder rfl rfl).done
  next isAnd => exact ((word isAnd (by decide)).and_ builder).done
  next isOr => exact ((word isOr (by decide)).logicalOperator builder rfl).done
  next isUnion => exact (word isUnion (by decide)).setOperator builder
  next isIntersect => exact (word isIntersect (by decide)).setOperator builder
  next isExcept => exact (word isExcept (by decide)).setOperator builder
  next => exact other

section Clean

variable (clean : ∀ token ∈ reading.source, token.IsClean)
include clean

theorem unbroken : ∀ word ∈ reading.phrase.words, word.Unbroken := by
  rw [onWord.phrase]
  exact Phrase.unbroken_ofTokens fun token member isWord => (clean token member isWord).1

theorem respects_triggerCondition (found : reading.phrase.triggerLength? = some count) :
    builder.StepRespects (reading.triggerCondition builder count) := by
  have unbroken := onWord.unbroken clean
  have known : ∀ word ∈ reading.phrase.words.take count,
      Phrase.triggerWords.contains word.text = true :=
    fun word member =>
      List.contains_iff_mem.mpr (Phrase.words_of_triggerLength? found unbroken word member)
  have reserved : ∀ token ∈ reading.source, token.kind = .word →
      Phrase.triggerWords.contains (Text.upper token.value) = true →
      Keyword.isReserved (Text.upper token.value) = true := by
    intro token member isWord among
    have known := Keyword.isReserved_of_trigger _ (List.contains_iff_mem.mp among)
    exact known.resolve_left (clean token member isWord).2
  have word : reading.OnReserved := by
    refine ⟨onWord, ?_⟩
    rw [onWord.word_eq]
    exact reserved reading.token List.mem_cons_self onWord.isWord
      (known { place := 0, text := Text.upper reading.value }
        (onWord.first_mem (Phrase.triggerLength?_pos found)))
  have timing : 1 < (if reading.word == "INSTEAD" then 2 else 1) →
      reading.phrase.IsReserved (if reading.word == "INSTEAD" then 2 else 1) := by
    split
    next instead =>
      have isOf := Phrase.word_of_triggerLength? (by rw [found]; rfl) (eq_of_beq instead)
        fun word member => unbroken word (List.mem_of_mem_take member)
      exact fun _ => Phrase.forall_of_word word.reserved
        (isOf ▸ Keyword.isReserved_of_rule _ (by decide))
    next => exact fun several => absurd several (by decide)
  have leaves : builder.Respects (leaveProcedureOptions builder) :=
    .ite (builder.adds_moveUpTo 2 _) (.ok (.refl builder.tree))
  refine leaves.bind fun builder => ?_
  rcases isCondition : builder.saveIn builder.cursor .triggerCondition "" with ⟨opened, condition⟩
  rcases isKeyword :
      reading.saveKeyword opened condition (if reading.word == "INSTEAD" then 2 else 1) with
    ⟨timed, used⟩
  have gains := word.gains_saveKeyword opened condition timing
  rw [isKeyword] at gains
  have gains := (Builder.gains_of_saveIn isCondition (allows_of_plain _ _ rfl)).trans gains
  simp only [Builder.save, isCondition, isKeyword]
  split
  next => exact .ok gains
  next last isLast =>
    refine .ok (gains.trans (timed.gains_saveTokens condition fun token member isWord => ?_))
    have inside := List.mem_of_mem_drop member
    refine reserved token (List.mem_of_mem_take inside) isWord ?_
    rw [onWord.phrase] at isLast known
    exact Phrase.forall_of_lastPlace? isLast known token inside isWord

theorem respects_join (found : reading.phrase.joinLength? = some count) :
    builder.StepRespects (reading.join builder count) := by
  have words : reading.phrase.IsReserved count := fun word member =>
    Keyword.isReserved_of_join _ (Phrase.words_of_joinLength? found
      (fun word member => onWord.unbroken clean word (List.mem_of_mem_take member)) word member)
  have word := onWord.onReserved words (Phrase.joinLength?_pos found)
  refine builder.adds_leaveBetween.bind fun builder =>
    builder.adds_leaveSelectionTarget.bind fun builder =>
    builder.adds_leaveJoinCondition.bind fun builder => ?_
  rcases isTarget : builder.saveIn builder.cursor .joinTarget "" with ⟨first, target⟩
  rcases isOpening : first.saveIn target .containerOpen "" with ⟨second, opening⟩
  have opened := (Builder.gains_of_saveIn isTarget (allows_of_plain _ _ rfl)).trans
    (Builder.gains_of_saveIn isOpening (allows_of_plain _ _ rfl))
  simp only [Builder.save, isTarget, isOpening]
  split
  next =>
    rcases isKeyword : reading.saveKeyword second opening count with ⟨third, used⟩
    have named := word.gains_saveKeyword second opening fun _ => words
    rw [isKeyword] at named
    refine Adds.after ?_ (opened.trans named)
    exact (third.adds_moveTo target).bind fun builder => .ok (.refl builder.tree)
  next =>
    rcases isCompound : second.saveIn opening .compoundKeyword "" with ⟨third, compound⟩
    have named := (Builder.gains_of_saveIn isCompound (allows_of_plain _ _ rfl)).trans
      ((third.gains_setAttribute compound .simpleText (reading.phrase.joined 1)).trans
        (Builder.gains_saveIn _ compound (word.allows .otherKeyword)))
    refine Adds.after ?_ (opened.trans named)
    exact (Builder.adds_moveTo _ target).bind fun builder => .ok (.refl builder.tree)

theorem respects_takeWord : builder.StepRespects (reading.takeWord builder) := by
  have word : ∀ {text}, reading.word = text → text ∈ Keyword.ruleWords → reading.OnReserved :=
    fun isText member => ⟨onWord, isText ▸ Keyword.isReserved_of_rule _ member⟩
  rw [Reading.takeWord]
  split
  next => exact (onWord.respects_permissionsDetail builder).done
  split
  next => exact respects_label builder
  split
  next defines =>
    rcases Phrase.word_of_isProceduralDefinition defines with isCreate | isAlter
    · exact ((word isCreate (by decide)).definition builder rfl).done
    · exact ((word isAlter (by decide)).definition builder rfl).done
  split
  next declares =>
    have isDeclare := Phrase.word_of_declaresCursor declares (onWord.unbroken clean)
    exact ((word isDeclare (by decide)).definition builder rfl).done
  split
  next words found =>
    rw [Reading.triggerWords?] at found
    split at found
    · exact onWord.respects_triggerCondition builder clean found
    · cases found
  split
  next words found => exact onWord.respects_join builder clean found
  next => exact onWord.respects_keywordRule builder

end Clean

end OnWord

/-! ### Other tokens -/

theorem respects_openParens : builder.Respects (openParens builder) := by
  have enters : ∀ {kind : NodeKind}, kind.isRespelled = false →
      builder.Respects (builder.enter kind) :=
    fun plain => builder.adds_enter (allows_of_plain _ _ plain)
  rw [openParens]
  refine .ite (enters rfl)
    (.ite (enters rfl) (.ite (enters rfl) (.ite ?_ (.ite (enters rfl) (.ite (enters rfl)
    (.ite (enters rfl) (enters rfl)))))))
  exact builder.adds_considerClause.bind fun builder => builder.adds_enter (allows_of_plain _ _ rfl)

theorem respects_closeParens : builder.Respects (closeParens builder) := by
  have leaves : ∀ (builder : Builder) (levels : Nat),
      builder.Respects (leaveParens builder levels) :=
    fun builder levels => (builder.adds_moveUp levels).bind fun builder =>
      .ite (builder.adds_moveUpTo 2 _) (.ok (.refl builder.tree))
  refine builder.adds_leaveStatementContainers.bind fun builder => ?_
  refine .ite (leaves builder 1) (.ite (leaves builder 2) ?_)
  exact .ok (builder.gains_saveLeafWithError (allows_of_plain .other _ rfl))

theorem respects_colon : builder.StepRespects (.ok (reading.colon builder)) := by
  refine .ok ?_
  have stray : builder.tree.Gains .reserved (builder.saveLeafWithError .other ":").tree :=
    builder.gains_saveLeafWithError (allows_of_plain .other _ rfl)
  rw [colon]
  split
  · split
    · exact builder.gains_saveLeaf (allows_of_plain .scopeResolutionOperator _ rfl)
    · split
      · exact builder.gains_saveLeaf (allows_of_plain .other _ rfl)
      · exact stray
  · exact stray

theorem respects_comma : builder.Respects (reading.comma builder) :=
  (Adds.ite (Builder.adds_enter _ (allows_of_plain _ _ rfl)) (.ok (.refl _))).after
    (builder.gains_saveLeaf (allows_of_plain .comma _ rfl))

theorem respects_equalsSign : builder.Respects (reading.equalsSign builder) :=
  (Adds.ite (Builder.adds_enter _ (allows_of_plain _ _ rfl)) (.ok (.refl _))).after
    (builder.gains_saveLeaf (allows_of_plain .equalsSign _ rfl))

theorem respects_trivia : builder.Respects (reading.trivia builder) := by
  have plain :=
    allows_of_plain reading.token.kind.leafKind reading.value (TokenKind.plain_leafKind _)
  exact .ite (builder.adds_saveLeafBefore plain _) (.ok (builder.gains_saveLeaf plain))

/-- Every token is taken. -/
theorem respects_take (phrase : reading.phrase = .ofTokens reading.source)
    (clean : ∀ token ∈ reading.source, token.IsClean) :
    builder.StepRespects (reading.take builder) := by
  rw [Reading.take]
  split
  next => exact (respects_openParens builder).done
  next => exact (respects_closeParens builder).done
  next isWord => exact OnWord.respects_takeWord builder ⟨isWord, phrase⟩ clean
  next => exact .ok (builder.gains_saveLeaf (allows_of_plain .semicolon _ rfl))
  next => exact respects_colon builder
  next => exact (respects_comma builder).done
  next => exact (respects_equalsSign builder).done
  next =>
    exact .ite (respects_trivia builder).done
      (.ok (builder.gains_saveLeaf (allows_of_plain _ _ (TokenKind.plain_leafKind _))))

end Reading

/-! ### Documents -/

theorem Builder.respects_readAll (builder : Builder) (previous : Option Token) {tokens : List Token}
    (clean : ∀ token ∈ tokens, token.IsClean) :
    builder.Respects (builder.readAll previous tokens) := by
  fun_induction Builder.readAll builder previous tokens with
  | case1 => exact .ok (.refl _)
  | case2 => exact .error _
  | case3 builder previous token rest next used taken ih =>
    have later : ∀ token ∈ rest.drop used, token.IsClean :=
      fun other member => clean other (.tail _ (List.mem_of_mem_drop member))
    let reading : Reading := { previous, token, rest, phrase := .ofTokens (token :: rest) }
    have respects : builder.StepRespects (reading.take builder) :=
      Reading.respects_take builder rfl clean
    exact (ih later).after (respects (next, used) taken)

theorem Builder.respects_finish (builder : Builder) (unfinished : Bool) :
    Adds .reserved (fun tree => tree) builder.tree (builder.finish unfinished) := by
  have marked : ∀ (builder : Builder) (marks : Bool),
      builder.tree.Gains .reserved (builder.markIf marks).tree := by
    intro builder marks
    cases marks with
    | false => exact .refl builder.tree
    | true => exact builder.gains_markError
  rw [finish_eq]
  intro tree isOk
  cases found : (builder.markIf unfinished).findBatchEnd with
  | error error =>
    rw [found] at isOk
    cases isOk
  | ok result =>
    rw [found] at isOk
    obtain rfl := Except.ok.inj isOk
    exact ((marked builder unfinished).trans (adds_findBatchEnd _ result found)).trans
      (marked result.1 _)

/-- In the tree of a token list whose words are clean, every word that is written in the case of
keywords is reserved. -/
theorem Tree.ofTokens_reserves {list : TokenList} (clean : ∀ token ∈ list.tokens, token.IsClean)
    {tree : Tree} (isOk : Tree.ofTokens list = .ok tree) (id : NodeId)
    (respelled : (tree.kind id).isRespelled = true) :
    Keyword.isReserved (Text.upper (tree.text id)) = true := by
  have gains : Builder.start.tree.Gains .reserved tree :=
    ((Builder.start.respects_readAll none clean).bind fun builder =>
      builder.respects_finish _) tree isOk
  rcases Nat.lt_or_ge id Builder.start.tree.size with known | fresh
  · have plain : ∀ id < Builder.start.tree.size, (Builder.start.tree.kind id).isRespelled =
        false := by decide
    rw [(gains.old id known).1, plain id known] at respelled
    cases respelled
  · rcases Nat.lt_or_ge id tree.size with inside | outside
    · exact gains.new id fresh inside respelled
    · rw [tree.kind_of_size_le id outside] at respelled
      cases respelled

end SqlLayout
