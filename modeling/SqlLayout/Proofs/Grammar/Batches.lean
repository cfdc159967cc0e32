import SqlLayout.Proofs.Builder.Supply
import SqlLayout.Proofs.Grammar.Branching
import SqlLayout.Proofs.Token.Lines

/-!
# `GO` on a line of its own

Where a batch may end, `GO` is set apart as a batch separator if its line of the script holds
nothing else but blanks and a comment that runs to the line's end. Blanks in front of it are
accepted only if the token that holds them also holds the line break before them: the line break at
the end of a comment does not count for the blanks that follow the comment, and neither does the
start of the script.
-/

namespace SqlLayout

/-- Nodes of every kind but batch separators. -/
def Supply.inBatch : Supply where
  allows kind _ := kind ≠ .batchSeparator
  statement := by decide
  clause := by decide
  body := by decide

theorem Tree.Gains.inBatch {tree grown : Tree} (gains : tree.Gains .inBatch grown) :
    ∀ id, tree.size ≤ id → grown.kind id ≠ .batchSeparator := by
  intro id fresh
  rcases Nat.lt_or_ge id grown.size with known | unknown
  · exact gains.new id fresh known
  · rw [grown.kind_of_size_le id unknown]
    decide

/-! ### The rule for `GO` -/

namespace Phrase

theorem text_of_go {phrase : Phrase} (isGo : phrase.word 0 = "GO") :
    ∃ rest, phrase.text = 'G' :: 'O' :: ' ' :: rest := by
  obtain ⟨words⟩ := phrase
  cases words with
  | nil => exact absurd isGo (by decide)
  | cons first words =>
    have isFirst : first.text = "GO" := isGo
    exact ⟨_, by rw [Phrase.text, List.flatMap_cons, isFirst]; rfl⟩

end Phrase

namespace Reading

variable {reading : Reading} {builder : Builder}

theorem takeWord_of_go (isGo : reading.word = "GO")
    (outside : builder.isIn [.permissionsDetail] = false) (noLabel : reading.isLabel = false) :
    reading.takeWord builder = .done (reading.batchSeparator builder) := by
  obtain ⟨rest, isText⟩ := Phrase.text_of_go isGo
  have noProcedure : reading.phrase.isProceduralDefinition = false := by
    rw [Phrase.isProceduralDefinition, show reading.phrase.word 0 = "GO" from isGo]
    rfl
  have noCursor : reading.phrase.declaresCursor = false := by
    rw [Phrase.declaresCursor, isText]
    rfl
  have noTrigger : reading.triggerWords? builder = none := by
    rw [triggerWords?, Phrase.triggerLength?, isText]
    split <;> rfl
  have noJoin : reading.phrase.joinLength? = none := by
    rw [Phrase.joinLength?, isText]
    rfl
  rw [takeWord, outside, noLabel, noProcedure, noCursor, noTrigger, noJoin, keywordRule, isGo]
  rfl

theorem batchSeparator_of_alone {left found : Builder}
    (isLeft : builder.leaveStatementContainers = .ok left)
    (isEnd : left.findBatchEnd = .ok (found, true)) (alone : reading.isAloneOnLine = true) :
    reading.batchSeparator builder =
      .ok (((found.saveIn Tree.root .batchSeparator "").1.saveLeafIn found.tree.size .otherKeyword
        reading.value).startStatementIn Tree.root) := by
  rw [batchSeparator, isLeft, ok_bind, alone, if_pos rfl, isEnd, ok_bind]
  rfl

theorem batchSeparator_of_beside {left : Builder}
    (isLeft : builder.leaveStatementContainers = .ok left)
    (beside : reading.isAloneOnLine = false) :
    reading.batchSeparator builder = .ok (left.saveLeaf .other reading.value) := by
  rw [batchSeparator, isLeft, ok_bind, beside]
  rfl

theorem isAloneOnLine_eq :
    reading.isAloneOnLine =
      (reading.previous.all Token.endsLine && TokenList.endLine reading.rest) := by
  rw [isAloneOnLine]
  cases reading.rest <;> rfl

theorem not_isAloneOnLine_of_isLabel (isLabel : reading.isLabel = true) :
    reading.isAloneOnLine = false := by
  rw [Reading.isLabel] at isLabel
  split at isLabel
  next next after isRest =>
    have isColon : next.kind = .colon := eq_of_beq (Bool.and_eq_true_iff.mp isLabel).1
    simp [isAloneOnLine_eq, isRest, TokenList.endLine, Token.endsLine, isColon]
  next => cases isLabel

end Reading

namespace Builder

variable {builder : Builder}

theorem isIn_of_cursorKind_ne {kind : NodeKind} {others : List NodeKind}
    (other : builder.cursorKind ≠ kind) : builder.isIn (kind :: others) = false := by
  have here : (builder.tree.kind builder.cursor == kind) = false := by
    simpa [cursorKind] using other
  cases others <;> simp [isIn, Tree.pathIs, here]

/-- No batch ends among the permissions of a statement. -/
theorem findBatchEnd_of_permissions (inside : builder.isIn [.permissionsDetail] = true) :
    builder.leaveStatementContainers = .ok builder ∧
      builder.findBatchEnd = .ok (builder, false) := by
  have isDetail : builder.cursorKind = .permissionsDetail := by
    simpa [isIn, Tree.pathIs, cursorKind] using inside
  have outside : ∀ kind others, kind ≠ .permissionsDetail →
      builder.isIn (kind :: others) = false := by
    intro kind others other
    exact isIn_of_cursorKind_ne (isDetail ▸ other.symm)
  have bodies : ∀ bound, builder.leaveSingleBodies bound = .ok builder := by
    intro bound
    cases bound with
    | zero => rfl
    | succ bound => rw [leaveSingleBodies, outside _ _ (by decide), if_neg (by decide)]
  have stays : builder.leaveStatementContainers = .ok builder := by
    simp [leaveStatementContainers, leaveBetween, leaveSelectionTarget, leaveJoinCondition,
      leaveCursorQuery, leaveMergeAction, leavePartialStatement, outside, ok_bind, bodies]
  refine ⟨stays, ?_⟩
  simp [findBatchEnd, nextStatementContainer, stays, ok_bind, outside]
  rfl

theorem not_isIn_permissions {left found : Builder}
    (isLeft : builder.leaveStatementContainers = .ok left)
    (isEnd : left.findBatchEnd = .ok (found, true)) :
    builder.isIn [.permissionsDetail] = false := by
  cases inside : builder.isIn [.permissionsDetail] with
  | false => rfl
  | true =>
    obtain ⟨stays, noEnd⟩ := findBatchEnd_of_permissions inside
    obtain rfl := Except.ok.inj (stays.symm.trans isLeft)
    rw [noEnd] at isEnd
    cases isEnd

end Builder

/-! ### The token in hand -/

/-- The tokens that were read end with the one right before the next token. -/
def Progress.Follows (list : TokenList) (progress : Progress) : Prop :=
  ∃ read, list.tokens = read ++ progress.rest ∧
    (progress.rest ≠ [] → progress.previous = read.getLast?)

theorem Progress.Advance.follows {list : TokenList} {progress next : Progress}
    (advance : progress.Advance next) (follows : progress.Follows list) : next.Follows list := by
  cases advance with
  | @token _ _ previous token rest used _ =>
    obtain ⟨read, split, _⟩ := follows
    refine ⟨read ++ (token :: rest).take (used + 1), ?_, fun more => ?_⟩
    · rw [split, List.append_assoc, List.take_succ_cons, List.cons_append, List.take_append_drop]
    · have within : used < rest.length := by simpa using more
      have known : used < (token :: rest).length := Nat.lt_succ_of_lt within
      have isLast : ((token :: rest).take (used + 1)).getLast? = (token :: rest)[used]? := by
        rw [List.getLast?_eq_getElem?, List.length_take, Nat.min_eq_left known, Nat.succ_sub_one,
          List.getElem?_take_of_lt (Nat.lt_succ_self used)]
      rw [List.getLast?_append, isLast, List.getElem?_eq_getElem known]
      rfl

theorem Progress.Advances.follows {list : TokenList} {progress : Progress}
    (advances : (Progress.start list).Advances progress) : progress.Follows list := by
  induction advances with
  | refl => exact ⟨[], rfl, fun _ => rfl⟩
  | tail _ advance ih => exact advance.follows ih

/-- Whether what stands between two parts of a script is alone on its line, up to blanks around it
and a comment behind it that runs to the end of the line. -/
def standsAlone (before after : List Char) : Bool :=
  (lineBefore before).all Text.isBlank && isLineEnd (lineAfter after)

def Token.indents (token : Token) : Bool :=
  token.kind == .whiteSpace && !containsLineBreak token.value

/-- The tokens around a word tell whether it stands alone on its line, unless it is indented by a
token of its own. -/
theorem TokenList.isAloneOnLine_eq {script : String} {read rest : List Token} {token : Token}
    (isTokens : (TokenList.ofText script).tokens = read ++ token :: rest)
    (solid : token.kind.isSolid = true) (phrase : Phrase) :
    ∃ before after, script.toList = before ++ token.value.toList ++ after ∧
      byteSize before = token.span.start ∧
      Reading.isAloneOnLine { previous := read.getLast?, token, rest, phrase } =
        (standsAlone before after && !read.getLast?.any Token.indents) := by
  obtain ⟨before, more, split, isMore, atStart, ends⟩ := scanFrom_split isTokens
  cases more with
  | nil => simp [scanFrom] at isMore
  | cons c tail =>
    rw [scanFrom_cons] at isMore
    obtain ⟨rfl, isRest⟩ := List.cons_eq_cons.mp isMore
    have covers := Scan.covers_first c tail
    rw [Scan.Covers, Scan.lexeme_eq_value solid] at covers
    refine ⟨before, (Scan.first c tail).rest, ?_, ?_, ?_⟩
    · rw [split, ← covers]
      simp [Scan.token]
    · simp [Scan.token]
    · have isEnd : endLine rest = isLineEnd (lineAfter (Scan.first c tail).rest) := by
        rw [← endLine_scanFrom (0 + byteSize before + byteSize (Scan.first c tail).lexeme),
          ← isRest]
        rfl
      rw [Reading.isAloneOnLine_eq, isEnd, standsAlone]
      cases last : read.getLast? with
      | none =>
        rw [atStart (List.getLast?_eq_none_iff.mp last)]
        simp [lineBefore]
      | some blank =>
        have isStart := (ends blank last).endsLine (List.cons_ne_nil c tail)
        rw [Option.all_some, Option.any_some, isStart, Token.indents, Bool.not_and,
          Bool.not_not, Bool.and_assoc, Bool.and_assoc, Bool.and_comm (isLineEnd _)]
        rfl

/-! ### Separators -/

/-- A word was set apart: a new batch separator right below the root holds it. -/
def Tree.Separates (tree grown : Tree) (word : String) : Prop :=
  ∃ separator leaf, tree.size ≤ separator ∧ grown.kind separator = .batchSeparator ∧
    grown.parent separator = some root ∧ grown.parent leaf = some separator ∧
    grown.kind leaf = .otherKeyword ∧ grown.text leaf = word

theorem Tree.text_append (tree : Tree) (parent : NodeId) (kind : NodeKind) (text : String)
    (id : NodeId) :
    (tree.append parent kind text).1.text id = if id = tree.size then text else tree.text id := by
  rw [append_eq_relink, text_relink, Tree.text, node_create, apply_ite Node.text]
  rfl

theorem Builder.separates (builder : Builder) (word : String) :
    builder.tree.Separates
      (((builder.saveIn Tree.root .batchSeparator "").1.saveLeafIn builder.tree.size .otherKeyword
        word).startStatementIn Tree.root).tree word := by
  -- The statement and the clause of the next batch come after both.
  have first : builder.tree.size ≠ builder.tree.size + 1 + 1 := by omega
  have second : builder.tree.size ≠ builder.tree.size + 1 + 1 + 1 := by omega
  refine ⟨builder.tree.size, builder.tree.size + 1, Nat.le_refl _, ?_, ?_, ?_, ?_, ?_⟩ <;>
    simp [Builder.saveIn, Builder.saveLeafIn, Builder.startStatementIn, Tree.kind_append,
      Tree.parent_append, Tree.text_append, first, second]

theorem Tree.Separates.mono {tree grown final : Tree} {word : String}
    (separates : grown.Separates final word) (size : tree.size ≤ grown.size) :
    tree.Separates final word := by
  obtain ⟨separator, leaf, fresh, shape⟩ := separates
  exact ⟨separator, leaf, Nat.le_trans size fresh, shape⟩

namespace Reading

variable {reading : Reading} {builder left found : Builder} {tokens : List Token} {draft : Draft}

/-- A `GO` that the tokens around it leave alone is set apart where a batch may end. -/
theorem separates_of_alone (isGo : reading.word = "GO")
    (outside : builder.isIn [.permissionsDetail] = false)
    (isLeft : builder.leaveStatementContainers = .ok left)
    (isEnd : left.findBatchEnd = .ok (found, true)) (alone : reading.isAloneOnLine = true) :
    ∃ next, reading.takeWord builder = .ok (next, 0) ∧
      builder.tree.Separates next.tree reading.value := by
  have noLabel : reading.isLabel = false := by
    cases isLabel : reading.isLabel with
    | false => rfl
    | true =>
      rw [not_isAloneOnLine_of_isLabel isLabel] at alone
      cases alone
  have taken := takeWord_of_go isGo outside noLabel
  rw [batchSeparator_of_alone isLeft isEnd alone] at taken
  have gains : builder.tree.Gains .inBatch found.tree :=
    (builder.adds_leaveStatementContainers left isLeft).trans
      (left.adds_findBatchEnd (found, true) isEnd)
  exact ⟨_, taken, (found.separates reading.value).mono gains.size⟩

theorem gains_of_beside (located : builder.At tokens draft) (isOpen : draft.IsOpen)
    (isGo : reading.word = "GO") (outside : builder.isIn [.permissionsDetail] = false)
    (beside : reading.isAloneOnLine = false) :
    ∃ next used, reading.takeWord builder = .ok (next, used) ∧
      builder.tree.Gains .inBatch next.tree := by
  cases isLabel : reading.isLabel with
  | true =>
    obtain ⟨next, _, isOk, _, _⟩ := located.considerStatement isOpen
    refine ⟨next.saveLeaf .label (reading.value ++ ":"), 1, ?_, ?_⟩
    · rw [takeWord, outside, isLabel, if_neg (by decide), if_pos rfl, label, isOk]
      rfl
    · have other : NodeKind.label ≠ .batchSeparator := by decide
      exact (builder.adds_considerStatement next isOk).trans (next.gains_saveLeaf other)
  | false =>
    obtain ⟨left, _, isLeft, _, _⟩ := located.leaveStatementContainers isOpen
    refine ⟨left.saveLeaf .other reading.value, 0, ?_, ?_⟩
    · rw [takeWord_of_go isGo outside isLabel, batchSeparator_of_beside isLeft beside]
      rfl
    · have other : NodeKind.other ≠ .batchSeparator := by decide
      exact (builder.adds_leaveStatementContainers left isLeft).trans (left.gains_saveLeaf other)

end Reading

/-- While a script is read, a `GO` that is reached where a batch may end is set apart as a batch
separator if its line of the script holds besides it only blanks, and behind it a comment that runs
to the end of the line, unless it is indented by a token that does not hold the line break before
it. In all other cases it becomes no batch separator. -/
theorem Tree.ofText_separates (script : String) {progress : Progress} {go : Token}
    {rest : List Token} {left found : Builder}
    (advances : (Progress.start (.ofText script)).Advances progress)
    (isNext : progress.rest = go :: rest) (isWord : go.kind = .word)
    (isGo : Text.upper go.value = "GO")
    (isLeft : progress.builder.leaveStatementContainers = .ok left)
    (isEnd : left.findBatchEnd = .ok (found, true)) :
    ∃ read before after next used, (TokenList.ofText script).tokens = read ++ go :: rest ∧
      script.toList = before ++ go.value.toList ++ after ∧ byteSize before = go.span.start ∧
      Reading.take
        { previous := progress.previous, token := go, rest, phrase := .ofTokens (go :: rest) }
          progress.builder = .ok (next, used) ∧
      (standsAlone before after = true ∧ read.getLast?.any Token.indents = false →
        progress.builder.tree.Separates next.tree go.value) ∧
      (standsAlone before after = false ∨ read.getLast?.any Token.indents = true →
        ∀ id, progress.builder.tree.size ≤ id → next.tree.kind id ≠ .batchSeparator) := by
  obtain ⟨read, split, isPrevious⟩ := Progress.Advances.follows advances
  obtain ⟨_, draft, _, located, atRest⟩ := advances.sound (Progress.sound_start _)
  have isOpen := atRest.isOpen
  rw [isNext] at split isPrevious
  rw [isPrevious (List.cons_ne_nil go rest)]
  have solid : go.kind.isSolid = true := by
    rw [isWord]
    rfl
  obtain ⟨before, after, isScript, isStart, alone⟩ :=
    TokenList.isAloneOnLine_eq split solid (.ofTokens (go :: rest))
  generalize isReading :
      ({ previous := read.getLast?, token := go, rest, phrase := .ofTokens (go :: rest) } :
    Reading) = reading at alone
  have isFirst : reading.word = "GO" := by
    simp [← isReading, Reading.word, Phrase.word, Phrase.ofTokens, Phrase.maxLength,
      Phrase.collect, Phrase.partOf, isWord, isGo]
  have outside := Builder.not_isIn_permissions isLeft isEnd
  have takes : reading.take progress.builder = reading.takeWord progress.builder := by
    rw [Reading.take, ← isReading, isWord]
  cases isAlone : reading.isAloneOnLine with
  | true =>
    obtain ⟨next, taken, separates⟩ :=
      Reading.separates_of_alone isFirst outside isLeft isEnd isAlone
    refine ⟨read, before, after, next, 0, split, isScript, isStart, takes.trans taken, fun _ => ?_,
      fun other => ?_⟩
    · rw [← isReading] at separates
      exact separates
    · rw [isAlone] at alone
      rcases other with other | other <;> simp [other] at alone
  | false =>
    obtain ⟨next, used, taken, gains⟩ :=
      Reading.gains_of_beside located isOpen isFirst outside isAlone
    refine ⟨read, before, after, next, used, split, isScript, isStart, takes.trans taken, ?_,
      fun _ => gains.inBatch⟩
    rintro ⟨here, there⟩
    rw [isAlone, here, there] at alone
    cases alone

/-- The state behind a blank that opens a script: the cursor stays in the empty clause that the
blank stands before. -/
def Builder.indented (blank : String) : Builder where
  tree :=
    { nodes :=
        #[{ kind := .root, text := "", children := [1] },
          { kind := .statement, text := "", parent := some 0, children := [3, 2] },
          { kind := .clause, text := "", parent := some 1 },
          { kind := .whiteSpace, text := blank, parent := some 1 }] }
  cursor := 2
  statementDue := false

theorem Progress.advances_indented {list : TokenList} {blank : String} {span : Span}
    {rest : List Token} (isTokens : list.tokens = ⟨.whiteSpace, blank, span⟩ :: rest) :
    (Progress.start list).Advances
      { builder := .indented blank, previous := some ⟨.whiteSpace, blank, span⟩, rest } := by
  rw [Progress.start, isTokens]
  exact .single (@Advance.token .start (.indented blank) none _ rest 0 rfl)

theorem Builder.leaveStatementContainers_indented (blank : String) :
    (indented blank).leaveStatementContainers = .ok (indented blank) := rfl

theorem Builder.findBatchEnd_indented (blank : String) :
    (indented blank).findBatchEnd = .ok (indented blank, true) := rfl

/-- An indented `go` behind a line break, with a comment behind it, is a batch separator. -/
theorem Tree.ofText_separates_indented :
    ∃ progress next used, (Progress.start (.ofText "\n\tgo -- next\n")).Advances progress ∧
      progress.rest =
        [⟨.word, "go", ⟨2, 4⟩⟩, ⟨.whiteSpace, " ", ⟨4, 5⟩⟩, ⟨.lineComment, " next\n", ⟨5, 13⟩⟩] ∧
      progress.builder.leaveStatementContainers = .ok progress.builder ∧
      progress.builder.findBatchEnd = .ok (progress.builder, true) ∧
      Reading.take
        { previous := progress.previous, token := ⟨.word, "go", ⟨2, 4⟩⟩
          rest := [⟨.whiteSpace, " ", ⟨4, 5⟩⟩, ⟨.lineComment, " next\n", ⟨5, 13⟩⟩]
          phrase := .ofTokens progress.rest } progress.builder = .ok (next, used) ∧
      standsAlone ['\n', '\t'] " -- next\n".toList = true ∧
      progress.builder.tree.Separates next.tree "go" := by
  have isTokens : (TokenList.ofText "\n\tgo -- next\n").tokens =
      [⟨.whiteSpace, "\n\t", ⟨0, 2⟩⟩, ⟨.word, "go", ⟨2, 4⟩⟩, ⟨.whiteSpace, " ", ⟨4, 5⟩⟩,
        ⟨.lineComment, " next\n", ⟨5, 13⟩⟩] := by decide +kernel
  have advances := Progress.advances_indented isTokens
  obtain ⟨read, before, after, next, used, isRead, isScript, isStart, taken, separates, _⟩ :=
    Tree.ofText_separates _ advances rfl rfl (by decide +kernel)
      (Builder.leaveStatementContainers_indented _)
      (Builder.findBatchEnd_indented _)
  have isSplit : "\n\tgo -- next\n".toList =
      ['\n', '\t'] ++ ("go".toList ++ " -- next\n".toList) := by
    decide +kernel
  rw [isSplit, List.append_assoc] at isScript
  obtain ⟨rfl, isRest⟩ := append_inj_of_byteSize isScript isStart.symm
  obtain rfl := List.append_cancel_left isRest
  have alone : standsAlone ['\n', '\t'] " -- next\n".toList = true := by decide +kernel
  refine ⟨_, next, used, advances, rfl, Builder.leaveStatementContainers_indented _,
    Builder.findBatchEnd_indented _, taken, alone, separates ⟨alone, ?_⟩⟩
  rw [isTokens] at isRead
  obtain rfl : read = [⟨.whiteSpace, "\n\t", ⟨0, 2⟩⟩] :=
    List.append_cancel_right (isRead.symm.trans (List.singleton_append.symm))
  rfl

/-- A `GO` that is indented on the first line is missed, although it stands alone there and the
batch may end. -/
theorem Tree.ofText_misses_indented :
    ∃ progress next, (Progress.start (.ofText " GO")).Advances progress ∧
      progress.rest = [⟨.word, "GO", ⟨1, 3⟩⟩] ∧
      progress.builder.leaveStatementContainers = .ok progress.builder ∧
      progress.builder.findBatchEnd = .ok (progress.builder, true) ∧
      Reading.take
        { previous := progress.previous, token := ⟨.word, "GO", ⟨1, 3⟩⟩, rest := []
          phrase := .ofTokens progress.rest } progress.builder = .ok (next, 0) ∧
      " GO".toList = [' '] ++ "GO".toList ++ [] ∧ standsAlone [' '] [] = true ∧
      ∀ id < next.tree.size, next.tree.kind id ≠ .batchSeparator := by
  have isTokens : (TokenList.ofText " GO").tokens =
      [⟨.whiteSpace, " ", ⟨0, 1⟩⟩, ⟨.word, "GO", ⟨1, 3⟩⟩] := by
    decide +kernel
  refine ⟨_, (Builder.indented " ").saveLeaf .other "GO", Progress.advances_indented isTokens, rfl,
    Builder.leaveStatementContainers_indented _, Builder.findBatchEnd_indented _, ?_, ?_, ?_, ?_⟩
  all_goals decide +kernel

end SqlLayout
