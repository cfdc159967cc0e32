import SqlLayout.Grammar.Words
import SqlLayout.Proofs.Grammar.Blocks
import SqlLayout.Proofs.Grammar.Definitions
import SqlLayout.Proofs.Grammar.Queries

/-!
# Words complete

Whichever rule takes a word, it succeeds.
-/

namespace SqlLayout.Reading

variable {reading : Reading} {builder : Builder} {tokens : List Token} {draft : Draft}

theorem OnWord.label (onWord : reading.OnWord) (located : builder.At tokens draft)
    (isOpen : draft.IsOpen) (isLabel : reading.isLabel = true) :
    Completes tokens reading.source (reading.label builder) := by
  refine (located.considerStatement isOpen).thenStep fun builder draft located isOpen => ?_
  obtain ⟨next, after, rest⟩ : ∃ next after, reading.rest = next :: after := by
    refine List.exists_cons_of_ne_nil fun none => ?_
    simp [Reading.isLabel, none] at isLabel
  have isColon : next.kind = .colon := by
    rw [Reading.isLabel, rest, Bool.and_eq_true] at isLabel
    exact eq_of_beq isLabel.1
  have source : reading.source.take 2 = [reading.token, next] := by rw [Reading.source, rest]; rfl
  have read : ∀ id,
      Outline.ReadAs [.leaf id .label (reading.value ++ ":")] [reading.token, next] := by
    refine fun id =>
      .leaf id rfl (by simp [Token.isPlain, isColon, onWord.isWord]) fun faithful => ?_
    have colon := faithful next (by simp)
    rw [Token.Faithful, isColon] at colon
    rw [← List.singleton_append, Token.symbolsOf_append, Token.symbolsOf_singleton,
      Token.symbolsOf_singleton]
    simp [Token.symbols, isColon, onWord.isWord, colon, TokenKind.isTrivia, TokenKind.isComment,
      NodeKind.symbols, NodeKind.isTrivia, NodeKind.isComment, NodeKind.isParens, NodeKind.tokens,
      Reading.value, Symbol.ofLabel_append]
  obtain ⟨saved, other, isOk, located, atRest⟩ := located.saveLeaf isOpen read rfl
  exact ⟨saved, 1, other, by rw [Except.ok.inj isOk]; rfl, source ▸ located, atRest⟩

theorem OnWord.otherWord (onWord : reading.OnWord) (located : builder.At tokens draft)
    (isOpen : draft.IsOpen) : Completes tokens reading.source (reading.otherWord builder) := by
  refine (located.optional isOpen (located.considerStatement isOpen) _).thenStep_ite
    fun builder _ located isOpen => ?_
  refine (located.optional isOpen (located.considerClause isOpen) _).thenStep_ite
    fun builder _ located isOpen => ?_
  dsimp only
  split
  next => exact (onWord.saveTyped located isOpen).done
  next count found =>
    exact (located.optional isOpen (located.considerClause isOpen) _).thenStep_ite
      fun builder draft located isOpen => onWord.completesKeyword located isOpen
        fun _ => Phrase.exact_of_compoundLength? found

theorem OnWord.keywordRule (onWord : reading.OnWord) (located : builder.At tokens draft)
    (isOpen : draft.IsOpen) : Completes tokens reading.source (reading.keywordRule builder) := by
  have opens : ∀ {kind body : NodeKind}, kind.parents = NodeKind.holders →
      kind.opensWith body = true → body ∈ NodeKind.holders →
      Completes tokens reading.source (.done (reading.enter builder kind body)) :=
    fun anywhere shape holder => ((onWord.enterHere located isOpen anywhere shape).imp
      fun _ entered => entered.atRest holder).done
  have defines : ∀ {kind : NodeKind}, kind.parents = NodeKind.holders → kind.isParens = false →
      kind ∈ NodeKind.holders →
      Completes tokens reading.source (.done (reading.definition builder kind)) :=
    fun anywhere plain holder => (onWord.definition located isOpen anywhere plain holder).done
  have other := onWord.otherWord located isOpen
  rw [Reading.keywordRule]
  split
  · exact opens rfl rfl (by decide)
  · exact (onWord.when_ located isOpen).done
  · exact (onWord.then_ located isOpen).done
  · exact (onWord.else_ located isOpen).done
  · exact onWord.end_ located isOpen
  next isBegin => exact onWord.begin_ located isOpen (isBegin ▸ by decide)
  · exact onWord.transaction located isOpen rfl
  · exact onWord.transaction located isOpen rfl
  · split
    · exact onWord.transaction located isOpen rfl
    · exact other
  · exact (onWord.batchSeparator located isOpen).done
  · exact (onWord.conditional located isOpen rfl rfl).done
  · exact (onWord.conditional located isOpen rfl rfl).done
  · exact defines rfl rfl (by decide)
  · exact defines rfl rfl (by decide)
  · exact defines rfl rfl (by decide)
  · exact (onWord.permissions located isOpen).done
  · exact (onWord.permissions located isOpen).done
  · exact (onWord.permissions located isOpen).done
  · split
    next inside => exact (onWord.permissionsRecipient located inside).done
    next => exact other
  · split
    next inside => exact (onWord.permissionsRecipient located inside).done
    next => exact (onWord.from_ located isOpen).done
  · exact (onWord.cascade located isOpen).done
  · split
    · exact (onWord.returns located isOpen).done
    · exact other
  · exact (onWord.as_ located isOpen).done
  · exact (onWord.for_ located isOpen).done
  · exact (onWord.with_ located isOpen).done
  · exact (onWord.on_ located isOpen).done
  · split
    next inside => exact (onWord.mergeUsing located inside).done
    next => exact other
  · exact (onWord.merge located isOpen).done
  · exact (onWord.select located isOpen).done
  · exact (onWord.update located isOpen).done
  · exact (onWord.set located isOpen).done
  next isExec => exact onWord.execute located isOpen (isExec ▸ by decide)
  next isExecute => exact onWord.execute located isOpen (isExecute ▸ by decide)
  · exact opens rfl rfl (by decide)
  · exact (onWord.and_ located isOpen).done
  · exact (onWord.logicalOperator located isOpen (.inr rfl)).done
  · exact onWord.setOperator located isOpen
  · exact onWord.setOperator located isOpen
  · exact onWord.setOperator located isOpen
  · exact other

/-- Every word is taken. -/
theorem OnWord.takeWord (onWord : reading.OnWord) (located : builder.At tokens draft)
    (isOpen : draft.IsOpen) : Completes tokens reading.source (reading.takeWord builder) := by
  rw [Reading.takeWord]
  split
  next inside => exact (onWord.permissionsDetail located inside).done
  split
  next isLabel => exact onWord.label located isOpen isLabel
  split
  next => exact (onWord.definition located isOpen rfl rfl (by decide)).done
  split
  next => exact (onWord.definition located isOpen rfl rfl (by decide)).done
  split
  next words found =>
    rw [Reading.triggerWords?] at found
    split at found
    · exact onWord.triggerCondition located isOpen found
    · simp at found
  split
  next words found => exact onWord.join located isOpen found
  next => exact onWord.keywordRule located isOpen

end SqlLayout.Reading
