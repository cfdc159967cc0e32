import SqlLayout.Proofs.Grammar.Keyword
import SqlLayout.Proofs.Likeness.Builder
import SqlLayout.Proofs.Likeness.Phrase

/-!
# Alike tokens in hand

Two readings of alike token lists at the same place. What becomes of the token in hand, and of the
keyword of several words that it starts, is alike in both.
-/

namespace SqlLayout

namespace Token.Alike

variable {likeness : Likeness} {token other : Token} (alike : token.Alike likeness other)
include alike

theorem endsLine : token.endsLine = other.endsLine := by
  have breaks := alike.breaks
  rw [Token.endsLine, Token.endsLine, ← alike.kind]
  split
  case h_1 isBlank => exact breaks (.inl isBlank)
  all_goals rfl

theorem reads_keyword (isWord : token.kind = .word) :
    NodeKind.Reads likeness .otherKeyword token.value other.value where
  container := by simp [NodeKind.isLeaf]
  breaks := by simp
  letters _ := alike.letters isWord
  exact isStrict _ := alike.exact isStrict (by simp [isWord])

theorem reads_leaf : token.kind.leafKind.Reads likeness token.value other.value where
  container hollow := by
    rw [TokenKind.isLeaf_leafKind] at hollow
    cases hollow
  breaks broken := by
    apply alike.breaks
    revert broken
    cases token.kind <;> simp [TokenKind.leafKind]
  letters named := by
    revert named
    cases token.kind <;> simp [TokenKind.leafKind]
  exact isStrict written := by
    refine alike.exact isStrict fun isBlank => written ?_
    rw [isBlank]
    rfl

theorem wordKind (isWord : token.kind = .word) : wordKind token.value = wordKind other.value := by
  rw [SqlLayout.wordKind, SqlLayout.wordKind, alike.letters isWord]

theorem reads_typed (isWord : token.kind = .word) :
    (SqlLayout.wordKind token.value).Reads likeness token.value other.value := by
  have word := alike.letters isWord
  have exact : likeness.exact → token.value = other.value :=
    fun isStrict => alike.exact isStrict (by simp [isWord])
  rw [SqlLayout.wordKind]
  split
  all_goals exact ⟨by simp [NodeKind.isLeaf], by simp, fun _ => word,
    fun isStrict _ => exact isStrict⟩

end Token.Alike

/-- A leaf whose text the grammar never looks at. -/
theorem NodeKind.reads_of_eq {likeness : Likeness} {kind : NodeKind} {text other : String}
    (unread : kind.isLeaf = true ∧ kind ≠ .whiteSpace ∧ kind ≠ .blockComment ∧
      kind ≠ .otherKeyword ∧ kind ≠ .alphaOperator)
    (same : likeness.exact → text = other) : kind.Reads likeness text other where
  container hollow := by simp [unread.1] at hollow
  breaks broken := (broken.elim unread.2.1 unread.2.2.1).elim
  letters named := (named.elim unread.2.2.2.1 unread.2.2.2.2).elim
  exact isStrict _ := same isStrict

/-! ### Steps -/

structure Step.Alike (likeness : Likeness) (result twin : Builder × Nat) : Prop where
  builder : result.1.Alike likeness twin.1
  used : result.2 = twin.2

theorem Agree.done {likeness : Likeness} {result twin : Except TreeError Builder}
    (agree : Agree (Builder.Alike likeness) result twin) :
    Agree (Step.Alike likeness) (Step.done result) (Step.done twin) :=
  agree.map fun _ _ alike => ⟨alike, rfl⟩

theorem Builder.Alike.saveTokens {likeness : Likeness} {tokens others : List Token}
    (same : List.Forall₂ (Token.Alike likeness) tokens others) {builder other : Builder}
    (alike : builder.Alike likeness other) {parent : NodeId} (hollow : builder.tree.Hollow parent) :
    (builder.saveTokens parent tokens).Alike likeness (other.saveTokens parent others) ∧
      ∀ {old : NodeId}, builder.tree.Hollow old →
      (builder.saveTokens parent tokens).tree.Hollow old := by
  induction same generalizing builder other with
  | nil => exact ⟨alike, fun hollow => hollow⟩
  | @cons token twin _ _ same _ ih =>
    rw [Builder.saveTokens, Builder.saveTokens, ← same.kind]
    have reads :
        (if token.kind = .word then NodeKind.otherKeyword else token.kind.leafKind).Reads likeness
        token.value twin.value := by
      split
      next isWord => exact same.reads_keyword isWord
      · exact same.reads_leaf
    obtain ⟨alike, older⟩ := ih (alike.saveLeafIn hollow reads) (hollow.append ..)
    exact ⟨alike, fun old => older (old.append ..)⟩

namespace Reading

/-- Two readings of alike token lists at the same place. -/
structure Alike (likeness : Likeness) (reading twin : Reading) : Prop where
  previous : Option.Rel (Token.Alike likeness) reading.previous twin.previous
  token : reading.token.Alike likeness twin.token
  rest : List.Forall₂ (Token.Alike likeness) reading.rest twin.rest
  phrase : reading.phrase = .ofTokens reading.source
  twinPhrase : twin.phrase = .ofTokens twin.source

structure AlikeWord (likeness : Likeness) (reading twin : Reading) : Prop
    extends reading.Alike likeness twin where
  isWord : reading.token.kind = .word

namespace Alike

variable {likeness : Likeness} {reading twin : Reading} (same : reading.Alike likeness twin)
include same

theorem source : List.Forall₂ (Token.Alike likeness) reading.source twin.source :=
  .cons same.token same.rest

theorem tokens (used last : Nat) :
    List.Forall₂ (Token.Alike likeness) (reading.tokens used last) (twin.tokens used last) :=
  List.forall₂_drop used (List.forall₂_take (last + 1) same.source)

theorem phrases : reading.phrase.Alike likeness twin.phrase := by
  rw [same.phrase, same.twinPhrase]
  exact Phrase.collect_alike same.source ..

theorem nextSignificant? : reading.nextSignificant? = twin.nextSignificant? := by
  have found {tokens others : List Token}
      (alike : List.Forall₂ (Token.Alike likeness) tokens others) :
      (tokens.find? fun token => !token.kind.isTrivia).map Token.kind =
        (others.find? fun token => !token.kind.isTrivia).map Token.kind := by
    induction alike with
    | nil => rfl
    | cons same _ ih =>
      rw [List.find?_cons, List.find?_cons, same.kind]
      split
      · exact congrArg some same.kind
      · exact ih
  exact found same.rest

end Alike

namespace AlikeWord

variable {likeness : Likeness} {reading twin : Reading} (same : reading.AlikeWord likeness twin)
include same

theorem reads : NodeKind.Reads likeness .otherKeyword reading.value twin.value :=
  same.token.reads_keyword same.isWord

theorem word : reading.word = twin.word := by
  have isTwin : twin.token.kind = .word := same.token.kind ▸ same.isWord
  rw [Reading.word, Reading.word, same.phrase, same.twinPhrase]
  simpa [Phrase.word, Phrase.ofTokens, Phrase.maxLength, Phrase.collect,
    Reading.source, Phrase.partOf, same.isWord, isTwin] using same.token.letters same.isWord

variable {builder other : Builder} (alike : builder.Alike likeness other)
include alike

theorem saveWord : (reading.saveWord builder).Alike likeness (twin.saveWord other) :=
  alike.saveLeaf same.reads

theorem saveTyped : (reading.saveTyped builder).Alike likeness (twin.saveTyped other) := by
  have kind : wordKind reading.value = wordKind twin.value := same.token.wordKind same.isWord
  rw [Reading.saveTyped, Reading.saveTyped, ← kind]
  exact alike.saveLeaf (same.token.reads_typed same.isWord)

theorem keyword : Agree (Step.Alike likeness) (reading.keyword builder) (twin.keyword other) :=
  .ok ⟨same.saveWord alike, rfl⟩

theorem enter {kind body : NodeKind} (container : kind.isLeaf = false)
    (holder : body.isLeaf = false) :
    Agree (Builder.Alike likeness) (reading.enter builder kind body) (twin.enter other kind body) :=
  alike.enterContainer container holder same.reads

/-- A keyword of several plain words, saved in a container. -/
theorem saveKeyword {parent : NodeId} (hollow : builder.tree.Hollow parent) {count : Nat}
    (exact : 1 < count → reading.phrase.Exact count) :
    ∃ grown saved used, reading.saveKeyword builder parent count = (grown, used) ∧
      twin.saveKeyword other parent count = (saved, used) ∧ grown.Alike likeness saved ∧
      ∀ {old : NodeId}, builder.tree.Hollow old → grown.tree.Hollow old := by
  -- The word alone, for a single word or where the phrase has fewer words than asked for.
  have plain : ∃ grown saved used,
      (builder.saveLeafIn parent .otherKeyword reading.value, 0) = (grown, used) ∧
      (other.saveLeafIn parent .otherKeyword twin.value, 0) = (saved, used) ∧
      grown.Alike likeness saved ∧
      ∀ {old : NodeId}, builder.tree.Hollow old → grown.tree.Hollow old :=
    ⟨_, _, 0, rfl, rfl, alike.saveLeafIn hollow same.reads, fun old => old.append ..⟩
  rw [Reading.saveKeyword, Reading.saveKeyword, ← same.phrases.lastPlace?]
  by_cases several : 1 < count
  · rw [if_pos several]
    cases reading.phrase.lastPlace? count with
    | none => exact plain
    | some last =>
      obtain ⟨grown, saved, compound, opened, opened', entered⟩ :=
        alike.saveIn hollow (rfl : NodeKind.compoundKeyword.isLeaf = false)
      have named := entered.alike.setSimpleText compound (same.phrases.names (exact several))
      obtain ⟨filled, older⟩ :=
        named.saveTokens (same.tokens 0 last) (entered.hollow.setAttribute ..)
      refine ⟨_, _, last, ?_, ?_, filled, fun old => older ((entered.older old).setAttribute ..)⟩
      · simp only [opened]
      · simp only [opened']
  · rw [if_neg several]
    exact plain

end AlikeWord

end Reading

end SqlLayout
