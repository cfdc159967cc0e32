import SqlLayout.Grammar.Document
import SqlLayout.Proofs.Grammar.Punctuation
import SqlLayout.Proofs.Grammar.Words

/-!
# Documents complete

The tokens of a script are taken one after the other, each with those that its rule uses besides.
Every token list is read to its end, and the tree shows a document built from its tokens.
-/

namespace SqlLayout

namespace Reading

variable {reading : Reading} {builder : Builder} {tokens : List Token} {draft : Draft}

/-- Every token is taken. -/
theorem take_completes (phrase : reading.phrase = .ofTokens reading.source)
    (located : builder.At tokens draft) (atRest : draft.AtRest) :
    Completes tokens reading.source (reading.take builder) := by
  have isOpen := atRest.isOpen
  rw [Reading.take]
  split
  next isOpening => exact (openParens_reaches located isOpen isOpening).done
  next isClosing => exact (closeParens_reaches located isOpen isClosing).done
  next isWord => exact OnWord.takeWord ⟨isWord, phrase⟩ located isOpen
  next isSemicolon =>
    have read := Token.readAs reading.token (by simp [isSemicolon]) (by simp [isSemicolon])
      (by simp [Token.isPlain, isSemicolon])
    rw [isSemicolon] at read
    obtain ⟨saved, other, isOk, located, atRest⟩ := located.saveLeaf isOpen read rfl
    rw [show builder.saveLeaf .semicolon reading.value = _ from Except.ok.inj isOk]
    exact ⟨_, 0, other, rfl, ⟨located.stands.setStatementDue, located.built⟩, atRest⟩
  next isColon => exact colon_completes located isOpen isColon
  next isComma => exact (comma_reaches located isOpen isComma).done
  next isEquals => exact (equalsSign_reaches located isOpen isEquals).done
  next notOpening notClosing notWord _ notColon _ _ =>
    split
    next isTrivia => exact (trivia_reaches located atRest isTrivia).done
    next notTrivia =>
      have plain : reading.token.isPlain = true := by
        simpa [Token.isPlain] using ⟨notOpening, notClosing⟩
      have content : reading.token.kind.leafKind.isTrivia = false := by
        rw [TokenKind.isTrivia_leafKind]
        exact Bool.eq_false_iff.mpr notTrivia
      exact (located.saveLeaf isOpen
        (Token.readAs reading.token notWord notColon plain) content).done

end Reading

namespace Builder

variable {builder : Builder} {tokens : List Token} {draft : Draft}

theorem start_at : ∃ draft, Builder.start.At [] draft ∧ draft.AtRest := by
  have holds : Tree.empty.Shows { id := Tree.root, kind := .root } := by
    refine .of_holds ⟨?_, by simp [Draft.records, Frame.records], rfl⟩ rfl
    intro record member
    obtain rfl := List.mem_singleton.mp member
    rfl
  have sees : Builder.Sees { tree := .empty, cursor := Tree.root, statementDue := false }
      { id := Tree.root, kind := .root } Tree.root := ⟨holds, rfl⟩
  obtain ⟨statement, clause, stands⟩ := sees.startStatementIn
  exact ⟨_, ⟨stands, .start statement clause⟩, Draft.atRest_startStatement ..⟩

/-- The builder, marked as needing recovery if that is asked for. -/
def markIf (builder : Builder) (marks : Bool) : Builder :=
  if marks then builder.markError else builder

theorem finish_eq (builder : Builder) (unfinished : Bool) :
    builder.finish unfinished =
      (builder.markIf unfinished).findBatchEnd.map fun found => (found.1.markIf !found.2).tree := by
  rw [finish, markIf]
  change Except.bind _ _ = _
  cases (if unfinished then builder.markError else builder).findBatchEnd with
  | error error => rfl
  | ok found =>
    obtain ⟨left, valid⟩ := found
    cases valid <;> rfl

/-- A builder stands at the end of a document, where a batch may end unless the document is
marked. -/
structure Ends (builder : Builder) (tokens : List Token) (draft : Draft) : Prop
    extends builder.At tokens draft where
  rests : draft.Flagged ∨ draft.Rests

theorem At.markIf (located : builder.At tokens draft) (marks : Bool) :
    (builder.markIf marks).At tokens (if marks then draft.mark else draft) := by
  cases marks with
  | false => exact located
  | true => exact ⟨located.stands.markError, located.built.mark⟩

theorem At.finish (located : builder.At tokens draft) (isOpen : draft.IsOpen) (unfinished : Bool) :
    ∃ left valid other, (builder.markIf unfinished).findBatchEnd = .ok (left, valid) ∧
      builder.finish unfinished = .ok (left.markIf !valid).tree ∧
      (left.markIf !valid).Ends tokens other := by
  have isOpen : Draft.IsOpen (if unfinished then draft.mark else draft) := by
    cases unfinished <;> exact isOpen
  obtain ⟨left, valid, other, isOk, located, _, rests⟩ :=
    (located.markIf unfinished).findBatchEnd isOpen
  refine ⟨left, valid, _, isOk, by rw [finish_eq, isOk]; rfl, located.markIf (!valid), ?_⟩
  cases valid with
  | false => exact .inl (Draft.flagged_mark located.stands.shown.rooted)
  | true => exact .inr (rests rfl)

end Builder

/-! ### Reading step by step -/

/-- A script that is partly read: the tree so far, the token before the next one, and the tokens
left. -/
structure Progress where
  builder : Builder
  previous : Option Token
  rest : List Token

namespace Progress

def start (list : TokenList) : Progress :=
  { builder := .start, previous := none, rest := list.tokens }

/-- A token is taken, with the tokens that its rule uses besides. -/
inductive Advance : Progress → Progress → Prop where
  | token {builder next : Builder} {previous : Option Token} {token : Token} {rest : List Token}
      {used : Nat}
      (taken : Reading.take { previous, token, rest, phrase := .ofTokens (token :: rest) } builder =
        .ok (next, used)) :
      Advance { builder, previous, rest := token :: rest }
        { builder := next, previous := (token :: rest)[used]?.or previous, rest := rest.drop used }

abbrev Advances : Progress → Progress → Prop := Relation.ReflTransGen Advance

/-- A partly read script whose tree shows a document built from the tokens that were read. -/
def Sound (list : TokenList) (progress : Progress) : Prop :=
  ∃ tokens draft, list.tokens = tokens ++ progress.rest ∧
    progress.builder.At tokens draft ∧ draft.AtRest

theorem sound_start (list : TokenList) : (start list).Sound list := by
  obtain ⟨draft, located, atRest⟩ := Builder.start_at
  exact ⟨[], draft, rfl, located, atRest⟩

variable {list : TokenList} {progress next : Progress}

/-- The next token of a partly read script can be taken, and the script stays sound. -/
theorem Sound.advance {builder : Builder} {previous : Option Token} {token : Token}
    {rest : List Token} (sound : Sound list { builder, previous, rest := token :: rest }) :
    ∃ next used,
      Reading.take { previous, token, rest, phrase := .ofTokens (token :: rest) } builder =
      .ok (next, used) ∧
      Sound list
        { builder := next, previous := (token :: rest)[used]?.or previous,
          rest := rest.drop used } := by
  obtain ⟨tokens, draft, split, located, atRest⟩ := sound
  have completes : Completes tokens (token :: rest)
      (Reading.take { previous, token, rest, phrase := .ofTokens (token :: rest) } builder) :=
    Reading.take_completes rfl located atRest
  obtain ⟨next, used, other, isOk, located, atRest⟩ := completes
  refine ⟨next, used, isOk, _, other, ?_, located, atRest⟩
  rw [split, List.append_assoc, List.take_succ_cons, List.cons_append, List.take_append_drop]

theorem Advance.sound (advance : progress.Advance next) (sound : progress.Sound list) :
    next.Sound list := by
  obtain ⟨taken⟩ := advance
  obtain ⟨_, _, isOk, sound⟩ := Sound.advance sound
  rw [taken] at isOk
  obtain ⟨rfl, rfl⟩ := Prod.mk.injEq .. ▸ Except.ok.inj isOk
  exact sound

theorem Advances.sound (advances : progress.Advances next) (sound : progress.Sound list) :
    next.Sound list := by
  induction advances with
  | refl => exact sound
  | tail _ advance ih => exact advance.sound ih

/-- A partly read script can be read on, and what is left is read alike. -/
theorem Advance.readAll (advance : progress.Advance next) :
    progress.builder.readAll progress.previous progress.rest =
      next.builder.readAll next.previous next.rest := by
  obtain ⟨taken⟩ := advance
  rw [Builder.readAll, taken]

theorem Advances.readAll (advances : progress.Advances next) :
    progress.builder.readAll progress.previous progress.rest =
      next.builder.readAll next.previous next.rest := by
  induction advances with
  | refl => rfl
  | tail _ advance ih => rw [ih, advance.readAll]

theorem Sound.exists_last (sound : progress.Sound list) :
    ∃ last, progress.Advances last ∧ last.rest = [] := by
  obtain ⟨builder, previous, rest⟩ := progress
  induction size : rest.length using Nat.strong_induction_on generalizing builder previous rest with
  | _ bound ih =>
    cases rest with
    | nil => exact ⟨_, .refl, rfl⟩
    | cons token rest =>
      obtain ⟨next, used, taken, sound⟩ := sound.advance
      have shorter : (rest.drop used).length < bound := by
        rw [List.length_drop, ← size, List.length_cons]
        omega
      obtain ⟨last, advances, isLast⟩ := ih _ shorter _ _ _ sound rfl
      exact ⟨last, .head (.token taken) advances, isLast⟩

theorem exists_last (list : TokenList) :
    ∃ last draft, (start list).Advances last ∧ last.rest = [] ∧ last.builder.At list.tokens draft ∧
      draft.AtRest := by
  have sound := sound_start list
  obtain ⟨last, advances, isLast⟩ := sound.exists_last
  obtain ⟨tokens, draft, split, located, atRest⟩ := advances.sound sound
  rw [isLast, List.append_nil] at split
  exact ⟨last, draft, advances, isLast, split ▸ located, atRest⟩

theorem Advances.ofTokens (advances : (start list).Advances next) (isLast : next.rest = []) :
    Tree.ofTokens list = next.builder.finish list.unfinished := by
  have read : Builder.start.readAll none list.tokens = .ok next.builder :=
    advances.readAll.trans (by rw [isLast, Builder.readAll])
  rw [Tree.ofTokens, read]
  rfl

end Progress

/-- Every token list has a tree, and the tree shows a document built from the tokens that ends where
a batch may end or is marked. -/
theorem Tree.ofTokens_ends (list : TokenList) :
    ∃ tree draft, Tree.ofTokens list = .ok tree ∧ tree.Shows draft ∧ Built list.tokens draft ∧
      (draft.Flagged ∨ draft.Rests) := by
  obtain ⟨last, draft, advances, isLast, located, atRest⟩ := Progress.exists_last list
  obtain ⟨_, _, final, _, isTree, closed⟩ := located.finish atRest.isOpen list.unfinished
  exact ⟨_, final, (advances.ofTokens isLast).trans isTree, closed.stands.shown,
    closed.built, closed.rests⟩

/-- Every token list has a tree, and the tree shows a document built from the tokens. -/
theorem Tree.ofTokens_shows (list : TokenList) :
    ∃ tree draft, Tree.ofTokens list = .ok tree ∧ tree.Shows draft ∧ Built list.tokens draft := by
  obtain ⟨tree, draft, isOk, shown, built, _⟩ := ofTokens_ends list
  exact ⟨tree, draft, isOk, shown, built⟩

end SqlLayout
