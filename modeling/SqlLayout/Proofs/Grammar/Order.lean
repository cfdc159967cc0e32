import SqlLayout.Proofs.Grammar.Document
import SqlLayout.Proofs.Tree.Links

/-!
# Order while reading

After every step of reading a script the nodes of the tree form one document, the cursor is part of
it, and nothing but bodies that stayed empty comes behind the cursor.
-/

namespace SqlLayout

/-- The nodes of a tree under construction form one document, and what is added at the cursor comes
last. -/
structure Builder.InOrder (builder : Builder) : Prop where
  linked : builder.tree.Linked
  attached : builder.tree.isAttached builder.cursor = true
  /-- Only containers without text and without children come behind the cursor's container. -/
  behind : ∀ id, .enter id ∈ builder.tree.behind builder.cursor →
    builder.tree.kind id = .containerSingleStatementBody ∧ builder.tree.text id = "" ∧
      builder.tree.children id = []

theorem Builder.At.inOrder {builder : Builder} {tokens : List Token} {draft : Draft}
    (located : builder.At tokens draft) : builder.InOrder := by
  obtain ⟨shown, cursor⟩ := located.stands
  refine ⟨shown.linked, cursor ▸ shown.isAttached_id, fun id member => ?_⟩
  exact shown.enter_behind located.sound (cursor ▸ member)

/-- Every token list is read to its end and then closed. After every step, and in the tree that
results, all nodes form one document, and only empty containers come behind the cursor. -/
theorem Tree.ofTokens_inOrder (list : TokenList) :
    (∀ progress, (Progress.start list).Advances progress → progress.builder.InOrder) ∧
    ∃ last left valid, (Progress.start list).Advances last ∧ last.rest = [] ∧
      (last.builder.markIf list.unfinished).findBatchEnd = .ok (left, valid) ∧
      (left.markIf !valid).InOrder ∧ Tree.ofTokens list = .ok (left.markIf !valid).tree := by
  constructor
  · intro progress advances
    obtain ⟨_, _, _, located, _⟩ := advances.sound (Progress.sound_start list)
    exact located.inOrder
  · obtain ⟨last, draft, advances, isLast, located, atRest⟩ := Progress.exists_last list
    obtain ⟨left, valid, _, isOk, isTree, closed⟩ := located.finish atRest.isOpen list.unfinished
    exact ⟨last, left, valid, advances, isLast, isOk, closed.inOrder,
      (advances.ofTokens isLast).trans isTree⟩

end SqlLayout
