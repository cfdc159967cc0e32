import SqlLayout.Proofs.Draft.Built

/-!
# Growth of a document under construction

What the operations of a builder that add nodes do to the draft that its tree shows. A builder sees
a draft whose container in hand need not be the one at its cursor: new nodes are often filled before
the cursor moves.
-/

namespace SqlLayout

namespace Builder

/-- The tree of a builder shows a draft, and its cursor is a given node. -/
structure Sees (builder : Builder) (draft : Draft) (cursor : NodeId) : Prop where
  shown : builder.tree.Shows draft
  cursor : builder.cursor = cursor

variable {builder : Builder} {draft : Draft} {cursor : NodeId}

theorem Stands.sees (stands : builder.Stands draft) : builder.Sees draft draft.id :=
  ⟨stands.shown, stands.cursor⟩

namespace Sees

theorem stands (sees : builder.Sees draft draft.id) : builder.Stands draft :=
  ⟨sees.shown, sees.cursor⟩

theorem of_outline {other : Draft} (sees : builder.Sees draft cursor)
    (same : other.outline = draft.outline) : builder.Sees other cursor :=
  ⟨sees.shown.of_outline same, sees.cursor⟩

theorem up (sees : builder.Sees draft cursor) : builder.Sees draft.up cursor :=
  sees.of_outline draft.outline_up

theorem saveIn (sees : builder.Sees draft cursor) (kind : NodeKind) (text : String) :
    ∃ grown id, builder.saveIn draft.id kind text = (grown, id) ∧
      grown.Sees (draft.add (.leaf id kind text)) cursor :=
  ⟨_, _, rfl, sees.shown.append kind text, sees.cursor⟩

theorem openIn (sees : builder.Sees draft cursor) (kind : NodeKind) :
    ∃ grown id, builder.saveIn draft.id kind "" = (grown, id) ∧
      grown.Sees (draft.enter id kind) cursor := by
  obtain ⟨grown, id, saved, sees⟩ := sees.saveIn kind ""
  exact ⟨grown, id, saved, sees.of_outline (draft.outline_enter _ _)⟩

theorem setAttribute (sees : builder.Sees draft cursor) (key : Attribute) (value : String) :
    (builder.setAttribute draft.id key value).Sees
      { draft with attributes := draft.attributes.set key value } cursor :=
  ⟨sees.shown.setOwnAttribute key value, sees.cursor⟩

theorem startStatementIn (sees : builder.Sees draft cursor) :
    ∃ statement clause, (builder.startStatementIn draft.id).Stands
      ((draft.enter statement .statement).enter clause .clause) := by
  have opened := (sees.shown.append .statement "").enter
  exact ⟨_, _, (opened.append .clause "").enter, rfl⟩

theorem moveTo (sees : builder.Sees draft cursor) :
    ∃ moved, builder.moveTo draft.id = .ok moved ∧ moved.Stands draft :=
  Stands.moveTo sees.shown

end Sees

end Builder

/-- The keyword that opens or closes a construct. -/
def Outline.bracket (id : NodeId) (kind : NodeKind) (keyword : Outline) : Outline :=
  .node id kind "" {} [keyword]

namespace Builder.Stands

variable {builder : Builder} {draft : Draft}

theorem saveLeaf (stands : builder.Stands draft) (kind : NodeKind) (text : String) :
    ∃ id, (builder.saveLeaf kind text).Stands (draft.add (.leaf id kind text)) := by
  obtain ⟨grown, id, saved, sees⟩ := stands.sees.saveIn kind text
  refine ⟨id, ?_⟩
  rw [Builder.saveLeaf, saveLeafIn, stands.cursor, saved]
  exact sees.stands

theorem markError (stands : builder.Stands draft) : builder.markError.Stands draft.mark := by
  have marked := stands.shown.setAttribute (by simp [Draft.pathIds] : draft.id ∈ draft.pathIds)
    .hasError "1"
  have flagged := marked.setAttribute (by simpa using stands.shown.root_mem) .errorFound "1"
  refine ⟨?_, stands.cursor⟩
  simpa only [Builder.markError, Draft.mark, stands.cursor] using flagged

theorem saveLeafWithError (stands : builder.Stands draft) (kind : NodeKind) (text : String) :
    ∃ id, (builder.saveLeafWithError kind text).Stands (draft.add (.leaf id kind text)).mark := by
  obtain ⟨id, saved⟩ := stands.saveLeaf kind text
  exact ⟨id, saved.markError⟩

theorem setStatementDue (stands : builder.Stands draft) : builder.setStatementDue.Stands draft :=
  ⟨stands.shown, stands.cursor⟩

theorem saveLeafBefore (stands : builder.Stands draft) (enclosed : draft.outer ≠ [])
    (kind : NodeKind) (text : String) :
    ∃ grown id, builder.saveLeafBefore kind text builder.cursor = .ok grown ∧
      grown.Stands (draft.slip (.leaf id kind text)) := by
  obtain ⟨grown, inserted, shown⟩ := stands.shown.slip enclosed kind text
  refine ⟨{ builder with tree := grown }, _, ?_, shown, ?_⟩
  · have inserted : (builder.tree.create kind text).1.insertBefore (builder.tree.create kind text).2
        builder.cursor = .ok grown := by rw [stands.cursor]; exact inserted
    simp only [Builder.saveLeafBefore, inserted]
    rfl
  · rw [stands.cursor, Draft.slip]
    split <;> rfl

theorem enter (stands : builder.Stands draft) (kind : NodeKind) :
    ∃ moved id, builder.enter kind = .ok moved ∧ moved.Stands (draft.enter id kind) := by
  obtain ⟨grown, id, saved, sees⟩ := stands.sees.openIn kind
  obtain ⟨moved, atContainer, inside⟩ := sees.moveTo
  refine ⟨moved, id, ?_, inside⟩
  rw [Builder.enter, Builder.save, stands.cursor, saved]
  exact atContainer

theorem startStatement (stands : builder.Stands draft) :
    ∃ statement clause, builder.startStatement.Stands
      ((draft.enter statement .statement).enter clause .clause) := by
  rw [Builder.startStatement, stands.cursor]
  exact stands.sees.startStatementIn

/-- A new container that opens with a keyword, with the cursor in its body. -/
theorem enterContainer (stands : builder.Stands draft) (kind : NodeKind) (keyword : String)
    (body : NodeKind) :
    ∃ moved container opening word inside, builder.enterContainer kind keyword body = .ok moved ∧
      moved.Stands (((draft.enter container kind).add
        (.bracket opening .containerOpen (.leaf word .otherKeyword keyword))).enter
          inside body) := by
  obtain ⟨first, container, savedContainer, sees⟩ := stands.sees.openIn kind
  obtain ⟨second, opening, savedOpening, sees⟩ := sees.saveIn .containerOpen ""
  obtain ⟨third, inside, savedBody, sees⟩ := sees.openIn body
  obtain ⟨moved, atBody, stands'⟩ := sees.moveTo
  -- The opening keyword comes last: for it the view goes from the body to the node before it.
  have beside : moved.Sees ((draft.enter container kind).beside opening .containerOpen
      [.leaf inside body ""]) inside :=
    stands'.sees.of_outline rfl
  obtain ⟨filled, word, savedWord, sees⟩ := beside.saveIn .otherKeyword keyword
  refine ⟨filled, container, opening, word, inside, ?_, sees.shown.of_outline rfl, sees.cursor⟩
  change first.saveIn container .containerOpen "" = _ at savedOpening
  change second.saveIn container body "" = _ at savedBody
  change third.moveTo inside = _ at atBody
  change moved.saveIn opening .otherKeyword keyword = _ at savedWord
  simp only [Builder.enterContainer, Builder.save, stands.cursor, savedContainer, savedOpening,
    savedBody, atBody, saveLeafIn, savedWord, bind, Except.bind, pure, Except.pure]

end Builder.Stands

end SqlLayout
