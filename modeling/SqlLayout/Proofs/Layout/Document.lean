import SqlLayout.Proofs.Draft.Symbols
import SqlLayout.Proofs.Layout.Pieces

/-!
# Laying out regular documents

Laying out a document whose nodes hold what their kinds allow always succeeds. If moreover no
comment opens a region of kept text, exactly the pieces of the document are written, in document
order and each once.
-/

namespace SqlLayout

/-- Laying out succeeds, and in a quiet document it adds the given pieces. -/
def Writer.Lays (quiet : Prop) (writer : Writer) (pieces : List String)
    (result : Except LayoutError Writer) : Prop :=
  ∃ after, result = .ok after ∧ (quiet → writer.Adds pieces after)

namespace Writer.Lays

variable {quiet : Prop} {writer : Writer} {pieces : List String}
  {result : Except LayoutError Writer}

theorem imp {calm : Prop} (lays : writer.Lays quiet pieces result) (calms : calm → quiet) :
    writer.Lays calm pieces result := by
  obtain ⟨after, isOk, adds⟩ := lays
  exact ⟨after, isOk, fun calm => adds (calms calm)⟩

theorem foldlM {run : Writer → LayoutStep → Except LayoutError Writer}
    {written : LayoutStep → List String} {steps : List LayoutStep}
    (each : ∀ step ∈ steps, ∀ writer : Writer, writer.Lays quiet (written step) (run writer step))
    (writer : Writer) : writer.Lays quiet (steps.flatMap written) (steps.foldlM run writer) := by
  induction steps generalizing writer with
  | nil => exact ⟨writer, rfl, fun _ => (Writer.Puts.refl writer).adds⟩
  | cons step steps ih =>
    obtain ⟨here, later⟩ := List.forall_mem_cons.mp each
    obtain ⟨next, isOk, adds⟩ := here writer
    obtain ⟨after, isOkAfter, addsAfter⟩ := ih later next
    refine ⟨after, ?_, fun isQuiet => (adds isQuiet).trans (addsAfter isQuiet)⟩
    rw [List.foldlM_cons, isOk]
    exact isOkAfter

end Writer.Lays

namespace Outline

variable {id : NodeId} {kind : NodeKind} {text : String} {attributes : Attributes}
  {children : List Outline}

theorem mem_symbols_of_child {child : Outline} (member : child ∈ children) {symbol : Symbol}
    (inside : symbol ∈ child.symbols) :
    symbol ∈ (node id kind text attributes children).symbols := by
  obtain ⟨before, after, rfl⟩ := List.append_of_mem member
  rw [symbols_node]
  simp [inside]

/-- No comment of an outline opens a region of kept text. -/
def Quiet (outline : Outline) : Prop :=
  ∀ kind text, .trivia kind text ∈ outline.symbols → kind.isComment = true →
    Region.openedBy? text = none

theorem Quiet.child (quiet : Quiet (.node id kind text attributes children)) :
    ∀ child ∈ children, child.Quiet := by
  intro child member kind comment inside
  exact quiet kind comment (mem_symbols_of_child member inside)

theorem Quiet.own (quiet : Quiet (.node id kind text attributes children))
    (isComment : kind.isComment = true) : Region.openedBy? text = none := by
  refine quiet kind text ?_ isComment
  rw [symbols_node, NodeKind.symbols, if_pos (by simp [NodeKind.isTrivia, isComment])]
  simp

theorem Quiet.spoken {outline : Outline} (quiet : outline.Quiet) (wording : Wording) :
    ∀ action ∈ outline.spoken wording, action.Quiet := by
  induction outline with
  | node id kind text attributes children ih =>
    have siblings : ∀ selects, ∀ action ∈ spokenOfList wording selects children, action.Quiet := by
      intro selects action member
      rw [spokenOfList_eq] at member
      obtain ⟨child, among, member⟩ := List.mem_flatMap.mp member
      have child_mem := List.mem_of_mem_filter among
      exact ih child child_mem (quiet.child child child_mem) action member
    rw [Outline.spoken]
    split
    · simp
    · split
      next isComment => simpa [Action.Quiet] using quiet.own isComment
      · split
        · simp [Action.Quiet]
        · split
          · refine List.forall_mem_append.mpr ⟨?_, siblings _⟩
            cases attributes.get? .simpleText <;> simp [Action.Quiet]
          · split
            · simpa [Action.Quiet, or_imp, forall_and] using siblings _
            · exact siblings _

variable (style : Style) (tree : Tree) {outlines : List Outline}

theorem lays_layOutList
    (each : ∀ outline ∈ outlines, ∀ place (writer : Writer), writer.Lays outline.Quiet
      (outline.pieces style.wording) (outline.layOut style tree place writer))
    (ancestors : List NodeKind) (selects : NodeKind → Bool) (writer : Writer) :
    writer.Lays (∀ outline ∈ outlines, outline.Quiet) (piecesOfList style.wording selects outlines)
      (layOutList style tree ancestors selects writer outlines) := by
  induction outlines generalizing writer with
  | nil =>
    rw [layOutList, piecesOfList]
    exact ⟨writer, rfl, fun _ => (Writer.Puts.refl writer).adds⟩
  | cons first rest ih =>
    obtain ⟨here, later⟩ := List.forall_mem_cons.mp each
    rw [layOutList, piecesOfList]
    cases selects first.kind with
    | false => exact (ih later writer).imp fun quiet => (List.forall_mem_cons.mp quiet).2
    | true =>
      obtain ⟨next, isOk, adds⟩ := here { ancestors, next := rest.head? } writer
      obtain ⟨after, isOkAfter, addsAfter⟩ := ih later next
      refine ⟨after, by simpa [isOk] using isOkAfter, fun quiet => ?_⟩
      obtain ⟨quietFirst, quietRest⟩ := List.forall_mem_cons.mp quiet
      exact (adds quietFirst).trans (addsAfter quietRest)

/-- A regular outline can be laid out, and in a quiet one exactly its pieces are written. -/
theorem lays_layOut {outline : Outline} (regular : outline.Regular) (place : Place)
    (writer : Writer) :
    writer.Lays outline.Quiet (outline.pieces style.wording)
      (outline.layOut style tree place writer) := by
  induction outline generalizing place writer with
  | node id kind text attributes children ih =>
    obtain ⟨_, fits, below⟩ := regular
    have siblings := lays_layOutList style tree
      fun child member => ih child member (below child member)
    have quietChildren : Quiet (.node id kind text attributes children) →
        ∀ child ∈ children, child.Quiet :=
      Quiet.child
    rw [layOut, ← LayoutStep.plan_pieces style place fits]
    refine .foldlM (fun step member writer => ?_) writer
    have safe := LayoutStep.plan_safe style place fits step member
    cases step with
    | act action =>
      refine ⟨_, rfl, fun quiet => ?_⟩
      have quietStep := LayoutStep.plan_quiet style place quiet.own _ member
      exact Action.adds_apply quietStep style tree writer
    | children => exact (siblings (kind :: place.ancestors) _ writer).imp quietChildren
    | childrenOf part => exact (siblings (kind :: place.ancestors) _ writer).imp quietChildren
    | comments => exact (siblings (kind :: place.ancestors) _ writer).imp quietChildren
    | firstKeyword =>
      obtain ⟨keyword, rfl, isKeyword⟩ := safe
      have lays := ih keyword (.head _) (below keyword (.head _))
        { ancestors := kind :: place.ancestors, next := none } writer
      simp only [layOutKeyword, isKeyword, if_true, List.head?_nil, LayoutStep.pieces,
        List.find?_cons, beq_self_eq_true, Option.map_some, Option.getD_some]
      exact lays.imp fun quiet => quietChildren quiet keyword (.head _)
    | enclosed =>
      obtain ⟨inner, isOk, adds⟩ := siblings (kind :: place.ancestors) (fun _ => true) writer.inner
      refine ⟨writer.enclose inner style, by simp [isOk, Except.map], fun quiet => ?_⟩
      exact Writer.adds_enclose (adds (quietChildren quiet)) style
    | fail error => exact safe.elim

end Outline

end SqlLayout
