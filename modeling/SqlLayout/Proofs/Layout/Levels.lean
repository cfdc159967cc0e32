import SqlLayout.Proofs.Layout.Traversal

/-!
# Levels of indentation

The plan of a node goes in and out of levels in steps between which children are laid out. What the
steps do to the level adds up to nothing for every plan (`LayoutStep.netShift_plan`), whatever the
style and the place of the node. So laying out a node leaves the level as it was, and what follows
the node is indented as if the node were not there.
-/

namespace SqlLayout

namespace Writer

variable (writer : Writer) (style : Style) (tree : Tree) (id : NodeId) (body : String)

@[simp]
theorem comment_level (piece : String) :
    (writer.comment style tree id body piece).level = writer.level := by
  unfold comment closeRegion?
  split
  next closed isClosed =>
    split at isClosed
    · cases isClosed
    · split at isClosed
      · cases isClosed
        simp
      · cases isClosed
  next => simp

@[simp]
theorem openRegion_level (after : String) :
    (writer.openRegion id body after).level = writer.level := by
  unfold openRegion
  split
  · rfl
  · split
    · rfl
    · simp

def KeepsLevel (before : Writer) (_ : List Action) (after : Writer) : Prop :=
  after.level = before.level

theorem chains_keepsLevel : Chains KeepsLevel where
  refl _ := rfl
  trans front back := back.trans front

end Writer

/-! ### Shifts of the level -/

def Action.shift : Action → Int
  | indent => 1
  | outdent => -1
  | _ => 0

theorem Action.level_apply (action : Action) (style : Style) (tree : Tree) (writer : Writer) :
    (action.apply style tree writer).level = writer.level + action.shift := by
  cases action <;>
    simp [apply, shift, Writer.indent, Writer.outdent, Writer.remember, Writer.forgetKeywords]
  rfl

namespace LayoutStep

/-- How a step changes the level, if the children keep it. -/
def shift : LayoutStep → Int
  | act action => action.shift
  | _ => 0

/-- How steps change the level, one after the other. -/
def netShift : List LayoutStep → Int
  | [] => 0
  | step :: steps => step.shift + netShift steps

theorem netShift_append (front back : List LayoutStep) :
    netShift (front ++ back) = netShift front + netShift back := by
  induction front with
  | nil => exact (Int.zero_add _).symm
  | cons step steps ih => rw [List.cons_append, netShift, netShift, ih, Int.add_assoc]

theorem netShift_when (condition : Bool) (action : Action) :
    netShift (when condition action) = if condition then action.shift else 0 := by
  cases condition with
  | true => exact Int.add_zero _
  | false => rfl

/-- The plan of every node leads back to the level it starts from. -/
theorem netShift_plan (style : Style) (place : Place) (outline : Outline) :
    netShift (plan style place outline) = 0 := by
  obtain ⟨id, kind, text, attributes, children⟩ := outline
  cases kind
  case comma =>
    simp only [plan, Outline.node_kind, comma]
    split_ifs <;> simp [netShift, netShift_when, shift, Action.shift]
  case otherKeyword | dataTypeKeyword =>
    simp only [plan, Outline.node_kind, keyword]
    split <;> rfl
  case compoundKeyword =>
    simp only [plan, Outline.node_kind, compoundKeyword]
    split <;> rfl
  case containerMultiStatementBody | containerSingleStatementBody | mergeAction =>
    simp only [plan, Outline.node_kind, statementBody]
    split <;> rfl
  case blockComment =>
    simp only [plan, Outline.node_kind, blockComment]
    split <;> rfl
  -- A block that is a whole body goes one level further out, and a group may go one level in.
  case beginEndBlock | tryBlock | catchBlock =>
    simp only [plan, Outline.node_kind, block]
    cases place.isSoleStatement <;> rfl
  case expressionParens | inParens | ddlParens | selectionTargetParens => rfl
  all_goals
    simp [plan, Outline.node_kind, clause, setOperator, hangingBlock, tightParens, tight, word,
      between, caseStatement, caseBranch, lineComment, netShift, netShift_append, netShift_when,
      shift, Action.shift]

theorem shift_eq_zero {step : LayoutStep} {selects : NodeKind → Bool}
    (lays : step.selects? = some selects) : step.shift = 0 := by
  cases step with
  | act action => cases lays
  | _ => rfl

/-- Steps change the level as they say, if laying out the children keeps it. -/
theorem level_foldlM {style : Style} {tree : Tree} {within : List NodeKind} {below : List Outline}
    (each : ∀ child ∈ below, ∀ {place writer after},
      child.layOut style tree place writer = .ok after →
      after.level = writer.level) {steps : List LayoutStep} {writer after : Writer}
    (isOk : steps.foldlM (run style tree within below) writer = .ok after) :
    after.level = writer.level + netShift steps := by
  induction steps generalizing writer with
  | nil =>
    cases isOk
    exact (Int.add_zero _).symm
  | cons step steps ih =>
    obtain ⟨next, isNext, isOk⟩ := foldlM_cons_ok isOk
    have here : next.level = writer.level + step.shift := by
      cases takes_of_run isNext with
      | act action => exact action.level_apply style tree writer
      | siblings lays isOk =>
        rw [shift_eq_zero lays, Int.add_zero]
        exact Writer.chains_keepsLevel.layOutList each isOk
      | keyword isOk =>
        exact (@Chains.layOutKeyword style tree Writer.KeepsLevel below each _ _ _ isOk).trans
          (Int.add_zero _).symm
      | enclosed isOk => exact (Writer.enclose_level writer _ style).trans (Int.add_zero _).symm
    rw [ih isOk, here, netShift, Int.add_assoc]

end LayoutStep

/-- Laying out a node leaves the level of indentation as it was. -/
theorem Outline.layOut_level {outline : Outline} {style : Style} {tree : Tree} {place : Place}
    {writer after : Writer} (isOk : outline.layOut style tree place writer = .ok after) :
    after.level = writer.level := by
  induction outline generalizing place writer after with
  | node id kind text attributes children ih =>
    -- The children start from other levels than the node, so the induction is over all writers.
    rw [layOut_node] at isOk
    have shifted :=
      LayoutStep.level_foldlM (fun child member _ _ _ isOk => ih child member isOk) isOk
    rwa [LayoutStep.netShift_plan, Int.add_zero] at shifted

/-- An `ELSE IF` over a range condition with a group in it, and over a block that is the whole
body. -/
def nestedBranch : Tree :=
  Tree.ofAppends [(0, .elseClause, ""), (1, .containerOpen, ""), (2, .otherKeyword, "ELSE"),
    (1, .containerSingleStatementBody, ""), (4, .statement, ""), (5, .clause, ""),
    (6, .ifStatement, ""), (7, .between, ""), (8, .lowerBound, ""), (9, .expressionParens, ""),
    (10, .number, "1"), (8, .upperBound, ""), (12, .number, "2"), (6, .beginEndBlock, ""),
    (14, .containerMultiStatementBody, ""), (15, .label, "a:")]

theorem Outline.layOut_level_nestedBranch :
    ∃ after, (nestedBranch.outline Tree.root).layOut {} nestedBranch {} { level := 3 } = .ok after ∧
      after.output {} = "ELSE (1)\n\t\t\t\t\t2\n\t\ta:" ∧ after.level = 3 := by
  have text : ((nestedBranch.outline Tree.root).layOut {} nestedBranch {} { level := 3 }).map
      (Writer.output · {}) = .ok "ELSE (1)\n\t\t\t\t\t2\n\t\ta:" := by decide +kernel
  obtain ⟨after, isOk, output⟩ := exists_layOut_of_output text
  exact ⟨after, isOk, output, layOut_level isOk⟩

end SqlLayout
