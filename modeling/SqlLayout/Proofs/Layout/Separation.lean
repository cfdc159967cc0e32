import SqlLayout.Proofs.Layout.Document
import SqlLayout.Proofs.Layout.Neighbours
import SqlLayout.Proofs.Layout.Traversal

/-!
# Separation

Laying out a document keeps the rules for neighbours, if the pieces of its leaves are what their
kinds say: what stands tight is one of the marks that do. Along the steps of a plan it is known in
which phase the writer is (`LayoutStep.phase?`), and every plan leads from a writer that is ready to
one that is ready again.
-/

namespace SqlLayout

open Piece

variable {phase : Phase}

/-- The piece of a leaf is laid out as its kind asks for. -/
structure Wording.Suits (wording : Wording) (kind : NodeKind) (text : String) : Prop where
  tight : kind ∈ [NodeKind.period, .semicolon, .scopeResolutionOperator] →
    wording.leaf kind text ∈ tightMarks
  calm : kind ∈ [NodeKind.otherKeyword, .dataTypeKeyword] → isCalm (wording.leaf kind text) = true

/-- The leaves of a document are laid out as their kinds ask for. -/
inductive Outline.Suits (wording : Wording) : Outline → Prop where
  | node {id : NodeId} {kind : NodeKind} {text : String} {attributes : Attributes}
      {children : List Outline} (leaf : kind.isLeaf = true → wording.Suits kind text)
      (below : ∀ child ∈ children, Suits wording child) :
      Suits wording (.node id kind text attributes children)

/-! ### Phases -/

/-- What is known about a writer between two steps. -/
inductive Phase where
  | apart
  | ready
  | clear
  | wrote (piece : String)

namespace Phase

def isReady : Phase → Bool
  | ready | clear => true
  | _ => false

def word (piece : String) : Phase → Option Phase
  | clear => some (wrote piece)
  | _ => none

/-- The phase of a writer that acts on what is due, if that keeps it apart from what comes next. -/
def onward (phase next : Phase) : Option Phase :=
  if phase.isReady then some next else none

end Phase

def Writer.Keeps (writer : Writer) : Phase → Prop
  | .apart => writer.Apart
  | .ready => writer.Ready
  | .clear => writer.Clear
  | .wrote piece => writer.Wrote piece

/-- The phase after an action, if what it writes may be written. -/
def Action.phase? (phase : Phase) : Action → Option Phase
  | write piece => if piece ∈ tightMarks then some .clear else phase.word piece
  | dropSpace => some .apart
  | newLine => some .clear
  | settle => some (if phase.isReady then .ready else .apart)
  | separate => phase.onward .clear
  | startStatement _ => phase.onward .ready
  | requestSpace =>
      match phase with
      | .apart => none
      | _ => some .ready
  | requestBreak =>
      match phase with
      | .wrote piece => if isCalm piece then some .ready else none
      | _ => phase.onward .ready
  | comment _ _ piece => if opensComment piece then phase.onward (.wrote piece) else none
  | openRegion _ body _ => if Region.openedBy? body = none then some phase else none
  | _ => some phase

def LayoutStep.phase? (phase : Phase) : LayoutStep → Option Phase
  | act action => action.phase? phase
  | enclosed =>
      match phase with
      | .clear => some .apart
      | _ => none
  | _ => phase.onward .ready

namespace Writer

variable {writer next : Writer} {phase : Phase}

theorem Keeps.toApart (keeps : writer.Keeps phase) : writer.Apart := by
  cases phase with
  | apart => exact keeps
  | ready | clear | wrote => exact keeps.toApart

theorem Keeps.ready (keeps : writer.Keeps phase) (isReady : phase.isReady = true) :
    writer.Ready := by
  cases phase with
  | ready => exact keeps
  | clear => exact Clear.ready keeps
  | apart | wrote => cases isReady

theorem Keeps.of_same (keeps : writer.Keeps phase) (marks : next.marks = writer.marks)
    (region : next.region = writer.region) (space : next.spaceDue = writer.spaceDue)
    (breakDue : next.breakDue = writer.breakDue) : next.Keeps phase := by
  cases phase with
  | apart => exact Apart.of_same keeps marks region
  | clear => exact Clear.of_same keeps marks region
  | wrote => exact Wrote.of_same keeps marks region
  | ready =>
    refine ⟨keeps.toApart.of_same marks region, ?_⟩
    rw [lastPiece?_of_marks marks, space, breakDue]
    exact keeps.due

end Writer

theorem Phase.of_onward {next onto : Phase} (isNext : phase.onward onto = some next) :
    phase.isReady = true ∧ onto = next := by
  unfold onward at isNext
  split at isNext
  · exact ⟨‹_›, Option.some.inj isNext⟩
  · cases isNext

/-- Where an action leads to its next phase, the rules for neighbours are kept. -/
theorem Action.keeps_apply {style : Style} (breaks : 0 < style.statementBreaks)
    (clauseBreaks : 0 < style.clauseBreaks) (tree : Tree) {action : Action} {next : Phase}
    (isNext : action.phase? phase = some next) {writer : Writer} (keeps : writer.Keeps phase) :
    (action.apply style tree writer).Keeps next := by
  cases action with
  | write piece =>
    rw [phase?] at isNext
    split at isNext
    next tight =>
      cases isNext
      exact (keeps.toApart.write style fun _ _ => .inr (.inl tight)).clear tight
    next =>
      cases phase with
      | clear =>
        cases isNext
        exact keeps.toApart.write style fun last isLast => .inl (keeps.tight last isLast)
      | _ => cases isNext
  | dropSpace =>
    cases isNext
    exact Writer.Apart.of_same keeps.toApart rfl rfl
  | newLine =>
    cases isNext
    exact (keeps.toApart.newLine style).clear
  | settle =>
    cases isNext
    split
    next isReady => exact (keeps.ready isReady).settle style
    next => exact keeps.toApart.settle style
  | separate =>
    rcases Phase.of_onward isNext with ⟨isReady, rfl⟩
    exact (keeps.ready isReady).separate style
  | startStatement starter =>
    rcases Phase.of_onward isNext with ⟨isReady, rfl⟩
    have started := (keeps.ready isReady).startStatement style breaks clauseBreaks starter
    exact @Writer.Keeps.of_same _ _ .ready started rfl rfl rfl rfl
  | requestSpace =>
    have due : Writer.Ready { writer with spaceDue := true } :=
      ⟨keeps.toApart.of_same rfl rfl, fun _ _ => .inr (.inl rfl)⟩
    cases phase with
    | apart => cases isNext
    | ready | clear | wrote =>
      cases isNext
      exact due
  | requestBreak =>
    have due (isReady : phase.isReady = true) : Writer.Ready { writer with breakDue := true } := by
      have ready := keeps.ready isReady
      refine ⟨ready.of_same rfl rfl, ?_⟩
      intro piece last
      exact (ready.due piece last).imp_right (.imp_right fun due => ⟨rfl, due.2⟩)
    cases phase with
    | apart => cases isNext
    | ready | clear =>
      cases isNext
      exact due rfl
    | wrote piece =>
      simp only [phase?, Option.ite_none_right_eq_some] at isNext
      rcases isNext with ⟨calm, ⟨⟩⟩
      exact Writer.Wrote.ready (Writer.Wrote.of_same keeps rfl rfl) (.inr ⟨rfl, calm⟩)
  | comment id body piece =>
    rw [phase?, Option.ite_none_right_eq_some] at isNext
    rcases isNext with ⟨opens, isNext⟩
    rcases Phase.of_onward isNext with ⟨isReady, rfl⟩
    exact (keeps.ready isReady).comment style tree id body opens
  | openRegion id body after =>
    rw [phase?, Option.ite_none_right_eq_some] at isNext
    rcases isNext with ⟨quiet, ⟨⟩⟩
    rw [apply, Writer.openRegion_eq_self quiet]
    exact keeps
  | _ =>
    cases isNext
    exact keeps.of_same rfl rfl rfl rfl

namespace LayoutStep

variable {piece : String}

/-- Steps that lead to a phase in which the writer is ready. -/
def Leads (phase : Phase) (steps : List LayoutStep) : Prop :=
  (steps.foldlM phase? phase).any Phase.isReady = true

theorem Leads.nil : Leads .ready [] := rfl

theorem leads_cons {next : Phase} {step : LayoutStep} (isNext : step.phase? phase = some next)
    (steps : List LayoutStep) : Leads phase (step :: steps) ↔ Leads next steps := by
  rw [Leads, List.foldlM_cons, isNext]
  rfl

theorem Leads.cons {phase : Phase} {step : LayoutStep} {steps : List LayoutStep}
    (leads : Leads phase (step :: steps)) :
    ∃ next, step.phase? phase = some next ∧ Leads next steps := by
  cases isNext : step.phase? phase with
  | none => simp [Leads, isNext] at leads
  | some next => exact ⟨next, rfl, (leads_cons isNext steps).mp leads⟩

theorem Leads.foldlM {run : Writer → LayoutStep → Except LayoutError Writer}
    {steps : List LayoutStep} (leads : Leads phase steps)
    (each : ∀ {step phase next writer after}, phase? phase step = some next →
      run writer step = .ok after →
      writer.Keeps phase → after.Keeps next) {writer after : Writer} (keeps : writer.Keeps phase)
    (isOk : steps.foldlM run writer = .ok after) : after.Ready := by
  induction steps generalizing writer phase with
  | nil =>
    cases isOk
    exact keeps.ready leads
  | cons step steps ih =>
    rcases leads.cons with ⟨next, isNext, later⟩
    rcases foldlM_cons_ok isOk with ⟨middle, isMiddle, isOk⟩
    exact ih later (each isNext isMiddle keeps) isOk

theorem Leads.write {request : Action}
    (requests : request = .requestSpace ∨ request = .requestBreak ∧ isCalm piece = true)
    {rest : List LayoutStep} (later : Leads .ready rest) :
    Leads .clear (act (.write piece) :: act request :: rest) := by
  have isWritten : (act (.write piece)).phase? .clear =
      if piece ∈ tightMarks then some .clear else some (.wrote piece) := rfl
  split at isWritten
  all_goals
    rw [leads_cons isWritten]
    rcases requests with rfl | ⟨rfl, calm⟩
    · exact (leads_cons rfl rest).mpr later
    refine (leads_cons ?_ rest).mpr later
  · rfl
  · exact if_pos calm

theorem Leads.word {request : Action}
    (requests : request = .requestSpace ∨ request = .requestBreak ∧ isCalm piece = true)
    {rest : List LayoutStep} (later : Leads .ready rest) :
    Leads .ready (act .separate :: act (.write piece) :: act request :: rest) :=
  (leads_cons rfl _).mpr (Leads.write requests later)

theorem Leads.keyword {text piece : String} {request : Action}
    (requests : request = .requestSpace ∨ request = .requestBreak ∧ isCalm piece = true)
    {rest : List LayoutStep} (later : Leads .ready rest) :
    Leads .ready (act .separate :: act (.remember text) :: act (.write piece) ::
      act request :: rest) :=
  (leads_cons rfl _).mpr ((leads_cons rfl _).mpr (Leads.write requests later))

theorem foldlM_phase?_when (phase : Phase) (condition : Bool) (action : Action) :
    (when condition action).foldlM phase? phase = if condition then action.phase? phase
      else some phase := by
  cases condition with
  | true => simp [when, phase?]
  | false => rfl

theorem Leads.tight (tight : piece ∈ tightMarks) : Leads .ready (LayoutStep.tight piece) := by
  simp [Leads, LayoutStep.tight, phase?, Action.phase?, tight, Phase.isReady]

theorem Leads.comment {id : NodeId} {body piece : String} (opens : opensComment piece = true)
    (calm : isCalm piece = true) {request : Action}
    (requests : request = .requestSpace ∨ request = .requestBreak) {rest : List LayoutStep}
    (later : Leads .ready rest) :
    Leads .ready (act (.comment id body piece) :: act request :: rest) := by
  have isWritten : (act (.comment id body piece)).phase? .ready = some (.wrote piece) :=
    if_pos opens
  rw [leads_cons isWritten]
  rcases requests with rfl | rfl
  · exact (leads_cons rfl rest).mpr later
  · have isDue : (act .requestBreak).phase? (.wrote piece) = some .ready := if_pos calm
    exact (leads_cons isDue rest).mpr later

theorem Leads.opens {id : NodeId} {body after : String} (quiet : Region.openedBy? body = none) :
    Leads .ready [act (.openRegion id body after)] := by
  have same : (act (.openRegion id body after)).phase? .ready = some .ready := if_pos quiet
  exact (leads_cons same []).mpr .nil

/-- The plan of a node hands the writer on ready. -/
theorem plan_leads {style : Style} (place : Place) {id : NodeId} {kind : NodeKind} {text : String}
    {attributes : Attributes} {children : List Outline}
    (suits : kind.isLeaf = true → style.wording.Suits kind text)
    (quiet : kind.isComment = true → Region.openedBy? text = none) :
    Leads .ready (plan style place (.node id kind text attributes children)) := by
  cases kind
  case string | nationalString | quotedString | bracketName | asterisk | equalsSign | alphaOperator
      | otherOperator | pseudoName | other | monetaryValue | label | number | binaryValue =>
    exact Leads.word (.inl rfl) .nil
  case functionKeyword => exact Leads.keyword (.inl rfl) .nil
  case otherKeyword | dataTypeKeyword =>
    refine Leads.keyword ?_ .nil
    split
    · exact .inr ⟨rfl, (suits rfl).calm (by simp)⟩
    · exact .inl rfl
  case compoundKeyword =>
    simp only [plan, Outline.node_kind, compoundKeyword]
    split
    · rfl
    · exact Leads.keyword (.inl rfl) rfl
  case period | semicolon | scopeResolutionOperator =>
    exact Leads.tight ((suits rfl).tight (by simp))
  case comma =>
    simp only [plan, Outline.node_kind, comma]
    split
    · split <;> rfl
    · split
      · cases style.spaceAfterComma <;> rfl
      · rfl
  case containerMultiStatementBody | containerSingleStatementBody | mergeAction =>
    simp only [plan, Outline.node_kind, statementBody]
    split <;> rfl
  case ddlDetailParens | functionParens => rfl
  case ddlParens | selectionTargetParens | expressionParens | inParens => rfl
  case lineComment | slashComment =>
    refine Leads.comment ?_ ?_ (.inr rfl) ?_
    · simp [opensComment, Scan.headIs]
    · simp [isCalm, List.isPrefixOf]
    · exact (leads_cons rfl _).mpr (.opens (quiet rfl))
  case blockComment =>
    refine Leads.comment ?_ ?_ ?_ ?_
    · simp [opensComment, Scan.headIs]
    · simp [isCalm, List.isPrefixOf]
    · split
      · exact .inr rfl
      · exact .inl rfl
    · exact Leads.opens (quiet rfl)
  case caseInput | booleanExpression | lowerBound | upperBound =>
    simp only [plan, Outline.node_kind, when]
    split <;> rfl
  all_goals
    simp [Leads, plan, Outline.kind, clause, setOperator, hangingBlock, between,
      block, caseStatement, caseBranch, foldlM_phase?_when, phase?, Action.phase?,
      Phase.onward, Phase.isReady]

end LayoutStep

/-! ### Documents -/

def KeepsReady (before : Writer) (_ : List Action) (after : Writer) : Prop :=
  before.Ready → after.Ready

theorem chains_keepsReady : Chains KeepsReady :=
  ⟨fun _ ready => ready, fun front back ready => back (front ready)⟩

/-- A document is laid out with its pieces kept apart. -/
theorem Outline.ready_layOut {style : Style} {tree : Tree} (breaks : 0 < style.statementBreaks)
    (clauseBreaks : 0 < style.clauseBreaks) {outline : Outline}
    (suits : outline.Suits style.wording) (quiet : outline.Quiet) {place : Place}
    {writer after : Writer} (isOk : outline.layOut style tree place writer = .ok after)
    (ready : writer.Ready) : after.Ready := by
  induction outline generalizing place writer after with
  | node id kind text attributes children ih =>
    rcases suits with ⟨leaf, suits⟩
    have each : ∀ child ∈ children, ∀ {place writer after},
        child.layOut style tree place writer = .ok after →
        KeepsReady writer (child.spoken style.wording) after :=
      fun child member _ _ _ isOk =>
        ih child member (suits child member) (quiet.child child member) isOk
    rw [layOut_node] at isOk
    refine (LayoutStep.plan_leads place leaf quiet.own).foldlM ?_ ready isOk
    intro step phase next writer after isNext isOk keeps
    cases LayoutStep.takes_of_run isOk with
    | act action => exact Action.keeps_apply breaks clauseBreaks tree isNext keeps
    | siblings lays isOk =>
      cases step with
      | children | childrenOf part | comments =>
        rcases Phase.of_onward isNext with ⟨isReady, rfl⟩
        exact chains_keepsReady.layOutList each isOk (keeps.ready isReady)
      | _ => cases lays
    | keyword isOk =>
      rcases Phase.of_onward isNext with ⟨isReady, rfl⟩
      exact Chains.layOutKeyword each isOk (keeps.ready isReady)
    | enclosed inside =>
      cases phase with
      | clear =>
        cases isNext
        exact keeps.enclose style
          (chains_keepsReady.layOutList each inside keeps.toApart.inner).toApart
      | _ => cases isNext

end SqlLayout
