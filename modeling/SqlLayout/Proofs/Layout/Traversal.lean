import SqlLayout.Proofs.Layout.Pieces

/-!
# Laying out as a traversal

Laying out a document takes the actions that the document calls for, in document order, with white
space between them. A relation between writers that every action keeps to, and that also takes over
what is laid out apart between parentheses, therefore holds between the writers before and after a
document (`Tracks.layOut`).
-/

namespace SqlLayout

variable {step : LayoutStep} {writer after : Writer}

namespace LayoutStep

/-- A step that concerns no comment and lays nothing out apart. -/
def isDirect : LayoutStep → Bool
  | act action => action.isDirect
  | enclosed => false
  | _ => true

/-- No comment is written, and what is laid out apart stands between parentheses. -/
inductive Grouped : List LayoutStep → Prop where
  | nil : Grouped []
  | cons {step : LayoutStep} {steps : List LayoutStep} (direct : step.isDirect = true)
      (grouped : Grouped steps) : Grouped (step :: steps)
  | parens {steps : List LayoutStep} (grouped : Grouped steps) :
      Grouped (.act (.write "(") :: .enclosed :: .act (.write ")") :: steps)

theorem grouped_of_direct {steps : List LayoutStep} (direct : steps.all isDirect = true) :
    Grouped steps := by
  induction steps with
  | nil => exact .nil
  | cons step steps ih =>
    rw [List.all_cons, Bool.and_eq_true] at direct
    exact .cons direct.1 (ih direct.2)

theorem Grouped.append {steps others : List LayoutStep} (front : Grouped steps)
    (back : Grouped others) : Grouped (steps ++ others) := by
  induction front with
  | nil => exact back
  | cons direct _ ih => exact .cons direct ih
  | parens _ ih => exact .parens ih

theorem all_isDirect_when (condition : Bool) (action : Action) :
    (when condition action).all isDirect = (!condition || (act action).isDirect) := by
  cases condition <;> simp [when]

theorem grouped_looseParens (indented : Bool) : Grouped (looseParens indented) := by
  have front : Grouped ([.act .separate] ++ when indented .indent) :=
    grouped_of_direct (by simp [all_isDirect_when, isDirect, Action.isDirect])
  have inside : Grouped [.act (.write "("), .enclosed, .act (.write ")")] := .parens .nil
  have back : Grouped (when indented .outdent ++ [.act .requestSpace]) :=
    grouped_of_direct (by simp [all_isDirect_when, isDirect, Action.isDirect])
  simpa [looseParens] using front.append (inside.append back)

theorem plan_grouped (style : Style) (place : Place) {id : NodeId} {kind : NodeKind} {text : String}
    {attributes : Attributes} {children : List Outline} (content : kind.isComment = false) :
    Grouped (plan style place (.node id kind text attributes children)) := by
  cases kind
  case ddlParens | selectionTargetParens | expressionParens | inParens =>
    exact grouped_looseParens _
  case lineComment | slashComment | blockComment => cases content
  all_goals apply grouped_of_direct
  case comma =>
    simp only [plan, Outline.node_kind, comma]
    split
    · split <;> rfl
    · split
      · simp [all_isDirect_when, isDirect, Action.isDirect]
      · rfl
  case otherKeyword | dataTypeKeyword =>
    simp only [plan, Outline.node_kind, keyword]
    split <;> rfl
  case compoundKeyword =>
    simp only [plan, Outline.node_kind, compoundKeyword]
    split <;> rfl
  case containerMultiStatementBody | containerSingleStatementBody | mergeAction =>
    simp only [plan, Outline.node_kind, statementBody]
    split <;> rfl
  all_goals
    simp [plan, Outline.kind, clause, setOperator, hangingBlock, tightParens, tight,
      word, between, block, caseStatement, caseBranch, all_isDirect_when, isDirect, Action.isDirect]

/-- A comment is written, white space is requested, and a region may be opened. -/
theorem plan_comment (style : Style) (place : Place) {id : NodeId} {kind : NodeKind} {text : String}
    {attributes : Attributes} {children : List Outline} (isComment : kind.isComment = true) :
    ∃ requests : List Action, requests ⊆ [.requestBreak, .requestSpace, .noteSourceBreak] ∧
      plan style place (.node id kind text attributes children) =
        (.comment id text (style.wording.leaf kind text) ::
          (requests ++ [.openRegion id text kind.commentEnd])).map act := by
  cases kind
  case lineComment | slashComment => exact ⟨[.requestBreak, .noteSourceBreak], by simp, rfl⟩
  case blockComment =>
    by_cases breaks : (place.parent? == some .statement || place.breaksAfter) = true
    · refine ⟨[.requestBreak], by simp, ?_⟩
      simp only [plan, Outline.node_kind, blockComment, breaks]
      rfl
    · refine ⟨[.requestSpace], by simp, ?_⟩
      simp only [plan, Outline.node_kind, blockComment, breaks]
      rfl
  all_goals cases isComment

theorem foldlM_cons_ok {run : Writer → LayoutStep → Except LayoutError Writer}
    {steps : List LayoutStep} (isOk : (step :: steps).foldlM run writer = .ok after) :
    ∃ next, run writer step = .ok next ∧ steps.foldlM run next = .ok after := by
  rw [List.foldlM_cons] at isOk
  cases here : run writer step with
  | error error =>
    rw [here] at isOk
    cases isOk
  | ok next =>
    rw [here] at isOk
    exact ⟨next, rfl, isOk⟩

theorem foldlM_map_act {style : Style} {tree : Tree}
    {run : Writer → LayoutStep → Except LayoutError Writer}
    (acts : ∀ writer action, run writer (.act action) = .ok (action.apply style tree writer))
    (actions : List Action) (writer : Writer) :
    (actions.map act).foldlM run writer = .ok (actions.foldl (Action.apply style tree) writer) := by
  induction actions generalizing writer with
  | nil => rfl
  | cons action actions ih =>
    rw [List.map_cons, List.foldlM_cons, acts]
    exact ih _

/-- Which children a step lays out on the writer at hand, by their kinds. -/
def selects? : LayoutStep → Option (NodeKind → Bool)
  | children => some fun _ => true
  | childrenOf kind => some (· == kind)
  | comments => some NodeKind.isComment
  | _ => none

theorem spoken_of_selects {selects : NodeKind → Bool} (lays : step.selects? = some selects)
    (wording : Wording) (below : List Outline) :
    step.spoken wording below = Outline.spokenOfList wording selects below := by
  cases step with
  | children | childrenOf kind | comments =>
    cases lays
    rfl
  | _ => cases lays

/-- Takes a step of laying out a node, given the kinds of the node and its ancestors, and its
children. -/
def run (style : Style) (tree : Tree) (within : List NodeKind) (below : List Outline)
    (writer : Writer) :
    LayoutStep → Except LayoutError Writer
  | act action => .ok (action.apply style tree writer)
  | children => Outline.layOutList style tree within (fun _ => true) writer below
  | childrenOf kind => Outline.layOutList style tree within (· == kind) writer below
  | comments => Outline.layOutList style tree within NodeKind.isComment writer below
  | firstKeyword => Outline.layOutKeyword style tree within writer below
  | enclosed =>
      (Outline.layOutList style tree within (fun _ => true) writer.inner below).map
        fun inner => writer.enclose inner style
  | fail error => .error error

/-- What a step that succeeds can do: it acts on the writer, or lays out children on it, or lays
them out apart. -/
inductive Takes (style : Style) (tree : Tree) (within : List NodeKind) (below : List Outline) :
    Writer → LayoutStep → Writer → Prop where
  | act (writer : Writer) (action : Action) :
      Takes style tree within below writer (act action) (action.apply style tree writer)
  | siblings {writer after : Writer} {step : LayoutStep} {selects : NodeKind → Bool}
      (lays : step.selects? = some selects)
      (isOk : Outline.layOutList style tree within selects writer below = .ok after) :
      Takes style tree within below writer step after
  | keyword {writer after : Writer}
      (isOk : Outline.layOutKeyword style tree within writer below = .ok after) :
      Takes style tree within below writer firstKeyword after
  | enclosed {writer inner : Writer}
      (isOk : Outline.layOutList style tree within (fun _ => true) writer.inner below = .ok inner) :
      Takes style tree within below writer enclosed (writer.enclose inner style)

theorem takes_of_run {style : Style} {tree : Tree} {within : List NodeKind} {below : List Outline}
    (isOk : step.run style tree within below writer = .ok after) :
    Takes style tree within below writer step after := by
  cases step with
  | act action =>
    cases isOk
    exact .act writer action
  | children | childrenOf kind | comments => exact .siblings rfl isOk
  | firstKeyword => exact .keyword isOk
  | enclosed =>
    cases inside : Outline.layOutList style tree within (fun _ => true) writer.inner below with
    | error error =>
      simp only [run, inside, Except.map] at isOk
      cases isOk
    | ok inner =>
      simp only [run, inside, Except.map, Except.ok.injEq] at isOk
      subst isOk
      exact .enclosed inside
  | fail error => cases isOk

end LayoutStep

theorem Outline.layOut_node (style : Style) (tree : Tree) (place : Place) (writer : Writer)
    (id : NodeId) (kind : NodeKind) (text : String) (attributes : Attributes)
    (children : List Outline) :
    (node id kind text attributes children).layOut style tree place writer =
      (LayoutStep.plan style place (node id kind text attributes children)).foldlM
        (LayoutStep.run style tree (kind :: place.ancestors) children) writer := by
  rw [Outline.layOut]
  rfl

/-- A relation between writers that is followed from action to action. The actions are those taken
in between, apart from white space. -/
structure Chains (Rel : Writer → List Action → Writer → Prop) : Prop where
  refl : ∀ writer, Rel writer [] writer
  trans : ∀ {first second third actions others}, Rel first actions second →
    Rel second others third → Rel first (actions ++ others) third

/-- A relation between writers that laying out keeps to. -/
structure Tracks (style : Style) (tree : Tree) (Rel : Writer → List Action → Writer → Prop) : Prop
    extends Chains Rel where
  act : ∀ writer {action : Action}, action.isDirect = true →
    Rel writer action.spoken (action.apply style tree writer)
  comment : ∀ writer {id kind text} {requests : List Action}, NodeKind.isComment kind = true →
    requests ⊆ [.requestBreak, .requestSpace, .noteSourceBreak] →
    Rel writer [.comment id text (style.wording.leaf kind text),
      .openRegion id text kind.commentEnd]
      ((requests.foldl (Action.apply style tree)
        (writer.comment style tree id text (style.wording.leaf kind text))).openRegion id text
          kind.commentEnd)
  enclose : ∀ {writer inner actions}, Rel (Writer.inner (writer.write style "(")) actions inner →
    Rel writer (.write "(" :: (actions ++ [.write ")"]))
      (((writer.write style "(").enclose inner style).write style ")")

namespace Chains

variable {style : Style} {tree : Tree} {Rel : Writer → List Action → Writer → Prop}
  {outlines : List Outline}

theorem layOutList (chains : Chains Rel)
    (each : ∀ outline ∈ outlines, ∀ {place writer after}, outline.layOut style tree place writer =
      .ok after → Rel writer (outline.spoken style.wording) after) {ancestors : List NodeKind}
    {selects : NodeKind → Bool}
    (isOk : Outline.layOutList style tree ancestors selects writer outlines = .ok after) :
    Rel writer (Outline.spokenOfList style.wording selects outlines) after := by
  induction outlines generalizing writer with
  | nil =>
    rw [Outline.layOutList] at isOk
    cases isOk
    rw [Outline.spokenOfList]
    exact chains.refl after
  | cons first rest ih =>
    obtain ⟨here, later⟩ := List.forall_mem_cons.mp each
    rw [Outline.layOutList] at isOk
    rw [Outline.spokenOfList]
    split at isOk
    next selected =>
      rw [if_pos selected]
      cases isFirst : first.layOut style tree { ancestors, next := rest.head? } writer with
      | error error =>
        rw [isFirst] at isOk
        cases isOk
      | ok next =>
        rw [isFirst] at isOk
        exact chains.trans (here isFirst) (ih later isOk)
    next passed =>
      rw [if_neg passed]
      exact ih later isOk

theorem layOutKeyword
    (each : ∀ outline ∈ outlines, ∀ {place writer after}, outline.layOut style tree place writer =
      .ok after → Rel writer (outline.spoken style.wording) after) {ancestors : List NodeKind}
    {writer after : Writer}
    (isOk : Outline.layOutKeyword style tree ancestors writer outlines = .ok after) :
    Rel writer (LayoutStep.spoken style.wording outlines .firstKeyword) after := by
  induction outlines with
  | nil =>
    rw [Outline.layOutKeyword] at isOk
    cases isOk
  | cons first rest ih =>
    obtain ⟨here, later⟩ := List.forall_mem_cons.mp each
    rw [Outline.layOutKeyword] at isOk
    rw [LayoutStep.spoken]
    split at isOk
    next isKeyword =>
      rw [List.find?_cons_of_pos (by simpa using isKeyword)]
      exact here isOk
    next other =>
      rw [List.find?_cons_of_neg (by simpa using other)]
      exact ih later isOk

end Chains

namespace Tracks

variable {style : Style} {tree : Tree} {Rel : Writer → List Action → Writer → Prop}

/-- A step takes the writer on through the actions that it calls for. -/
theorem takes (tracks : Tracks style tree Rel) {within : List NodeKind} {below : List Outline}
    (each : ∀ child ∈ below, ∀ {place writer after},
      child.layOut style tree place writer = .ok after →
      Rel writer (child.spoken style.wording) after) (direct : step.isDirect = true)
    (takes : step.Takes style tree within below writer after) :
    Rel writer (step.spoken style.wording below) after := by
  cases takes with
  | act action => exact tracks.act writer direct
  | siblings lays isOk =>
    rw [LayoutStep.spoken_of_selects lays]
    exact tracks.layOutList each isOk
  | keyword isOk => exact Chains.layOutKeyword each isOk
  | enclosed isOk => cases direct

theorem foldlM (tracks : Tracks style tree Rel) {within : List NodeKind} {below : List Outline}
    (each : ∀ child ∈ below, ∀ {place writer after},
      child.layOut style tree place writer = .ok after →
      Rel writer (child.spoken style.wording) after) {steps : List LayoutStep}
    (grouped : LayoutStep.Grouped steps)
    (isOk : steps.foldlM (LayoutStep.run style tree within below) writer = .ok after) :
    Rel writer (steps.flatMap (LayoutStep.spoken style.wording below)) after := by
  induction grouped generalizing writer with
  | nil =>
    cases isOk
    exact tracks.refl after
  | @cons step steps direct _ ih =>
    obtain ⟨next, isNext, isOk⟩ := LayoutStep.foldlM_cons_ok isOk
    exact tracks.trans (tracks.takes each direct (LayoutStep.takes_of_run isNext)) (ih isOk)
  | @parens steps _ ih =>
    obtain ⟨opened, isOpened, isOk⟩ := LayoutStep.foldlM_cons_ok isOk
    obtain ⟨enclosed, isEnclosed, isOk⟩ := LayoutStep.foldlM_cons_ok isOk
    obtain ⟨closed, isClosed, isOk⟩ := LayoutStep.foldlM_cons_ok isOk
    cases isOpened
    cases isClosed
    cases LayoutStep.takes_of_run isEnclosed with
    | siblings lays => cases lays
    | enclosed inside =>
      have group := tracks.trans (tracks.enclose (tracks.layOutList each inside)) (ih isOk)
      simpa [LayoutStep.spoken, Action.spoken] using group

/-- A document that is laid out takes the writer on through the actions that it calls for. -/
theorem layOut (tracks : Tracks style tree Rel) {outline : Outline} (regular : outline.Regular)
    {place : Place} (isOk : outline.layOut style tree place writer = .ok after) :
    Rel writer (outline.spoken style.wording) after := by
  induction outline generalizing place writer after with
  | node id kind text attributes children ih =>
    obtain ⟨_, fits, below⟩ := regular
    have each : ∀ child ∈ children, ∀ {place writer after},
        child.layOut style tree place writer = .ok after →
        Rel writer (child.spoken style.wording) after :=
      fun child member _ _ _ isOk => ih child member (below child member) isOk
    rw [Outline.layOut_node] at isOk
    cases content : kind.isComment with
    | true =>
      obtain ⟨requests, known, isPlan⟩ := LayoutStep.plan_comment style place content
      rw [isPlan, LayoutStep.foldlM_map_act fun _ _ => rfl] at isOk
      cases isOk
      rw [Outline.spoken, if_neg (by rintro rfl; cases content), if_pos content, List.foldl_cons,
        List.foldl_append]
      simp only [List.foldl_cons, List.foldl_nil, Action.apply]
      exact tracks.comment writer content known
    | false =>
      rw [← LayoutStep.plan_spoken style place fits]
      exact tracks.foldlM each (LayoutStep.plan_grouped style place content) isOk

end Tracks

theorem Outline.exists_layOut_of_output {style : Style} {tree : Tree} {place : Place}
    {outline : Outline} {text : String}
    (isText : (outline.layOut style tree place writer).map (Writer.output · style) = .ok text) :
    ∃ after, outline.layOut style tree place writer = .ok after ∧ after.output style = text := by
  cases isOk : outline.layOut style tree place writer with
  | error error =>
    rw [isOk] at isText
    cases isText
  | ok after =>
    rw [isOk] at isText
    exact ⟨after, rfl, Except.ok.inj isText⟩

/-- The tree that grows by one node after the other, each with the node it is appended to, its kind
and its text. -/
def Tree.ofAppends (nodes : List (NodeId × NodeKind × String)) : Tree :=
  nodes.foldl (fun tree node => (tree.append node.1 node.2.1 node.2.2).1) Tree.empty

end SqlLayout
