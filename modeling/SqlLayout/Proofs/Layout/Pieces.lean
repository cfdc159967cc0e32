import Mathlib.Data.List.Nodup
import SqlLayout.Layout.Document
import SqlLayout.Proofs.Draft.Nesting
import SqlLayout.Proofs.Layout.Writer

/-!
# The pieces of a document

What is written of a document, apart from white space: the leaves in document order, each as its
kind and three choices of wording have it, with parentheses around the pieces of each group. The
plan of a node takes exactly the actions that the node calls for, and so writes exactly its pieces,
also where it lays out the parts of a construct one kind at a time.
-/

namespace SqlLayout

variable {children : List Outline}

/-- The choices of a style that concern words. -/
structure Wording where
  /-- Whether keywords are written in upper case, instead of lower case. -/
  upperKeywords : Bool
  /-- Whether keywords are written in their preferred spelling. -/
  preferredKeywords : Bool
  /-- Whether plain names are written in brackets. -/
  bracketNames : Bool
deriving DecidableEq, Repr

def Style.wording (style : Style) : Wording where
  upperKeywords := style.upperKeywords
  preferredKeywords := style.preferredKeywords
  bracketNames := style.bracketNames

namespace Wording

def operator (wording : Wording) (text : String) : String :=
  if wording.upperKeywords then Text.upper text else Text.lower text

def keyword (wording : Wording) (text : String) : String :=
  wording.operator
    (((if wording.preferredKeywords then Keyword.preferred? (Text.upper text) else none)).getD text)

def plainName (wording : Wording) (text : String) : String :=
  if wording.bracketNames && text.toList.head?.any Text.isAlphabetic then bracketQuote text
  else text

/-- A text without line breaks. -/
def joinLines (text : String) : String :=
  String.ofList (text.toList.filter fun c => c != '\r' && c != '\n')

def leaf (wording : Wording) (kind : NodeKind) (text : String) : String :=
  match kind with
  | .lineComment => "--" ++ joinLines text
  | .slashComment => "//" ++ joinLines text
  | .blockComment => "/*" ++ text ++ "*/"
  | .string => quoteBody "'" '\'' text
  | .nationalString => quoteBody "N'" '\'' text
  | .quotedString => quoteBody "\"" '"' text
  | .bracketName => bracketQuote text
  | .comma => ","
  | .period | .semicolon | .scopeResolutionOperator | .asterisk | .equalsSign | .alphaOperator
  | .otherOperator => wording.operator text
  | .otherKeyword | .dataTypeKeyword | .pseudoName => wording.keyword text
  | .other => wording.plainName text
  | .number => Text.lower text
  | .binaryValue => "0x" ++ Text.upper (String.ofList ((Span.dropBytes 2 text.toList).getD []))
  | _ => text

end Wording

/-- What ends the line of a comment that runs to the end of its line. -/
def NodeKind.commentEnd (kind : NodeKind) : String :=
  if kind = .blockComment then "" else "\n"

namespace Outline

mutual

def pieces (wording : Wording) : Outline → List String
  | node _ kind text attributes children =>
      if kind = .whiteSpace then []
      else if kind.isLeaf then [wording.leaf kind text]
      else if kind = .compoundKeyword then
        ((attributes.get? .simpleText).map wording.keyword).toList ++
          piecesOfList wording NodeKind.isComment children
      else if kind.isParens then "(" :: (piecesOfList wording (fun _ => true) children ++ [")"])
      else piecesOfList wording (fun _ => true) children

def piecesOfList (wording : Wording) (selects : NodeKind → Bool) : List Outline → List String
  | [] => []
  | first :: rest =>
      if selects first.kind then pieces wording first ++ piecesOfList wording selects rest
      else piecesOfList wording selects rest

end

mutual

/-- The actions that an outline calls for, apart from white space, in document order. -/
def spoken (wording : Wording) : Outline → List Action
  | node id kind text attributes children =>
      if kind = .whiteSpace then []
      else if kind.isComment then
        [.comment id text (wording.leaf kind text), .openRegion id text kind.commentEnd]
      else if kind.isLeaf then [.write (wording.leaf kind text)]
      else if kind = .compoundKeyword then
        ((attributes.get? .simpleText).map fun simple => .write (wording.keyword simple)).toList ++
          spokenOfList wording NodeKind.isComment children
      else if kind.isParens then
        .write "(" :: (spokenOfList wording (fun _ => true) children ++ [.write ")"])
      else spokenOfList wording (fun _ => true) children

/-- The actions that the selected ones of sibling outlines call for. -/
def spokenOfList (wording : Wording) (selects : NodeKind → Bool) : List Outline → List Action
  | [] => []
  | first :: rest =>
      if selects first.kind then spoken wording first ++ spokenOfList wording selects rest
      else spokenOfList wording selects rest

end

theorem spokenOfList_eq (wording : Wording) (selects : NodeKind → Bool) (outlines : List Outline) :
    spokenOfList wording selects outlines =
      (outlines.filter fun outline => selects outline.kind).flatMap (spoken wording) := by
  induction outlines with
  | nil => simp [spokenOfList]
  | cons first rest ih =>
    rw [spokenOfList]
    cases selected : selects first.kind <;> simp [selected, ih]

theorem spokenOfList_subset (wording : Wording) (selects : NodeKind → Bool)
    (outlines : List Outline) :
    spokenOfList wording selects outlines ⊆ spokenOfList wording (fun _ => true) outlines := by
  rw [spokenOfList_eq, spokenOfList_eq, List.filter_true]
  intro action member
  obtain ⟨outline, among, member⟩ := List.mem_flatMap.mp member
  exact List.mem_flatMap.mpr ⟨outline, List.mem_of_mem_filter among, member⟩

theorem flatMap_pieces_spokenOfList {wording : Wording} {outlines : List Outline}
    (each : ∀ outline ∈ outlines, (outline.spoken wording).flatMap Action.pieces =
      outline.pieces wording)
    (selects : NodeKind → Bool) :
    (spokenOfList wording selects outlines).flatMap Action.pieces =
      piecesOfList wording selects outlines := by
  induction outlines with
  | nil => simp [spokenOfList, piecesOfList]
  | cons first rest ih =>
    obtain ⟨here, later⟩ := List.forall_mem_cons.mp each
    rw [spokenOfList, piecesOfList]
    split
    · rw [List.flatMap_append, here, ih later]
    · exact ih later

theorem flatMap_pieces_spoken (wording : Wording) (outline : Outline) :
    (outline.spoken wording).flatMap Action.pieces = outline.pieces wording := by
  induction outline with
  | node id kind text attributes children ih =>
    have siblings := flatMap_pieces_spokenOfList ih
    rw [spoken, pieces]
    split
    · rfl
    · split
      next isComment =>
        have isLeaf : kind.isLeaf = true := by
          revert isComment
          cases kind <;> decide
        rw [if_pos isLeaf]
        rfl
      · split
        · rfl
        · split
          · rw [List.flatMap_append, siblings]
            cases attributes.get? .simpleText <;> rfl
          · split
            · simp [Action.pieces, siblings]
            · exact siblings _

/-! ### Constructs in parts -/

/-- Outlines that come in the order of distinct kinds are found kind by kind. -/
theorem flatMap_filter_kind {stages : List NodeKind} (distinct : stages.Nodup)
    {outlines : List Outline} (known : ∀ outline ∈ outlines, outline.kind ∈ stages)
    (sorted : outlines.Pairwise fun first second =>
      stages.idxOf first.kind ≤ stages.idxOf second.kind) :
    (stages.flatMap fun stage => outlines.filter fun outline => outline.kind == stage) =
      outlines := by
  induction outlines with
  | nil => simp
  | cons first rest ih =>
    obtain ⟨here, later⟩ := List.forall_mem_cons.mp known
    obtain ⟨ahead, sorted⟩ := List.pairwise_cons.mp sorted
    obtain ⟨front, back, stagesEq⟩ := List.append_of_mem here
    have found := ih later sorted
    have apart : first.kind ∉ front ∧ first.kind ∉ back := by
      rw [stagesEq, List.nodup_middle, List.nodup_cons, List.mem_append, not_or] at distinct
      exact distinct.1
    -- Nothing is of an earlier kind than the first outline.
    have early : ∀ stage ∈ front, ∀ outline ∈ first :: rest, (outline.kind == stage) = false := by
      intro stage inFront outline member
      refine beq_eq_false_iff_ne.mpr fun isStage => ?_
      subst isStage
      have before : stages.idxOf outline.kind < front.length := by
        rw [stagesEq, List.idxOf_append_of_mem inFront]
        exact List.idxOf_lt_length_of_mem inFront
      have start : stages.idxOf first.kind = front.length := by
        rw [stagesEq, List.idxOf_append_of_notMem apart.1, List.idxOf_cons_self, Nat.add_zero]
      rcases List.mem_cons.mp member with rfl | inRest
      · exact apart.1 inFront
      · have order := ahead outline inRest
        omega
    have skipped : ∀ outlines : List Outline, outlines ⊆ first :: rest →
        (front.flatMap fun stage => outlines.filter fun outline => outline.kind == stage) = [] := by
      intro outlines inside
      refine List.flatMap_eq_nil_iff.mpr fun stage inFront => ?_
      refine List.filter_eq_nil_iff.mpr fun outline member => ?_
      simp [early stage inFront outline (inside member)]
    have behind : (back.flatMap fun stage =>
          (first :: rest).filter fun outline => outline.kind == stage) =
        back.flatMap fun stage => rest.filter fun outline => outline.kind == stage := by
      refine List.flatMap_congr fun stage inBack => ?_
      have other : (first.kind == stage) = false :=
        beq_eq_false_iff_ne.mpr fun isStage => apart.2 (isStage ▸ inBack)
      rw [List.filter_cons_of_neg (by simp [other])]
    rw [stagesEq, List.flatMap_append, List.flatMap_cons,
      skipped rest (List.subset_cons_self _ _)] at found
    rw [stagesEq, List.flatMap_append, List.flatMap_cons, skipped _ (List.Subset.refl _), behind,
      List.filter_cons_of_pos (by simp), List.nil_append, List.cons_append]
    exact congrArg (first :: ·) found

/-- What the parts of a construct call for, part by part. -/
theorem spokenOfList_stages {container : NodeKind} (staged : container.stages ≠ [])
    (arranged : Arranged container (children.map Outline.kind)) (wording : Wording) :
    (container.stages.flatMap fun stage => spokenOfList wording (· == stage) children) =
      spokenOfList wording (fun _ => true) children := by
  have distinct : container.stages.Nodup := by
    cases container <;> decide
  obtain ⟨known, ordered⟩ := arranged staged
  have sorted : children.Pairwise fun first second =>
      container.stages.idxOf first.kind ≤ container.stages.idxOf second.kind := by
    have pairs := List.isChain_iff_pairwise.mp ordered
    rwa [List.pairwise_map] at pairs
  have whole := flatMap_filter_kind distinct (List.forall_mem_map.mp known) sorted
  simp only [spokenOfList_eq, List.filter_true]
  conv_rhs => rw [← whole, List.flatMap_assoc]

end Outline

/-! ### The pieces of a plan -/

/-- The action itself, if it writes content or concerns a region. -/
def Action.spoken (action : Action) : List Action :=
  match action with
  | write _ | comment .. | openRegion .. => [action]
  | _ => []

theorem Action.flatMap_pieces_spoken (action : Action) :
    action.spoken.flatMap Action.pieces = action.pieces := by
  cases action <;> rfl

namespace LayoutStep

variable {id : NodeId} {kind : NodeKind} {text : String} {attributes : Attributes}
  {step : LayoutStep}

def pieces (wording : Wording) (children : List Outline) : LayoutStep → List String
  | act action => action.pieces
  | .children | enclosed => Outline.piecesOfList wording (fun _ => true) children
  | childrenOf kind => Outline.piecesOfList wording (· == kind) children
  | comments => Outline.piecesOfList wording NodeKind.isComment children
  | firstKeyword =>
      ((children.find? fun child => child.kind == .otherKeyword).map (Outline.pieces wording)).getD
        []
  | fail _ => []

/-- The actions that a step takes on a node with the given children, apart from white space. -/
def spoken (wording : Wording) (children : List Outline) : LayoutStep → List Action
  | act action => action.spoken
  | .children | enclosed => Outline.spokenOfList wording (fun _ => true) children
  | childrenOf kind => Outline.spokenOfList wording (· == kind) children
  | comments => Outline.spokenOfList wording NodeKind.isComment children
  | firstKeyword =>
      ((children.find? fun child => child.kind == .otherKeyword).map (Outline.spoken wording)).getD
        []
  | fail _ => []

theorem flatMap_pieces_spoken (wording : Wording) (children : List Outline) (step : LayoutStep) :
    (step.spoken wording children).flatMap Action.pieces = step.pieces wording children := by
  have siblings := Outline.flatMap_pieces_spokenOfList
    fun outline (_ : outline ∈ children) => outline.flatMap_pieces_spoken wording
  cases step with
  | act action => exact action.flatMap_pieces_spoken
  | children => exact siblings _
  | childrenOf kind => exact siblings _
  | comments => exact siblings _
  | enclosed => exact siblings _
  | firstKeyword =>
    rw [spoken, pieces]
    cases children.find? fun child => child.kind == .otherKeyword with
    | none => rfl
    | some keyword => exact keyword.flatMap_pieces_spoken wording
  | fail error => rfl

/-- A step that a node with the given children can take. -/
def Safe (children : List Outline) : LayoutStep → Prop
  | firstKeyword => ∃ keyword, children = [keyword] ∧ keyword.kind = .otherKeyword
  | fail _ => False
  | _ => True

def Quiet : LayoutStep → Prop
  | act action => action.Quiet
  | _ => True

theorem flatMap_when (wording : Wording) (children : List Outline) (condition : Bool)
    (action : Action) :
    (when condition action).flatMap (spoken wording children) =
      if condition then action.spoken else [] := by
  unfold when
  split <;> simp [spoken]

theorem flatMap_statementBody (wording : Wording) (children : List Outline) (isElseIf : Bool) :
    (statementBody isElseIf).flatMap (spoken wording children) =
      Outline.spokenOfList wording (fun _ => true) children := by
  unfold statementBody
  split <;> simp [spoken, Action.spoken]

theorem flatMap_comma (style : Style) (children : List Outline) (container : Option NodeKind) :
    (comma style container).flatMap (spoken style.wording children) = [.write ","] := by
  unfold comma
  dsimp only
  split
  · split <;> rfl
  · split
    · simp [flatMap_when, spoken, Action.spoken]
    · rfl

theorem flatMap_keyword (style : Style) (children : List Outline) (text : String) :
    (keyword style text).flatMap (spoken style.wording children) =
      [.write (style.wording.keyword text)] := by
  unfold keyword
  dsimp only
  split <;> rfl

theorem flatMap_blockComment (wording : Wording) (children : List Outline) (id : NodeId)
    (text : String) (place : Place) :
    (blockComment id text place).flatMap (spoken wording children) =
      [.comment id text ("/*" ++ text ++ "*/"), .openRegion id text ""] := by
  unfold blockComment
  dsimp only
  split <;> rfl

/-- The plan of a node that is laid out as a whole takes exactly the actions that the node calls
for, whatever the node holds. -/
theorem plan_spoken_of_whole (style : Style) (place : Place)
    (whole : kind.stages = [] ∧ kind ≠ .and ∧ kind ≠ .or ∧ kind ≠ .compoundKeyword) :
    (plan style place (.node id kind text attributes children)).flatMap
        (spoken style.wording children) =
      (Outline.node id kind text attributes children).spoken style.wording := by
  rw [Outline.spoken]
  cases kind
  case comma => exact flatMap_comma style children place.parent?
  case otherKeyword | dataTypeKeyword => exact flatMap_keyword style children text
  case blockComment => exact flatMap_blockComment style.wording children id text place
  case containerMultiStatementBody | containerSingleStatementBody | mergeAction =>
    exact flatMap_statementBody style.wording children _
  case string | nationalString | quotedString | bracketName | period | semicolon
      | scopeResolutionOperator | asterisk | equalsSign | alphaOperator | otherOperator | pseudoName
      | functionKeyword | other | monetaryValue | label | number | binaryValue | lineComment
      | slashComment => rfl
  case between | beginEndBlock | tryBlock | catchBlock | caseStatement | caseWhen |
    caseThen | caseElse
      | joinOn | elseClause | ddlAsBlock | cursorForBlock | cursorForOptions | cteAsBlock | and | or
      | compoundKeyword => simp [NodeKind.stages] at whole
  all_goals
    simp [plan, Outline.kind, clause, setOperator, hangingBlock, tightParens, tight, looseParens,
      flatMap_when, spoken, Action.spoken, NodeKind.isLeaf, NodeKind.isComment, NodeKind.isParens]

/-- The plan of a node takes exactly the actions that the node calls for, apart from white space. -/
theorem plan_spoken (style : Style) (place : Place) (fits : Outline.Fits kind attributes children) :
    (plan style place (.node id kind text attributes children)).flatMap
        (spoken style.wording children) =
      (Outline.node id kind text attributes children).spoken style.wording := by
  by_cases whole : kind.stages = [] ∧ kind ≠ .and ∧ kind ≠ .or ∧ kind ≠ .compoundKeyword
  · exact plan_spoken_of_whole style place whole
  rw [Outline.spoken]
  cases kind
  -- A construct is laid out part by part, in the order in which the parts come.
  case between | beginEndBlock | tryBlock | catchBlock | caseStatement | caseWhen |
    caseThen | caseElse
      | joinOn | elseClause | ddlAsBlock | cursorForBlock | cursorForOptions | cteAsBlock =>
    have staged := Outline.spokenOfList_stages (by decide) fits.arranged style.wording
    simpa [plan, Outline.kind, between, block, caseStatement, caseBranch, flatMap_when, spoken,
      Action.spoken, NodeKind.isLeaf, NodeKind.isComment, NodeKind.isParens,
      NodeKind.stages] using staged
  -- A logical operator has its keyword as its only child.
  case and | or =>
    obtain ⟨keyword, rfl, isKeyword⟩ := fits.keyed (by simp)
    have found : [keyword].find? (fun child => child.kind == .otherKeyword) = some keyword := by
      simp [isKeyword]
    simp [plan, Outline.node_kind, flatMap_when, spoken, Action.spoken, found, NodeKind.isLeaf,
      NodeKind.isComment, NodeKind.isParens, Outline.spokenOfList_eq]
  case compoundKeyword =>
    obtain ⟨simpleText, isText, _⟩ := fits.worded rfl
    simp [plan, Outline.kind, Outline.attributes, compoundKeyword, isText, spoken, Action.spoken,
      NodeKind.isLeaf, NodeKind.isComment]
    rfl
  all_goals simp [NodeKind.stages] at whole

theorem spoken_firstKeyword_subset (wording : Wording) (children : List Outline) :
    spoken wording children .firstKeyword ⊆
      Outline.spokenOfList wording (fun _ => true) children := by
  rw [spoken, Outline.spokenOfList_eq, List.filter_true]
  cases found : children.find? fun child => child.kind == .otherKeyword with
  | none => exact List.nil_subset _
  | some keyword =>
    intro action member
    exact List.mem_flatMap.mpr ⟨keyword, List.mem_of_find?_eq_some found, member⟩

/-- The plan of a node takes no other actions than the node calls for, whatever the node holds. -/
theorem plan_spoken_subset (style : Style) (place : Place) (id : NodeId) (kind : NodeKind)
    (text : String) (attributes : Attributes) (children : List Outline) :
    (plan style place (.node id kind text attributes children)).flatMap
        (spoken style.wording children) ⊆
      (Outline.node id kind text attributes children).spoken style.wording := by
  by_cases whole : kind.stages = [] ∧ kind ≠ .and ∧ kind ≠ .or ∧ kind ≠ .compoundKeyword
  · rw [plan_spoken_of_whole style place whole]
    exact List.Subset.refl _
  have selected := fun stage => Outline.spokenOfList_subset style.wording (· == stage) children
  rw [Outline.spoken]
  cases kind
  -- Of a construct the parts are laid out, and nothing that is no part of it.
  case between | beginEndBlock | tryBlock | catchBlock | caseStatement | caseWhen |
    caseThen | caseElse
      | joinOn | elseClause | ddlAsBlock | cursorForBlock | cursorForOptions | cteAsBlock =>
    simp [plan, Outline.kind, between, block, caseStatement, caseBranch, flatMap_when,
      spoken, Action.spoken, NodeKind.isLeaf, NodeKind.isComment, NodeKind.isParens, selected]
  case and | or =>
    simpa [plan, Outline.kind, flatMap_when, Action.spoken, NodeKind.isLeaf, NodeKind.isComment,
      NodeKind.isParens]
      using spoken_firstKeyword_subset style.wording children
  case compoundKeyword =>
    simp only [plan, Outline.kind, Outline.attributes, compoundKeyword]
    cases attributes.get? .simpleText with
    | none => exact List.nil_subset _
    | some simple =>
      have same : style.keyword simple = style.wording.keyword simple := rfl
      simp [spoken, Action.spoken, NodeKind.isLeaf, NodeKind.isComment, same]
  all_goals simp [NodeKind.stages] at whole

/-- The plan of a node writes exactly the pieces of the node. -/
theorem plan_pieces (style : Style) (place : Place) (fits : Outline.Fits kind attributes children) :
    (plan style place (.node id kind text attributes children)).flatMap
        (pieces style.wording children) =
      (Outline.node id kind text attributes children).pieces style.wording := by
  rw [← Outline.flatMap_pieces_spoken, ← plan_spoken style place fits, List.flatMap_assoc]
  simp only [flatMap_pieces_spoken]

/-! ### Steps that always succeed -/

/-- A step that every node can take and that opens no region. -/
def isPlain : LayoutStep → Bool
  | act (.openRegion _ _ _) | firstKeyword | fail _ => false
  | _ => true

theorem safe_of_isPlain (plain : step.isPlain = true) (children : List Outline) :
    step.Safe children := by
  cases step <;> simp_all [isPlain, Safe]

theorem quiet_of_isPlain (plain : step.isPlain = true) : step.Quiet := by
  cases step with
  | act action => cases action <;> simp_all [isPlain, Quiet, Action.Quiet]
  | _ => trivial

theorem all_when (condition : Bool) (action : Action) :
    (when condition action).all isPlain = (!condition || (act action).isPlain) := by
  cases condition <;> simp [when]

theorem isPlain_of_mem_when {condition : Bool} {action : Action}
    (plain : (act action).isPlain = true) (member : step ∈ when condition action) :
    step.isPlain = true := by
  have all := all_when condition action
  rw [plain, Bool.or_true, List.all_eq_true] at all
  exact all step member

theorem plan_isPlain (style : Style) (place : Place)
    (ordinary : kind.isComment = false ∧ kind ≠ .compoundKeyword ∧ kind ≠ .and ∧ kind ≠ .or) :
    (plan style place (.node id kind text attributes children)).all isPlain = true := by
  cases kind
  case comma =>
    simp only [plan, Outline.node_kind, comma]
    split
    · split <;> rfl
    · split
      · simp [all_when, isPlain]
      · rfl
  case otherKeyword | dataTypeKeyword =>
    simp only [plan, Outline.node_kind, keyword]
    split <;> rfl
  case containerMultiStatementBody | containerSingleStatementBody | mergeAction =>
    simp only [plan, Outline.node_kind, statementBody]
    split <;> rfl
  case compoundKeyword | and | or | lineComment | slashComment | blockComment =>
    simp [NodeKind.isComment] at ordinary
  all_goals
    simp [plan, Outline.kind, clause, setOperator, hangingBlock, tightParens, tight,
      looseParens, word, between, block, caseStatement, caseBranch, all_when, isPlain]

/-- A node that holds what its kind allows can be laid out. -/
theorem plan_safe (style : Style) (place : Place) (fits : Outline.Fits kind attributes children) :
    ∀ step ∈ plan style place (.node id kind text attributes children), step.Safe children := by
  by_cases ordinary : kind.isComment = false ∧ kind ≠ .compoundKeyword ∧ kind ≠ .and ∧ kind ≠ .or
  · exact fun step member =>
      safe_of_isPlain (List.all_eq_true.mp (plan_isPlain style place ordinary) step
      member) children
  · cases kind
    case and | or =>
      refine List.forall_mem_append.mpr ⟨fun step member => ?_, ?_⟩
      · exact safe_of_isPlain (isPlain_of_mem_when rfl member) children
      · simpa [Safe] using fits.keyed (by simp)
    case compoundKeyword =>
      obtain ⟨simpleText, isText, _⟩ := fits.worded rfl
      simp [plan, Outline.kind, Outline.attributes, compoundKeyword, isText, Safe]
    case lineComment | slashComment => simp [plan, Outline.node_kind, lineComment, Safe]
    case blockComment => simp [plan, Outline.node_kind, blockComment, Safe]
    all_goals simp [NodeKind.isComment] at ordinary

/-- A node opens no region, unless it is a comment that asks for one. -/
theorem plan_quiet (style : Style) (place : Place)
    (quiet : kind.isComment = true → Region.openedBy? text = none) :
    ∀ step ∈ plan style place (.node id kind text attributes children), step.Quiet := by
  by_cases ordinary : kind.isComment = false ∧ kind ≠ .compoundKeyword ∧ kind ≠ .and ∧ kind ≠ .or
  · exact fun step member =>
      quiet_of_isPlain (List.all_eq_true.mp (plan_isPlain style place ordinary) step member)
  · cases kind
    case and | or =>
      refine List.forall_mem_append.mpr ⟨fun step member => ?_, by simp [Quiet]⟩
      exact quiet_of_isPlain (isPlain_of_mem_when rfl member)
    case compoundKeyword =>
      simp only [plan, Outline.node_kind, compoundKeyword]
      split <;> simp [Quiet, Action.Quiet]
    case lineComment | slashComment =>
      simpa [plan, Outline.kind, Outline.text, lineComment, Quiet, Action.Quiet] using quiet rfl
    case blockComment =>
      simp only [plan, Outline.kind, Outline.text, blockComment]
      split <;> simpa [Quiet, Action.Quiet] using quiet rfl
    all_goals simp [NodeKind.isComment] at ordinary

end LayoutStep

end SqlLayout
