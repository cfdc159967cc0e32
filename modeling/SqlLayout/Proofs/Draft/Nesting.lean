import Mathlib.Data.List.Chain
import SqlLayout.Proofs.Draft.Navigation

/-!
# Nesting

Which containers may be opened inside which, and in what order the parts of a construct come. A
sound draft keeps to both, so the way up from the container in hand is known as far as the kinds on
it determine one another, and a document is made of regular nodes.
-/

namespace SqlLayout

variable {kind : NodeKind}

namespace NodeKind

/-- The containers that take the tokens of a script as they come. -/
def holders : List NodeKind := [
  clause, containerContentBody, booleanExpression, caseInput, lowerBound, upperBound,
  selectionTarget, joinTarget, ddlProceduralBlock, ddlOtherBlock, ddlDeclareBlock,
  cursorDeclaration, cteAlias, permissionsDetail, mergeTarget, mergeUsing, expressionParens,
  functionParens, inParens, ddlParens, ddlDetailParens, selectionTargetParens]

/-- The containers that a container is opened in. -/
def parents : NodeKind → List NodeKind
  | statement =>
      [root, containerMultiStatementBody, containerSingleStatementBody, containerContentBody,
        mergeAction]
  | clause => [statement, expressionParens, inParens, selectionTargetParens]
  | containerMultiStatementBody => [beginEndBlock, tryBlock, catchBlock]
  | containerSingleStatementBody => [ifStatement, whileLoop, elseClause]
  | containerContentBody =>
      [permissionsTarget, permissionsRecipient, cteWithClause, cteAsBlock, joinOn, ddlWithClause,
        ddlDeclareBlock, ddlAsBlock, caseWhen, caseThen, caseElse, cursorForBlock, cursorForOptions,
        mergeCondition, mergeWhen]
  | booleanExpression => [ifStatement, whileLoop]
  | elseClause => [ifStatement]
  | caseInput | caseWhen | caseElse => [caseStatement]
  | caseThen => [caseWhen]
  | cursorForBlock | cursorForOptions => [cursorDeclaration]
  | cteWithClause => [clause]
  | cteAlias | cteAsBlock => [containerContentBody]
  | ddlAsBlock => [ddlProceduralBlock]
  | ddlWithClause => [ddlProceduralBlock, ddlOtherBlock, permissionsBlock]
  | permissionsDetail | permissionsTarget | permissionsRecipient => [permissionsBlock]
  | mergeTarget | mergeUsing | mergeCondition | mergeWhen => [mergeClause]
  | mergeThen => [mergeWhen]
  | mergeAction => [mergeThen]
  | lowerBound | upperBound => [between]
  | beginEndBlock | tryBlock | catchBlock | caseStatement | ifStatement | whileLoop
  | cursorDeclaration | ddlDeclareBlock | ddlProceduralBlock | ddlOtherBlock | permissionsBlock
  | mergeClause | selectionTarget | joinTarget | joinOn | between | expressionParens
  | functionParens | inParens | ddlParens | ddlDetailParens | selectionTargetParens => holders
  | _ => []

/-- The parts of a construct in the order in which they come; other containers take their children
in any order. -/
def stages : NodeKind → List NodeKind
  | between => [containerOpen, lowerBound, containerClose, upperBound]
  | beginEndBlock | tryBlock | catchBlock =>
      [containerOpen, containerMultiStatementBody, containerClose]
  | caseStatement => [containerOpen, caseInput, caseWhen, caseElse, containerClose]
  | caseWhen | caseThen | caseElse => [containerOpen, containerContentBody, caseThen]
  | joinOn | ddlAsBlock | cursorForBlock | cursorForOptions | cteAsBlock =>
      [containerOpen, containerContentBody]
  | elseClause => [containerOpen, containerSingleStatementBody]
  | _ => []

/-- The part that a construct is not complete without. -/
def finish? : NodeKind → Option NodeKind
  | beginEndBlock | tryBlock | catchBlock | caseStatement => some containerClose
  | between => some upperBound
  | _ => none

/-- A container that may be left at any time. -/
def isFree (kind : NodeKind) : Bool :=
  !kind.isParens && kind != ddlAsBlock && kind.finish?.isNone

/-- A node that holds a text and no nodes. -/
def isLeaf : NodeKind → Bool
  | functionKeyword | dataTypeKeyword | otherKeyword | label | pseudoName | whiteSpace | other
  | lineComment | slashComment | blockComment | string | nationalString | quotedString | bracketName
  | comma | period | semicolon | scopeResolutionOperator | asterisk | equalsSign | alphaOperator
  | otherOperator | number | monetaryValue | binaryValue => true
  | _ => false

/-- Whether a container whose last child has a given kind takes a child of another kind next. -/
def accepts (container : NodeKind) (last : Option NodeKind) (kind : NodeKind) : Bool :=
  container.stages.isEmpty ||
    (container.stages.contains kind &&
      last.all fun last => container.stages.idxOf last ≤ container.stages.idxOf kind)

theorem stages_of_mem_holders (holder : kind ∈ holders) : kind.stages = [] :=
  (by decide : ∀ kind ∈ holders, kind.stages = []) kind holder

theorem stages_of_isLeaf (isLeaf : kind.isLeaf = true) : kind.stages = [] := by
  revert isLeaf
  cases kind <;> decide

theorem parents_of_isLeaf (isLeaf : kind.isLeaf = true) : kind.parents = [] := by
  revert isLeaf
  cases kind <;> decide

/-- A node that holds nodes, without a rule of its own on what they are. -/
def isContainer (kind : NodeKind) : Bool :=
  !kind.isLeaf && kind != compoundKeyword && kind != and && kind != or

theorem isContainer_of_opens (opens : kind = root ∨ kind.parents ≠ []) :
    kind.isContainer = true := by
  revert opens
  cases kind <;> decide

end NodeKind

/-- The kinds of a container and of those around it, the innermost first, up to the root. -/
def Nested : List NodeKind → Prop
  | [] => False
  | [kind] => kind = .root
  | kind :: parent :: others => parent ∈ kind.parents ∧ Nested (parent :: others)

namespace Nested

variable {kind : NodeKind} {others : List NodeKind}

theorem exists_parent (nested : Nested (kind :: others)) (inner : kind ≠ .root) :
    ∃ parent outer, others = parent :: outer ∧ parent ∈ kind.parents ∧
      Nested (parent :: outer) := by
  cases others with
  | nil => exact absurd nested inner
  | cons parent outer => exact ⟨parent, outer, rfl, nested⟩

theorem opens (nested : Nested (kind :: others)) : kind = .root ∨ kind.parents ≠ [] := by
  by_cases inner : kind = .root
  · exact .inl inner
  · obtain ⟨parent, _, _, member, _⟩ := nested.exists_parent inner
    exact .inr (List.ne_nil_of_mem member)

theorem eq_nil_of_root (nested : Nested (.root :: others)) : others = [] := by
  cases others with
  | nil => rfl
  | cons parent outer => exact absurd nested.1 List.not_mem_nil

theorem parent_eq (nested : Nested (kind :: others)) {parent : NodeKind}
    (only : kind.parents = [parent]) :
    ∃ outer, others = parent :: outer ∧ Nested (parent :: outer) := by
  have inner : kind ≠ .root := by
    rintro rfl
    exact absurd only (List.cons_ne_nil _ _).symm
  obtain ⟨found, outer, rfl, member, above⟩ := nested.exists_parent inner
  rw [only, List.mem_singleton] at member
  exact ⟨outer, member ▸ rfl, member ▸ above⟩

theorem parent_holder (nested : Nested (kind :: others))
    (anywhere : kind.parents = NodeKind.holders) :
    ∃ parent outer, others = parent :: outer ∧ parent ∈ NodeKind.holders ∧
      Nested (parent :: outer) := by
  have inner : kind ≠ .root := by
    rintro rfl
    exact absurd anywhere (by decide)
  obtain ⟨found, outer, rfl, member, above⟩ := nested.exists_parent inner
  exact ⟨found, outer, rfl, anywhere ▸ member, above⟩

theorem tail {parent : NodeKind} (nested : Nested (kind :: parent :: others)) :
    Nested (parent :: others) :=
  nested.2

theorem of_append {inner : List NodeKind} (nested : Nested (inner ++ kind :: others)) :
    Nested (kind :: others) := by
  induction inner with
  | nil => exact nested
  | cons first rest ih =>
    cases rest with
    | nil => exact nested.tail
    | cons second more => exact ih nested.tail

end Nested

def Arranged (container : NodeKind) (kinds : List NodeKind) : Prop :=
  container.stages ≠ [] → (∀ kind ∈ kinds, kind ∈ container.stages) ∧
    kinds.IsChain fun first second => container.stages.idxOf first ≤ container.stages.idxOf second

namespace Arranged

variable {container kind : NodeKind} {kinds : List NodeKind}

theorem nil : Arranged container [] := fun _ => by simp

theorem snoc (arranged : Arranged container kinds)
    (accepted : container.accepts kinds.getLast? kind = true) :
    Arranged container (kinds ++ [kind]) := by
  intro staged
  obtain ⟨known, ordered⟩ := arranged staged
  simp only [NodeKind.accepts, List.isEmpty_iff, staged, Bool.or_eq_true, Bool.and_eq_true,
    List.contains_iff_mem, false_or, Option.all_eq_true, decide_eq_true_eq] at accepted
  refine ⟨fun part member => ?_, List.isChain_append.mpr ⟨ordered, by simp, ?_⟩⟩
  · rcases List.mem_append.mp member with old | new
    · exact known part old
    · exact List.mem_singleton.mp new ▸ accepted.1
  · intro last isLast part isKind
    simp only [List.head?_cons, Option.mem_def, Option.some.injEq] at isKind
    exact isKind ▸ accepted.2 last isLast

theorem left {others : List NodeKind} (arranged : Arranged container (kinds ++ others)) :
    Arranged container kinds := by
  intro staged
  obtain ⟨known, ordered⟩ := arranged staged
  exact ⟨fun part member => known part (List.mem_append_left _ member), ordered.left_of_append⟩

theorem of_unstaged (unstaged : container.stages = []) : Arranged container kinds :=
  fun staged => absurd unstaged staged

end Arranged

/-- A word of capital letters. -/
def Keyword.isPlain (word : String) : Bool :=
  word != "" && word.toList.all Char.isUpper

/-- A compound keyword is made of plain keywords, with blanks and comments between, and its text of
their words. -/
structure Phrased (simple : String) (parts : List (NodeKind × String)) : Prop where
  keywords : ∀ part ∈ parts, part.1.isTrivia = false →
    part.1 = .otherKeyword ∧ Keyword.isPlain (Text.upper part.2) = true
  content : ∃ part ∈ parts, part.1.isTrivia = false
  text : simple = " ".intercalate ((parts.filter fun part => !part.1.isTrivia).map
    fun part => Text.upper part.2)

def Spaceless (parts : List (NodeKind × String)) : Prop :=
  ∀ part ∈ parts, part.1 = .otherKeyword → ' ' ∉ (Text.upper part.2).toList

theorem Spaceless.append {parts moved : List (NodeKind × String)} (spaceless : Spaceless parts)
    (trivia : ∀ part ∈ moved, part.1.isTrivia = true) : Spaceless (parts ++ moved) := by
  refine List.forall_mem_append.mpr ⟨spaceless, ?_⟩
  intro part member isKeyword
  have isTrivia := trivia part member
  rw [isKeyword] at isTrivia
  exact absurd isTrivia (by decide)

theorem Phrased.left {simple : String} {parts moved : List (NodeKind × String)}
    (phrased : Phrased simple (parts ++ moved)) (trivia : ∀ part ∈ moved, part.1.isTrivia = true) :
    Phrased simple parts where
  keywords part member := phrased.keywords part (List.mem_append_left _ member)
  content := by
    rcases phrased.content with ⟨part, member, content⟩
    rcases List.mem_append.mp member with among | isMoved
    · exact ⟨part, among, content⟩
    · rw [trivia part isMoved] at content
      cases content
  text := by
    have none : moved.filter (fun part => !part.1.isTrivia) = [] :=
      List.filter_eq_nil_iff.mpr fun part member => by simp [trivia part member]
    rw [phrased.text, List.filter_append, none, List.append_nil]

namespace Outline

def part (outline : Outline) : NodeKind × String :=
  (outline.kind, outline.text)

/-- What a node of a kind holds. -/
structure Fits (kind : NodeKind) (attributes : Attributes) (children : List Outline) : Prop where
  /-- A leaf has no children. -/
  childless : kind.isLeaf = true → children = []
  /-- A compound keyword has a text of its own. -/
  worded : kind = .compoundKeyword → ∃ simple, attributes.get? .simpleText = some simple ∧
    (Spaceless (children.map part) → Phrased simple (children.map part))
  /-- A logical operator holds its keyword. -/
  keyed : kind = .and ∨ kind = .or → ∃ keyword, children = [keyword] ∧ keyword.kind = .otherKeyword
  /-- The parts of a construct come in order. -/
  arranged : Arranged kind (children.map Outline.kind)
  /-- The parts of a compound keyword are leaves. -/
  flat : kind = .compoundKeyword → ∀ child ∈ children, child.kind.isLeaf = true

/-- Every node of an outline holds what its kind allows, and only leaves have a text. -/
inductive Regular : Outline → Prop where
  | node {id : NodeId} {kind : NodeKind} {text : String} {attributes : Attributes}
      {children : List Outline} (bare : kind.isLeaf = true ∨ text = "")
      (fits : Fits kind attributes children)
      (below : ∀ child ∈ children, Regular child) : Regular (.node id kind text attributes children)

theorem regular_leaf (id : NodeId) (text : String) (isLeaf : kind.isLeaf = true) :
    (leaf id kind text).Regular := by
  refine .node (.inl isLeaf) ⟨fun _ => rfl, ?_, ?_, .nil, by simp⟩ (by simp)
  · rintro rfl
    exact absurd isLeaf (by decide)
  · rintro (rfl | rfl) <;> exact absurd isLeaf (by decide)

theorem fits_of_isContainer (container : kind.isContainer = true) (attributes : Attributes)
    {children : List Outline} (arranged : Arranged kind (children.map Outline.kind)) :
    Fits kind attributes children := by
  simp only [NodeKind.isContainer, Bool.and_eq_true, Bool.not_eq_true', bne_iff_ne] at container
  obtain ⟨⟨⟨nodes, notCompound⟩, notAnd⟩, notOr⟩ := container
  refine ⟨fun isLeaf => ?_, fun isCompound => absurd isCompound notCompound, ?_, arranged,
    fun isCompound => absurd isCompound notCompound⟩
  · simp [nodes] at isLeaf
  · exact fun isOperator => (isOperator.elim notAnd notOr).elim

theorem fits_of_opens (opens : kind = .root ∨ kind.parents ≠ []) (attributes : Attributes)
    {children : List Outline} (arranged : Arranged kind (children.map Outline.kind)) :
    Fits kind attributes children :=
  fits_of_isContainer (NodeKind.isContainer_of_opens opens) attributes arranged

end Outline

/-! ### Sound drafts -/

/-- What an open container holds around one of a given kind. Only the condition of an `IF` or
`WHILE` is ever open with something behind it: bodies that stayed empty. -/
structure Frame.Sound (hole : NodeKind) (frame : Frame) : Prop where
  arranged : Arranged frame.kind
    (frame.before.map Outline.kind ++ hole :: frame.after.map Outline.kind)
  regular : ∀ outline ∈ frame.before, outline.Regular
  behind : ∀ outline ∈ frame.after, hole = .booleanExpression ∧
    outline = .leaf outline.id .containerSingleStatementBody ""

def Frame.AllSound (hole : NodeKind) : List Frame → Prop
  | [] => True
  | frame :: outer => frame.Sound hole ∧ AllSound frame.kind outer

/-- A document under construction whose parts are all in their places. -/
structure Draft.Sound (draft : Draft) : Prop where
  nested : Nested draft.path
  arranged : Arranged draft.kind (draft.children.map Outline.kind)
  regular : ∀ outline ∈ draft.children, outline.Regular
  around : Frame.AllSound draft.kind draft.outer

namespace Draft

variable {draft : Draft}

def lastKind (draft : Draft) : Option NodeKind :=
  draft.children.getLast?.map Outline.kind

/-- Whether the container in hand takes a child of a kind next. -/
def Accepts (draft : Draft) (kind : NodeKind) : Prop :=
  draft.kind.accepts draft.lastKind kind = true

theorem lastKind_add (draft : Draft) (outline : Outline) :
    (draft.add outline).lastKind = some outline.kind := by
  simp [lastKind, add]

theorem accepts_of_unstaged (unstaged : draft.kind.stages = []) (kind : NodeKind) :
    draft.Accepts kind := by
  simp [Accepts, NodeKind.accepts, unstaged]

theorem accepts_of_holder (holder : draft.kind ∈ NodeKind.holders) (kind : NodeKind) :
    draft.Accepts kind :=
  accepts_of_unstaged (NodeKind.stages_of_mem_holders holder) kind

theorem enclosed_of_path {parent : NodeKind} {others : List NodeKind}
    (path : draft.path = kind :: parent :: others) : draft.outer ≠ [] := by
  intro none
  rw [Draft.path, none] at path
  exact absurd (List.cons.inj path).2 (List.cons_ne_nil _ _).symm

namespace Sound

variable {draft : Draft}

theorem enclosed (sound : draft.Sound) (inner : draft.kind ≠ .root) : draft.outer ≠ [] := by
  intro none
  have nested := sound.nested
  rw [Draft.path, none] at nested
  exact inner nested

theorem enclosed_of_isParens (sound : draft.Sound) (group : draft.kind.isParens = true) :
    draft.outer ≠ [] := by
  refine sound.enclosed fun isRoot => ?_
  rw [isRoot] at group
  exact absurd group (by decide)

/-- The container around the one in hand is one that it is opened in. -/
theorem kind_up (sound : draft.Sound) (enclosed : draft.outer ≠ []) :
    draft.up.kind ∈ draft.kind.parents := by
  obtain ⟨frame, outer, around⟩ := List.exists_cons_of_ne_nil enclosed
  have nested := sound.nested
  rw [Draft.path, around] at nested
  rw [Draft.up_eq around]
  exact nested.1

theorem add (sound : draft.Sound) {outline : Outline} (regular : outline.Regular)
    (accepted : draft.Accepts outline.kind) : (draft.add outline).Sound where
  nested := sound.nested
  arranged := by
    have grown := sound.arranged.snoc (by simpa [Accepts, lastKind] using accepted)
    simpa [Draft.add] using grown
  regular := by
    intro other member
    rcases List.mem_append.mp member with old | new
    · exact sound.regular other old
    · exact List.mem_singleton.mp new ▸ regular
  around := sound.around

theorem enter (sound : draft.Sound) (id : NodeId) {kind : NodeKind}
    (opens : draft.kind ∈ kind.parents) (accepted : draft.Accepts kind) :
    (draft.enter id kind).Sound where
  nested := ⟨opens, sound.nested⟩
  arranged := .nil
  regular := by simp [Draft.enter]
  around := by
    refine ⟨⟨?_, sound.regular, by simp [frame]⟩, sound.around⟩
    have grown := sound.arranged.snoc (by simpa [Accepts, lastKind] using accepted)
    simpa [frame, Draft.enter] using grown

theorem closed (sound : draft.Sound) : draft.closed.Regular :=
  .node (.inr rfl) (Outline.fits_of_opens sound.nested.opens _ sound.arranged) sound.regular

theorem up (sound : draft.Sound) : draft.up.Sound := by
  unfold Draft.up
  split
  · exact sound
  next frame outer around =>
    obtain ⟨here, above⟩ : frame.Sound draft.kind ∧ Frame.AllSound frame.kind outer := by
      simpa [around, Frame.AllSound] using sound.around
    refine ⟨?_, by simpa using here.arranged, ?_, above⟩
    · have nested := sound.nested
      simp only [path, around, List.map_cons] at nested
      exact nested.tail
    · intro outline member
      rcases List.mem_append.mp member with before | after
      · exact here.regular outline before
      · rcases List.mem_cons.mp after with rfl | behind
        · exact sound.closed
        · rw [(here.behind outline behind).2]
          exact .node (.inr rfl) (Outline.fits_of_opens (.inr (by decide)) _ .nil) (by simp)

theorem ups (sound : draft.Sound) (levels : Nat) : (draft.ups levels).Sound := by
  induction levels generalizing draft with
  | zero => exact sound
  | succ levels ih => exact ih sound.up

theorem addAll (sound : draft.Sound) {outlines : List Outline}
    (regular : ∀ outline ∈ outlines, outline.Regular) (unstaged : draft.kind.stages = []) :
    (draft.addAll outlines).Sound where
  nested := sound.nested
  arranged := .of_unstaged unstaged
  regular := by
    intro outline member
    rcases List.mem_append.mp member with old | new
    · exact sound.regular outline old
    · exact regular outline new
  around := sound.around

theorem slip (sound : draft.Sound) {outline : Outline} (regular : outline.Regular)
    (unstaged : ∀ frame ∈ draft.outer.head?, frame.kind.stages = []) :
    (draft.slip outline).Sound := by
  unfold Draft.slip
  split
  · exact sound
  next frame outer around =>
    obtain ⟨here, above⟩ : frame.Sound draft.kind ∧ Frame.AllSound frame.kind outer := by
      simpa [around, Frame.AllSound] using sound.around
    refine ⟨by simpa [path, around] using sound.nested, sound.arranged, sound.regular, ?_, above⟩
    refine ⟨.of_unstaged (unstaged frame (by simp [around])), ?_, here.behind⟩
    intro other member
    rcases List.mem_append.mp member with old | new
    · exact here.regular other old
    · exact List.mem_singleton.mp new ▸ regular

theorem follow (sound : draft.Sound) (condition : draft.kind = .booleanExpression)
    (unstaged : ∀ frame ∈ draft.outer.head?, frame.kind.stages = []) (id : NodeId) :
    (draft.follow (.leaf id .containerSingleStatementBody "")).Sound := by
  unfold Draft.follow
  split
  · exact sound
  next frame outer around =>
    obtain ⟨here, above⟩ : frame.Sound draft.kind ∧ Frame.AllSound frame.kind outer := by
      simpa [around, Frame.AllSound] using sound.around
    refine ⟨by simpa [path, around] using sound.nested, sound.arranged, sound.regular, ?_, above⟩
    refine ⟨.of_unstaged (unstaged frame (by simp [around])), here.regular, ?_⟩
    intro other member
    rcases List.mem_append.mp member with old | new
    · exact here.behind other old
    · rw [List.mem_singleton.mp new]
      exact ⟨condition, rfl⟩

theorem setAttribute (sound : draft.Sound) (id : NodeId) (key : Attribute) (value : String) :
    (draft.setAttribute id key value).Sound := by
  refine ⟨by simpa using sound.nested, sound.arranged, sound.regular, ?_⟩
  have frames : ∀ (hole : NodeKind) (outer : List Frame), Frame.AllSound hole outer →
      Frame.AllSound hole (Frame.setAttributes id key value outer) := by
    intro hole outer
    induction outer generalizing hole with
    | nil => exact fun _ => trivial
    | cons frame outer ih =>
      rintro ⟨here, above⟩
      simp only [Frame.setAttributes, List.map_cons]
      split
      · exact ⟨⟨here.arranged, here.regular, here.behind⟩, ih _ above⟩
      · exact ⟨here, ih _ above⟩
  exact frames draft.kind draft.outer sound.around

theorem content (sound : draft.Sound) : draft.kind.isTrivia = false := by
  have containers : ∀ kind : NodeKind, kind.isContainer = true → kind.isTrivia = false := by
    intro kind
    cases kind <;> decide
  exact containers _ (NodeKind.isContainer_of_opens sound.nested.opens)

/-- Only bodies behind a condition follow an open container. -/
theorem after_eq_nil (sound : draft.Sound) {frame : Frame} {outer : List Frame}
    (around : draft.outer = frame :: outer) (notCondition : draft.kind ≠ .booleanExpression) :
    frame.after = [] := by
  have frames := sound.around
  rw [around] at frames
  exact List.eq_nil_iff_forall_not_mem.mpr fun outline member =>
    notCondition (frames.1.behind outline member).1

/-- The document of a sound draft is regular. -/
theorem outline_regular (sound : draft.Sound) : draft.outline.Regular := by
  obtain ⟨id, kind, attributes, children, outer⟩ := draft
  induction outer generalizing id kind attributes children with
  | nil => exact sound.closed
  | cons frame outer ih => exact ih _ _ _ _ sound.up

end Sound

end Draft

end SqlLayout
