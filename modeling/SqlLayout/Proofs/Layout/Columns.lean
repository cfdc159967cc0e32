import SqlLayout.Proofs.Formatting
import SqlLayout.Proofs.Layout.Rows

/-!
# The column of a writer

A writer keeps the column that it has reached, instead of measuring what it has written. White space
and pieces move the column as far as they are wide (`Writer.Advances`). What is laid out between
parentheses is measured behind the opening one. Where it is moved to another line that measure is
wrong, but then the closing parenthesis starts a line of its own. `Tree.Reaches` says which nodes
the writer of a document lays out, and from where. After each of them the column is the width of the
last line (`Tree.Reaches.column_eq_width`).
-/

namespace SqlLayout

variable {writer : Writer}

def Text.lastLine (text : List Char) : List Char :=
  text.rtakeWhile (· != '\n')

namespace Style

variable {style : Style}

/-- The column that a text leads to from a column. A line break leads back to the left. -/
def advance (style : Style) (column : Nat) (text : List Char) : Nat :=
  text.foldl (fun column c => if c = '\n' then 0 else column + style.columns c) column

theorem advance_append (column : Nat) (text other : List Char) :
    style.advance column (text ++ other) = style.advance (style.advance column text) other :=
  List.foldl_append

theorem advance_cons (column : Nat) (c : Char) (text : List Char) :
    style.advance column (c :: text) =
      style.advance (if c = '\n' then 0 else column + style.columns c) text :=
  rfl

theorem advance_of_unbroken {text : List Char} (unbroken : '\n' ∉ text) (column : Nat) :
    style.advance column text = column + style.width text := by
  induction text generalizing column with
  | nil => rfl
  | cons c text ih =>
    rw [List.mem_cons, not_or] at unbroken
    rw [advance_cons, if_neg (Ne.symm unbroken.1), ih unbroken.2, width, Nat.add_assoc]

theorem advance_zero (text : List Char) :
    style.advance 0 text = style.width (Text.lastLine text) := by
  induction text using List.reverseRecOn with
  | nil => rfl
  | append_singleton text c ih =>
    rw [advance_append, ih, Text.lastLine, Text.lastLine, List.rtakeWhile_concat]
    by_cases breaks : c = '\n'
    · simp [breaks, advance, width]
    · simp [breaks, advance, width]

theorem advance_lineEnd (column : Nat) :
    style.advance column (Mark.text style .lineEnd).toList = 0 := by
  simp [Mark.text, advance]

theorem advance_indentation (unbroken : '\n' ∉ style.indentText.toList) (column levels : Nat) :
    style.advance column (Mark.text style (.indentation levels)).toList =
      column + levels * style.indentWidth := by
  have whole : '\n' ∉ (Mark.text style (.indentation levels)).toList := by
    intro member
    simp only [Mark.text, String.toList_join, List.mem_flatMap, List.mem_replicate] at member
    obtain ⟨_, ⟨_, rfl⟩, member⟩ := member
    exact unbroken member
  rw [advance_of_unbroken whole, width_indentation]

end Style

/-! ### Writers that keep their column -/

namespace Writer

variable {style : Style} {first second third : Writer} {pieces others : List String}

theorem toList_output (writer : Writer) (style : Style) :
    (writer.output style).toList = Row.text style writer.marks.reverse := by
  rw [output, String.toList_join, List.flatMap_map]
  rfl

/-- Outside regions a writer goes on to another one by writing some of the given pieces, and white
space. If the pieces that are written have no tabs and line breaks, its column is the one that the
text in between leads to. -/
def Advances (style : Style) (before : Writer) (pieces : List String) (after : Writer) : Prop :=
  before.region = none → after.region = none ∧
    ∃ marks, after.marks = marks.reverse ++ before.marks ∧ Row.pieces marks ⊆ pieces ∧
    ((∀ piece ∈ Row.pieces marks, Text.Smooth piece) →
      after.column = style.advance before.column (Row.text style marks))

theorem Advances.refl (writer : Writer) : Advances style writer [] writer :=
  fun free => ⟨free, [], rfl, List.Subset.refl _, fun _ => rfl⟩

theorem Advances.trans (front : Advances style first pieces second)
    (back : Advances style second others third) :
    Advances style first (pieces ++ others) third := by
  intro free
  obtain ⟨free, marks, written, known, column⟩ := front free
  obtain ⟨free, more, writtenMore, knownMore, columnMore⟩ := back free
  refine ⟨free, marks ++ more, by simp [writtenMore, written], ?_, fun smooth => ?_⟩
  · rw [Row.pieces_append]
    exact List.append_subset.mpr ⟨List.subset_append_of_subset_left _ known,
      List.subset_append_of_subset_right _ knownMore⟩
  · obtain ⟨here, later⟩ := List.forall_mem_append.mp (Row.pieces_append marks more ▸ smooth)
    rw [columnMore later, column here, Row.text_append, Style.advance_append]

theorem Advances.mono (advances : Advances style first pieces second) (within : pieces ⊆ others) :
    Advances style first others second := by
  intro free
  obtain ⟨free, marks, written, known, column⟩ := advances free
  exact ⟨free, marks, written, List.Subset.trans known within, column⟩

theorem Advances.after (front : Advances style first [] second)
    (back : Advances style second pieces third) : Advances style first pieces third :=
  front.trans back

theorem Advances.same (advances : Advances style first pieces second)
    (marks : third.marks = second.marks) (region : third.region = second.region)
    (column : third.column = second.column) : Advances style first pieces third := by
  intro free
  rw [marks, region, column]
  exact advances free

theorem advances_mark (writer : Writer) (mark : Mark) {column : Nat}
    (measured : (∀ piece ∈ mark.piece?, Text.Smooth piece) →
      column = style.advance writer.column (mark.text style).toList) :
    Advances style writer mark.piece?.toList { writer.mark mark with column } := by
  intro free
  have isPieces : Row.pieces [mark] = mark.piece?.toList := by cases mark <;> rfl
  refine ⟨by simp [Writer.mark, free], [mark], by simp [Writer.mark, free], ?_, fun smooth => ?_⟩
  · rw [isPieces]
    exact List.Subset.refl _
  · rw [Row.text_singleton]
    exact measured (by simpa [isPieces] using smooth)

theorem Spaces.advances (spaces : Spaces style first second)
    (unbroken : '\n' ∉ style.indentText.toList) : Advances style first [] second := by
  induction spaces with
  | refl => exact .refl first
  | @endLine after _ ih =>
    exact ih.after
      ((advances_mark after .lineEnd fun _ => (Style.advance_lineEnd _).symm).same rfl rfl rfl)
  | @space after _ ih =>
    refine ih.after ?_
    unfold Writer.space
    split
    · exact .refl after
    · refine advances_mark after .space fun _ => ?_
      simp [Mark.text, Style.advance, Style.columns]
  | @indentLine after _ ih =>
    exact ih.after (advances_mark after (.indentation _) fun _ =>
      (Style.advance_indentation unbroken _ _).symm)
  | same _ marks region column _ ih => exact ih.same marks region column

theorem advances_write (unbroken : '\n' ∉ style.indentText.toList) (piece : String)
    (writer : Writer) : Advances style writer [piece] (writer.write style piece) := by
  have put : ∀ writer : Writer, Advances style writer [piece]
      { writer.mark (.content piece) with
        column := writer.column + piece.length, lineHasContent := true } := by
    intro writer
    have measured : (∀ other ∈ Mark.piece? (.content piece), Text.Smooth other) →
        writer.column + piece.length = style.advance writer.column piece.toList := by
      intro smooth
      obtain ⟨tabless, unbroken⟩ := smooth piece rfl
      rw [Style.advance_of_unbroken unbroken, Style.width_eq_length tabless, String.length_toList]
    exact (advances_mark writer (.content piece) measured).same rfl rfl rfl
  unfold write
  split
  · exact (Advances.refl writer).mono (List.nil_subset _)
  · dsimp only
    split
    · exact ((Spaces.refl writer).newLine.advances unbroken).after (put _)
    · exact put writer

theorem advances_comment (unbroken : '\n' ∉ style.indentText.toList) (tree : Tree) (id : NodeId)
    (body piece : String) (writer : Writer) :
    Advances style writer [piece] (writer.comment style tree id body piece) := by
  intro free
  rw [comment_eq_write (closeRegion?_of_free free ..)]
  exact ((Spaces.separateComment writer).advances unbroken).after
    (advances_write unbroken piece _) free

/-- A new line starts at the left, wherever the line before it was taken to end. -/
theorem advances_newLine (unbroken : '\n' ∉ style.indentText.toList) (free : second.region = none)
    {marks : List Mark} (written : second.marks = marks.reverse ++ first.marks) :
    Advances style first (Row.pieces marks) (second.newLine style) := by
  intro _
  refine ⟨by simp [newLine, endLine, indentLine, mark, free],
    marks ++ [.lineEnd] ++ [.indentation second.level.toNat], ?_, ?_, fun _ => ?_⟩
  · simp [newLine, endLine, indentLine, mark, free, written]
  · rw [List.append_assoc, Row.pieces_append]
    exact List.append_subset.mpr ⟨List.Subset.refl _, List.nil_subset _⟩
  · rw [Row.text_append, Row.text_append, Row.text_singleton, Row.text_singleton,
      Style.advance_append, Style.advance_append, Style.advance_lineEnd,
      Style.advance_indentation unbroken]
    simp [newLine, endLine, indentLine]

/-- What is laid out between parentheses is measured behind the opening one. If it is moved to
another line, the closing one starts a new line. -/
theorem Advances.enclose (unbroken : '\n' ∉ style.indentText.toList) {inner : Writer}
    (inside : Advances style writer.inner pieces inner) :
    Advances style writer pieces (writer.enclose inner style) := by
  intro free
  obtain ⟨outside, marks, written, known, column⟩ := inside free
  have all : inner.marks = marks.reverse := by simpa [Writer.inner] using written
  suffices Advances style writer pieces (writer.enclose inner style) from this free
  unfold Writer.enclose
  split
  -- Over several lines the column of the inner writer is not used.
  · dsimp only
    split
    · have kept : (writer.append inner).marks = marks.reverse ++ writer.marks := by rw [append, all]
      have free : (writer.append inner).region = none := outside
      exact (advances_newLine unbroken free kept).mono known
    · have moved : ((writer.newLine style).append inner).marks =
          (.lineEnd :: .indentation writer.level.toNat :: marks).reverse ++ writer.marks := by
        simp [append, all, newLine, endLine, indentLine, mark, free]
      have free : ((writer.newLine style).append inner).region = none := outside
      exact (advances_newLine unbroken free moved).mono known
  · exact fun _ => ⟨outside, marks, by rw [append, all], known, column⟩

end Writer

/-! ### Laying out -/

section Laying

variable {style : Style} {tree : Tree} {within : List NodeKind} {below : List Outline}
  {after : Writer}

open Writer (Advances)

theorem Action.Quiet.advances {action : Action} (quiet : action.Quiet)
    (unbroken : '\n' ∉ style.indentText.toList) (tree : Tree) (writer : Writer) :
    Advances style writer action.pieces (action.apply style tree writer) := by
  cases action with
  | write piece => exact Writer.advances_write unbroken piece writer
  | comment id body piece => exact Writer.advances_comment unbroken tree id body piece writer
  | openRegion id body after =>
    rw [apply, Writer.openRegion_eq_self quiet]
    exact .refl writer
  | _ => exact (Action.spaces_apply rfl rfl style tree writer).advances unbroken

theorem Action.quiet_of_spoken {action : Action} (quiet : ∀ other ∈ action.spoken, other.Quiet) :
    action.Quiet := by
  cases action with
  | openRegion => exact quiet _ (List.mem_singleton_self _)
  | _ => trivial

/-- Actions that open no region write some of their pieces and keep the column. -/
def Writer.Moves (style : Style) (before : Writer) (actions : List Action) (after : Writer) :
    Prop :=
  (∀ action ∈ actions, action.Quiet) → Advances style before (actions.flatMap Action.pieces) after

theorem Writer.chains_moves (style : Style) : Chains (Writer.Moves style) where
  refl writer _ := .refl writer
  trans front back quiet := by
    obtain ⟨here, later⟩ := List.forall_mem_append.mp quiet
    rw [List.flatMap_append]
    exact (front here).trans (back later)

theorem Writer.Moves.mono {before : Writer} {actions others : List Action}
    (moves : Writer.Moves style before actions after) (within : actions ⊆ others) :
    Writer.Moves style before others after := by
  intro quiet
  refine (moves fun action member => quiet action (within member)).mono fun piece member => ?_
  obtain ⟨action, among, member⟩ := List.mem_flatMap.mp member
  exact List.mem_flatMap.mpr ⟨action, within among, member⟩

theorem Writer.Moves.goOn {first second third : Writer} {actions others : List Action}
    (front : Writer.Moves style first actions second)
    (back : Writer.Moves style second others third) (within : others ⊆ actions) :
    Writer.Moves style first actions third :=
  ((Writer.chains_moves style).trans front back).mono
    (List.append_subset.mpr ⟨List.Subset.refl _, within⟩)

theorem LayoutStep.Takes.moves (unbroken : '\n' ∉ style.indentText.toList)
    (each : ∀ child ∈ below, ∀ {place writer after},
      child.layOut style tree place writer = .ok after →
      Writer.Moves style writer (child.spoken style.wording) after) {step : LayoutStep}
    (takes : step.Takes style tree within below writer after) :
    Writer.Moves style writer (step.spoken style.wording below) after := by
  cases takes with
  | act action =>
    intro quiet
    rw [spoken, Action.flatMap_pieces_spoken]
    exact (Action.quiet_of_spoken quiet).advances unbroken tree writer
  | siblings lays isOk =>
    rw [spoken_of_selects lays]
    exact (Writer.chains_moves style).layOutList each isOk
  | keyword isOk => exact Chains.layOutKeyword each isOk
  | enclosed isOk =>
    exact fun quiet => .enclose unbroken ((Writer.chains_moves style).layOutList each isOk quiet)

theorem LayoutStep.moves_foldlM (unbroken : '\n' ∉ style.indentText.toList)
    (each : ∀ child ∈ below, ∀ {place writer after},
      child.layOut style tree place writer = .ok after →
      Writer.Moves style writer (child.spoken style.wording) after) {steps : List LayoutStep}
    (isOk : steps.foldlM (run style tree within below) writer = .ok after) :
    Writer.Moves style writer (steps.flatMap (spoken style.wording below)) after := by
  induction steps generalizing writer with
  | nil =>
    cases isOk
    exact (Writer.chains_moves style).refl after
  | cons step steps ih =>
    obtain ⟨next, isNext, isOk⟩ := foldlM_cons_ok isOk
    exact (Writer.chains_moves style).trans ((takes_of_run isNext).moves unbroken each) (ih isOk)

/-- Laying out a node keeps the column, whatever the node holds. -/
theorem Outline.moves_layOut (unbroken : '\n' ∉ style.indentText.toList) {outline : Outline}
    {place : Place} (isOk : outline.layOut style tree place writer = .ok after) :
    Writer.Moves style writer (outline.spoken style.wording) after := by
  induction outline generalizing place writer after with
  | node id kind text attributes children ih =>
    rw [layOut_node] at isOk
    have moves :=
      LayoutStep.moves_foldlM unbroken (fun child member _ _ _ isOk => ih child member isOk) isOk
    exact moves.mono (LayoutStep.plan_spoken_subset style place id kind text attributes children)

end Laying

/-! ### Every node that is laid out -/

/-- What is to be done next with a writer. -/
inductive Task where
  /-- Lays out a node at a place. -/
  | node (place : Place) (outline : Outline)
  /-- Takes steps for a node, given the kinds of the node and its ancestors, and its children. -/
  | steps (within : List NodeKind) (below : List Outline) (rest : List LayoutStep)
  /-- Lays out the selected ones of sibling nodes below the given ancestors. -/
  | siblings (ancestors : List NodeKind) (selects : NodeKind → Bool) (rest : List Outline)

/-- The actions that a task calls for, apart from white space. -/
def Task.spoken (wording : Wording) : Task → List Action
  | node _ outline => outline.spoken wording
  | steps _ below rest => rest.flatMap (LayoutStep.spoken wording below)
  | siblings _ selects rest => Outline.spokenOfList wording selects rest

/-- While a document is laid out, a task comes up for its writer. What is laid out apart between
parentheses has a writer of its own. -/
inductive Tree.Reaches (tree : Tree) (style : Style) (warning : String) : Task → Writer → Prop where
  | start : Reaches tree style warning (.node {} (tree.outline root)) (tree.opening style warning)
  | plan {place : Place} {id : NodeId} {kind : NodeKind} {text : String} {attributes : Attributes}
      {children : List Outline} {writer : Writer}
      (reached : Reaches tree style warning
        (.node place (.node id kind text attributes children)) writer) :
      Reaches tree style warning
        (.steps (kind :: place.ancestors) children
          (LayoutStep.plan style place (.node id kind text attributes children)))
        writer
  | step {within : List NodeKind} {below : List Outline} {step : LayoutStep}
      {rest : List LayoutStep} {writer next : Writer}
      (reached : Reaches tree style warning (.steps within below (step :: rest)) writer)
      (isOk : step.run style tree within below writer = .ok next) :
      Reaches tree style warning (.steps within below rest) next
  | descend {within : List NodeKind} {below : List Outline} {step : LayoutStep}
      {rest : List LayoutStep} {selects : NodeKind → Bool} {writer : Writer}
      (reached : Reaches tree style warning (.steps within below (step :: rest)) writer)
      (lays : step.selects? = some selects) :
      Reaches tree style warning (.siblings within selects below) writer
  | keyword {within : List NodeKind} {before behind : List Outline} {keyword : Outline}
      {rest : List LayoutStep} {writer : Writer}
      (reached : Reaches tree style warning
        (.steps within (before ++ keyword :: behind) (.firstKeyword :: rest)) writer)
      (others : ∀ outline ∈ before, outline.kind ≠ .otherKeyword)
      (isKeyword : keyword.kind = .otherKeyword) :
      Reaches tree style warning (.node { ancestors := within, next := behind.head? } keyword)
        writer
  | visit {ancestors : List NodeKind} {selects : NodeKind → Bool} {first : Outline}
      {rest : List Outline} {writer : Writer}
      (reached : Reaches tree style warning (.siblings ancestors selects (first :: rest)) writer)
      (selected : selects first.kind = true) :
      Reaches tree style warning (.node { ancestors, next := rest.head? } first) writer
  | pass {ancestors : List NodeKind} {selects : NodeKind → Bool} {first : Outline}
      {rest : List Outline} {writer next : Writer}
      (reached : Reaches tree style warning (.siblings ancestors selects (first :: rest)) writer)
      (selected : selects first.kind = true)
      (isOk : first.layOut style tree { ancestors, next := rest.head? } writer = .ok next) :
      Reaches tree style warning (.siblings ancestors selects rest) next
  | skip {ancestors : List NodeKind} {selects : NodeKind → Bool} {first : Outline}
      {rest : List Outline} {writer : Writer}
      (reached : Reaches tree style warning (.siblings ancestors selects (first :: rest)) writer)
      (passed : selects first.kind = false) :
      Reaches tree style warning (.siblings ancestors selects rest) writer

namespace Tree

variable {tree : Tree} {style : Style} {warning : String}

theorem Reaches.spoken_subset {task : Task} (reached : tree.Reaches style warning task writer) :
    task.spoken style.wording ⊆ (tree.outline root).spoken style.wording := by
  induction reached with
  | start => exact List.Subset.refl _
  | plan _ ih => exact List.Subset.trans (LayoutStep.plan_spoken_subset style _ _ _ _ _ _) ih
  | step _ _ ih => exact List.Subset.trans (by simp [Task.spoken]) ih
  | descend _ lays ih =>
    refine List.Subset.trans ?_ ih
    rw [Task.spoken, Task.spoken, ← LayoutStep.spoken_of_selects lays]
    simp
  | @keyword _ before behind keyword _ _ _ others isKeyword ih =>
    have found : (before ++ keyword :: behind).find? (fun child => child.kind == .otherKeyword) =
        some keyword := by
      rw [List.find?_append, List.find?_eq_none.mpr (by simpa using others), Option.none_or,
        List.find?_cons_of_pos (by simp [isKeyword])]
    exact List.Subset.trans (by simp [Task.spoken, LayoutStep.spoken, found]) ih
  | visit _ selected ih =>
    exact List.Subset.trans (by simp [Task.spoken, Outline.spokenOfList, selected]) ih
  | pass _ selected _ ih =>
    exact List.Subset.trans (by simp [Task.spoken, Outline.spokenOfList, selected]) ih
  | skip _ passed ih =>
    exact List.Subset.trans (by simp [Task.spoken, Outline.spokenOfList, passed]) ih

/-- From the start of the document to every task that comes up the column is kept. -/
theorem Reaches.moves {task : Task} (reached : tree.Reaches style warning task writer)
    (unbroken : '\n' ∉ style.indentText.toList) :
    Writer.Moves style (tree.opening style warning)
      ((tree.outline root).spoken style.wording) writer := by
  induction reached with
  | start => exact ((Writer.chains_moves style).refl _).mono (List.nil_subset _)
  -- Only a step that is taken and a node that is laid out move the writer.
  | plan _ ih | descend _ _ ih | keyword _ _ _ ih | visit _ _ ih | skip _ _ ih => exact ih
  | step reached isOk ih =>
    have here := (LayoutStep.takes_of_run isOk).moves unbroken fun _ _ _ _ _ =>
      Outline.moves_layOut unbroken
    refine ih.goOn here (List.Subset.trans ?_ reached.spoken_subset)
    simp [Task.spoken]
  | pass reached selected isOk ih =>
    exact ih.goOn (Outline.moves_layOut unbroken isOk)
      (Reaches.visit reached selected).spoken_subset

theorem column_opening (tree : Tree) (style : Style) (warning : String) :
    (tree.opening style warning).column =
      style.advance 0 ((tree.opening style warning).output style).toList := by
  rw [output_opening]
  unfold opening warningText
  split
  · rw [String.toList_append, Style.advance_append]
    exact (Style.advance_lineEnd _).symm
  · rfl

/-- Let no comment of a document open a region of kept text, and let the indentation not break the
line. Whenever the writer of the document has laid out a node, its column is the width of what it
has written after the last line break, as long as no piece of the document that it has written holds
a tab or a line break. -/
theorem Reaches.column_eq_width (quiet : (tree.outline root).Quiet)
    (unbroken : '\n' ∉ style.indentText.toList) {place : Place} {outline : Outline}
    {writer after : Writer} (reached : tree.Reaches style warning (.node place outline) writer)
    (isOk : outline.layOut style tree place writer = .ok after)
    (smooth : ∀ piece ∈ (tree.outline root).pieces style.wording, .content piece ∈ after.marks →
      Text.Smooth piece) :
    after.column = style.width (Text.lastLine (after.output style).toList) := by
  have moves :=
    (reached.moves unbroken).goOn (Outline.moves_layOut unbroken isOk) reached.spoken_subset
  obtain ⟨_, marks, written, known, column⟩ :=
    moves (quiet.spoken style.wording) (tree.region_opening style warning)
  rw [Outline.flatMap_pieces_spoken] at known
  have smoothMarks : ∀ piece ∈ Row.pieces marks, Text.Smooth piece := by
    intro piece member
    refine smooth piece (known member) ?_
    rw [written]
    exact List.mem_append_left _ (List.mem_reverse.mpr (Row.mem_pieces.mp member))
  have whole : (after.output style).toList =
      ((tree.opening style warning).output style).toList ++ Row.text style marks := by
    rw [Writer.toList_output, Writer.toList_output, written]
    simp
  rw [column smoothMarks, column_opening, ← Style.advance_append, ← whole, Style.advance_zero]

/-- A group with another one in it, both over several lines, between two words. -/
def brokenGroup : Tree :=
  ofAppends [(0, .other, "f"), (0, .expressionParens, ""), (2, .other, "abcd"),
    (2, .whiteSpace, "\t\n"), (2, .lineComment, "x\n"), (2, .inParens, ""), (6, .other, "gh"),
    (6, .comma, ","), (6, .other, "ij"), (2, .other, "kl"), (0, .other, "m")]

theorem brokenGroup_quiet : (brokenGroup.outline root).Quiet := by
  intro kind text member isComment
  have comments : (brokenGroup.outline root).symbols.filterMap Symbol.trivia? =
      [(.whiteSpace, "\t\n"), (.lineComment, "x\n")] := by decide +kernel
  have among : (kind, text) ∈ (brokenGroup.outline root).symbols.filterMap Symbol.trivia? :=
    List.mem_filterMap.mpr ⟨_, member, rfl⟩
  rw [comments] at among
  simp only [List.mem_cons, List.not_mem_nil, Prod.mk.injEq, or_false] at among
  rcases among with ⟨rfl, rfl⟩ | ⟨rfl, rfl⟩
  · cases isComment
  · decide +kernel

/-- The outer group is laid out by the writer of the document, behind the first word. -/
theorem reaches_brokenGroup :
    ∃ place group writer, brokenGroup.Reaches {} "" (.node place group) writer ∧ group.id = 2 ∧
      (group.layOut {} brokenGroup place writer).map (Writer.output · {}) =
        .ok "f (\n\tabcd\n\t--x\n\t(\n\t\tgh\n\t\t,ij\n\t\t) kl\n\t)" := by
  have planned := Reaches.plan (@Reaches.start brokenGroup {} "")
  have siblings := Reaches.descend planned rfl
  have behind := Reaches.pass siblings rfl rfl
  have reached := Reaches.visit behind rfl
  exact ⟨_, _, _, reached, rfl, by decide +kernel⟩

theorem Reaches.column_eq_width_brokenGroup :
    (brokenGroup.outline root).Quiet ∧
      (∀ piece ∈ (brokenGroup.outline root).pieces (Style.wording {}), Text.Smooth piece) ∧
      '\n' ∉ (Style.indentText {}).toList ∧
      ∃ place group writer after, brokenGroup.Reaches {} "" (.node place group) writer ∧
        group.id = 2 ∧ group.layOut {} brokenGroup place writer = .ok after ∧
        after.output {} = "f (\n\tabcd\n\t--x\n\t(\n\t\tgh\n\t\t,ij\n\t\t) kl\n\t)" ∧
        after.column = 5 := by
  have smooth : ∀ piece ∈ (brokenGroup.outline root).pieces (Style.wording {}),
      Text.Smooth piece := by
    decide +kernel
  obtain ⟨place, group, writer, reached, isGroup, text⟩ := reaches_brokenGroup
  obtain ⟨after, isOk, output⟩ := Outline.exists_layOut_of_output text
  have column := reached.column_eq_width brokenGroup_quiet (by decide) isOk fun piece member _ =>
    smooth piece member
  rw [output] at column
  exact ⟨brokenGroup_quiet, smooth, by decide, place, group, writer, after, reached,
    isGroup, isOk, output, column.trans (by decide +kernel)⟩

end Tree

end SqlLayout
