import SqlLayout.Proofs.Formatting
import SqlLayout.Proofs.Layout.Traversal

/-!
# Line comments end their lines

The line break after a comment that runs to the end of its line is requested when the comment is
written, and comes with whatever is written next. Until then the writer is in arrears: its last mark
is such a comment. A plan never writes content before it has settled what may be due
(`LayoutStep.plan_clears`), and every action that settles something pays the break (`Writer.Holds`).
So in a document without regions of kept text a line break or the end of the text follows each of
these comments, as long as statements and clauses are separated by at least one line break.
-/

namespace SqlLayout

variable {style : Style} {clear : Bool}

/-- Whether comments of a kind run to the end of their line. -/
def NodeKind.runsOn : NodeKind → Bool
  | lineComment | slashComment => true
  | _ => false

/-- A piece of content, and whether it is a comment that runs to the end of its line. -/
structure Chunk where
  text : String
  runsOn : Bool := false
deriving DecidableEq, Repr

namespace Outline

mutual

/-- The pieces of an outline in document order, each with whether it runs to the end of its line. -/
def chunks (wording : Wording) : Outline → List Chunk
  | node _ kind text attributes children =>
      if kind = .whiteSpace then []
      else if kind.isLeaf then [{ text := wording.leaf kind text, runsOn := kind.runsOn }]
      else if kind = .compoundKeyword then
        ((attributes.get? .simpleText).map fun simple =>
          { text := wording.keyword simple }).toList ++
          chunksOfList wording NodeKind.isComment children
      else if kind.isParens then
        { text := "(" } :: (chunksOfList wording (fun _ => true) children ++ [{ text := ")" }])
      else chunksOfList wording (fun _ => true) children

def chunksOfList (wording : Wording) (selects : NodeKind → Bool) : List Outline → List Chunk
  | [] => []
  | first :: rest =>
      if selects first.kind then chunks wording first ++ chunksOfList wording selects rest
      else chunksOfList wording selects rest

end

end Outline

/-- A text that consists of pieces, in this order, with spaces, line breaks and indentation before,
between and after them. A line break or nothing at all follows a piece that runs to the end of its
line. -/
inductive Style.EndsLines (style : Style) : List Chunk → String → Prop where
  | nil {gap : String} (blank : style.Blank gap) : EndsLines style [] gap
  | cons {gap rest : String} {chunk : Chunk} {chunks : List Chunk} (blank : style.Blank gap)
      (later : EndsLines style chunks rest)
      (ends : chunk.runsOn = true → rest = "" ∨ ∃ tail, rest = "\n" ++ tail) :
      EndsLines style (chunk :: chunks) (gap ++ chunk.text ++ rest)

theorem Style.EndsLines.after {gap text : String} {chunks : List Chunk} (blank : style.Blank gap)
    (ends : style.EndsLines chunks text) : style.EndsLines chunks (gap ++ text) := by
  cases ends with
  | nil inner => exact .nil (blank.append inner)
  | cons inner later ends =>
    rw [← String.append_assoc, ← String.append_assoc]
    exact .cons (blank.append inner) later ends

/-! ### Chunks of actions -/

namespace Action

/-- The pieces that an action writes. A comment runs to the end of its line unless it opens as a
block. -/
def chunks : Action → List Chunk
  | write piece => [{ text := piece }]
  | comment _ _ piece => [{ text := piece, runsOn := !("/*".toList.isPrefixOf piece.toList) }]
  | _ => []

theorem chunks_spoken (action : Action) : action.spoken.flatMap chunks = action.chunks := by
  cases action <;> simp [spoken, chunks]

theorem chunks_comment (wording : Wording) {kind : NodeKind} (isComment : kind.isComment = true)
    (id : NodeId) (text body : String) :
    (comment id body (wording.leaf kind text)).chunks =
      [{ text := wording.leaf kind text, runsOn := kind.runsOn }] := by
  cases kind
  case lineComment | slashComment | blockComment =>
    simp [chunks, Wording.leaf, NodeKind.runsOn, List.isPrefixOf]
  all_goals cases isComment

end Action

namespace Outline

theorem flatMap_chunks_spokenOfList {wording : Wording} {outlines : List Outline}
    (each : ∀ outline ∈ outlines, (outline.spoken wording).flatMap Action.chunks =
      outline.chunks wording)
    (selects : NodeKind → Bool) :
    (spokenOfList wording selects outlines).flatMap Action.chunks =
      chunksOfList wording selects outlines := by
  induction outlines with
  | nil => simp [spokenOfList, chunksOfList]
  | cons first rest ih =>
    obtain ⟨here, later⟩ := List.forall_mem_cons.mp each
    rw [spokenOfList, chunksOfList]
    split
    · rw [List.flatMap_append, here, ih later]
    · exact ih later

theorem flatMap_chunks_spoken (wording : Wording) (outline : Outline) :
    (outline.spoken wording).flatMap Action.chunks = outline.chunks wording := by
  induction outline with
  | node id kind text attributes children ih =>
    have siblings := flatMap_chunks_spokenOfList ih
    rw [spoken, chunks]
    split
    · rfl
    split
    next isComment =>
      have isLeaf : kind.isLeaf = true := by
        revert isComment
        cases kind <;> decide
      rw [if_pos isLeaf, List.flatMap_cons, Action.chunks_comment wording isComment]
      rfl
    next notComment =>
      have notRunning : kind.runsOn = false := by
        revert notComment
        cases kind <;> decide
      split
      · rw [notRunning]
        rfl
      split
      · rw [List.flatMap_append, siblings]
        cases attributes.get? .simpleText <;> rfl
      split
      · simp [Action.chunks, siblings]
      · exact siblings _

end Outline

/-! ### What is written -/

/-- Marks, the latest first, hold pieces in order, and a line break comes after each one that runs
to the end of its line. The last piece may still be in arrears. -/
inductive Chunk.Written : List Mark → List Chunk → Bool → Prop where
  | nil : Written [] [] false
  | blank {marks : List Mark} {chunks : List Chunk} {arrears : Bool}
      (written : Written marks chunks arrears)
      {mark : Mark} (silent : mark.piece? = none) (unkept : mark.isKept = false)
      (ends : arrears = true → mark = .lineEnd) : Written (mark :: marks) chunks false
  | chunk {marks : List Mark} {chunks : List Chunk} (written : Written marks chunks false)
      (chunk : Chunk) :
      Written (.content chunk.text :: marks) (chunks ++ [chunk]) chunk.runsOn

namespace Chunk.Written

variable {marks more : List Mark} {chunks others : List Chunk} {arrears : Bool}

theorem append (front : Written marks chunks false) (back : Written more others arrears) :
    Written (more ++ marks) (chunks ++ others) arrears := by
  induction back with
  | nil => simpa using front
  | blank _ silent unkept ends ih => exact .blank ih silent unkept ends
  | chunk _ chunk ih =>
    rw [← List.append_assoc]
    exact .chunk ih chunk

theorem endsLines (written : Written marks chunks arrears) {rest : String}
    (later : style.EndsLines others rest)
    (paid : arrears = true → rest = "" ∨ ∃ tail, rest = "\n" ++ tail) :
    style.EndsLines (chunks ++ others)
      (String.join (marks.reverse.map (Mark.text style)) ++ rest) := by
  induction written generalizing others rest with
  | nil => simpa [String.join] using later
  | @blank marks chunks arrears _ mark silent unkept ends ih =>
    have blank : style.Blank (mark.text style) := Style.blank_of_piece?_eq_none silent unkept
    have both := ih (later.after blank) fun inArrears => .inr ⟨rest, by rw [ends inArrears]; rfl⟩
    simpa [String.join_append, String.join_cons, String.append_assoc] using both
  | @chunk marks chunks _ chunk ih =>
    have here : style.EndsLines (chunk :: others) ("" ++ chunk.text ++ rest) :=
      .cons ⟨[], by simp, rfl⟩ later paid
    have both := ih here fun owed => absurd owed (by decide)
    simpa [String.join_append, String.join_cons, String.append_assoc, Mark.text] using both

end Chunk.Written

namespace Writer

/-- Outside regions a writer has written pieces on top of some marks. -/
structure Inks (base : List Mark) (writer : Writer) (chunks : List Chunk) (arrears : Bool) :
    Prop where
  free : writer.region = none
  written : ∃ marks, writer.marks = marks ++ base ∧ Chunk.Written marks chunks arrears

/-- A writer has written pieces, and if the last one still needs its line break, everything that
brings it is requested. -/
structure Holds (base : List Mark) (writer : Writer) (chunks : List Chunk) (arrears : Bool) : Prop
    extends Inks base writer chunks arrears where
  due : arrears = true →
    writer.breakDue = true ∧ writer.sourceBreak = true ∧ writer.lineHasContent = true

variable {base : List Mark} {writer other : Writer} {chunks : List Chunk} {arrears : Bool}

theorem Inks.start (free : writer.region = none) : Inks writer.marks writer [] false :=
  ⟨free, [], rfl, .nil⟩

theorem Inks.holds (inks : Inks base writer chunks false) : Holds base writer chunks false :=
  { inks with due := nofun }

theorem Inks.same (inks : Inks base writer chunks arrears) (marks : other.marks = writer.marks)
    (region : other.region = writer.region) : Inks base other chunks arrears := by
  obtain ⟨free, held, isHeld, written⟩ := inks
  exact ⟨region.trans free, held, marks.trans isHeld, written⟩

theorem Holds.same (holds : Holds base writer chunks arrears) (marks : other.marks = writer.marks)
    (region : other.region = writer.region)
    (due : writer.breakDue = true ∧ writer.sourceBreak = true ∧ writer.lineHasContent = true →
      other.breakDue = true ∧ other.sourceBreak = true ∧ other.lineHasContent = true) :
    Holds base other chunks arrears :=
  ⟨holds.toInks.same marks region, fun inArrears => due (holds.due inArrears)⟩

/-! ### White space -/

theorem Inks.mark (inks : Inks base writer chunks arrears) {mark : Mark}
    (silent : mark.piece? = none) (unkept : mark.isKept = false)
    (ends : arrears = true → mark = .lineEnd) : Inks base (writer.mark mark) chunks false := by
  obtain ⟨free, marks, isMarks, written⟩ := inks
  refine ⟨by simp [Writer.mark, free], mark :: marks, ?_, .blank written silent unkept ends⟩
  simp [Writer.mark, free, isMarks]

theorem Inks.endLine (inks : Inks base writer chunks arrears) :
    Inks base writer.endLine chunks false :=
  (inks.mark rfl rfl fun _ => rfl).same rfl rfl

theorem Inks.indentLine (inks : Inks base writer chunks false) (style : Style) :
    Inks base (writer.indentLine style) chunks false :=
  (inks.mark rfl rfl nofun).same rfl rfl

theorem Inks.newLine (inks : Inks base writer chunks arrears) (style : Style) :
    Inks base (writer.newLine style) chunks false :=
  (inks.endLine.indentLine style).same rfl rfl

theorem Inks.space (inks : Inks base writer chunks false) :
    Inks base writer.space chunks false := by
  rw [Writer.space, if_neg (by simp [inks.free])]
  exact (inks.mark rfl rfl nofun).same rfl rfl

theorem Inks.newLines (inks : Inks base writer chunks false) (style : Style) (count : Nat) :
    Inks base (writer.newLines style count) chunks false := by
  induction count generalizing writer with
  | zero => exact inks
  | succ count ih => exact ih (inks.newLine style)

theorem Inks.endLines (inks : Inks base writer chunks arrears) {count : Nat} (some : 0 < count) :
    Inks base (writer.endLines count) chunks false := by
  induction count generalizing writer arrears with
  | zero => omega
  | succ count ih =>
    rcases Nat.eq_zero_or_pos count with rfl | more
    · exact inks.endLine
    · exact ih inks.endLine more

/-- Where a comment is in arrears a break is due, so that settling pays it. -/
theorem Holds.settle (holds : Holds base writer chunks arrears) (style : Style) :
    Inks base (writer.settle style) chunks false := by
  rw [Writer.settle]
  split
  next => exact ((holds.toInks.newLine style).newLines style _).same rfl rfl
  next notDue =>
    cases arrears with
    | true => exact absurd (holds.due rfl).1 notDue
    | false => exact (holds.toInks.newLines style _).same rfl rfl

theorem Holds.separate (holds : Holds base writer chunks arrears) (style : Style) :
    Inks base (writer.separate style) chunks false := by
  rw [Writer.separate]
  split
  next =>
    split
    next =>
      have outdented : Holds base writer.outdent chunks arrears := holds.same rfl rfl id
      exact (outdented.settle style).same rfl rfl
    next => exact (holds.settle style).same rfl rfl
  next notDue =>
    cases arrears with
    | true => simp [(holds.due rfl).1] at notDue
    | false =>
      split
      · exact holds.toInks.space.same rfl rfl
      · exact holds.toInks.same rfl rfl

theorem Holds.separateComment (holds : Holds base writer chunks arrears) (style : Style) :
    Inks base (writer.separateComment style) chunks false := by
  rw [Writer.separateComment]
  split
  next =>
    have requested : Holds base { writer with breakDue := true } chunks arrears :=
      holds.same rfl rfl fun due => ⟨rfl, due.2⟩
    exact (requested.settle style).same rfl rfl
  next notDue =>
    cases arrears with
    | true => simp [(holds.due rfl).2] at notDue
    | false =>
      split
      · exact holds.toInks.space.same rfl rfl
      · exact holds.toInks.same rfl rfl

/-- The breaks between statements pay what is in arrears, and if none are due nothing changes. -/
theorem Holds.startStatement (holds : Holds base writer chunks arrears)
    (statements : 0 < style.statementBreaks) (clauses : 0 < style.clauseBreaks)
    (starter : Option String) :
    Holds base (writer.startStatement style starter) chunks false ∨
      Holds base (writer.startStatement style starter) chunks arrears := by
  rw [Writer.startStatement]
  split
  · left
    have some : 0 < if writer.repeatsStatement starter then style.clauseBreaks
        else style.statementBreaks := by
      split
      · exact clauses
      · exact statements
    refine Inks.holds ?_
    exact ((holds.toInks.endLines some).indentLine style).same rfl rfl
  · right
    exact holds

/-! ### Content -/

theorem Inks.write (inks : Inks base writer chunks false) (style : Style) (chunk : Chunk) :
    Inks base (writer.write style chunk.text) (chunks ++ [chunk]) chunk.runsOn ∧
      (writer.write style chunk.text).lineHasContent = true := by
  have content : ∀ {writer : Writer}, Inks base writer chunks false →
      Inks base (writer.mark (.content chunk.text)) (chunks ++ [chunk]) chunk.runsOn := by
    rintro writer ⟨free, marks, isMarks, written⟩
    refine ⟨by simp [Writer.mark, free], .content chunk.text :: marks, ?_, .chunk written chunk⟩
    simp [Writer.mark, free, isMarks]
  rw [Writer.write, if_neg (by simp [inks.free])]
  refine ⟨?_, rfl⟩
  dsimp only
  split
  · exact (content (inks.newLine style)).same rfl rfl
  · exact (content inks).same rfl rfl

theorem Holds.comment (holds : Holds base writer chunks arrears) (style : Style) (tree : Tree)
    (id : NodeId) (body : String) (chunk : Chunk) :
    Inks base (writer.comment style tree id body chunk.text) (chunks ++ [chunk]) chunk.runsOn ∧
      (writer.comment style tree id body chunk.text).lineHasContent = true := by
  rw [comment_eq_write (closeRegion?_of_free holds.free ..)]
  exact (holds.separateComment style).write style chunk

theorem Inks.append {inner : Writer} {others : List Chunk} (inks : Inks base writer chunks false)
    (inside : Inks [] inner others arrears) :
    Inks base (writer.append inner) (chunks ++ others) arrears := by
  obtain ⟨_, marks, isMarks, written⟩ := inks
  obtain ⟨free, more, isMore, writtenInside⟩ := inside
  refine ⟨free, more ++ marks, ?_, written.append writtenInside⟩
  rw [Writer.append, isMarks, isMore]
  simp

/-- What is laid out between parentheses leaves nothing in arrears: if it ends with a break that is
due, the closing parenthesis goes to the next line. -/
theorem Inks.enclose {inner : Writer} {others : List Chunk} (inks : Inks base writer chunks false)
    (inside : Holds [] inner others arrears) (style : Style) :
    Inks base (writer.enclose inner style) (chunks ++ others) false := by
  rw [Writer.enclose]
  split
  next =>
    dsimp only
    split
    · exact (inks.append inside.toInks).newLine style
    · exact ((inks.newLine style).append inside.toInks).newLine style
  next calm =>
    cases arrears with
    | true => simp [(inside.due rfl).1] at calm
    | false => exact inks.append inside.toInks

end Writer

/-! ### Steps -/

/-- Whether nothing is in arrears after an action, given whether nothing was before. An action that
writes content needs to know that nothing is. -/
def Action.clears? (clear : Bool) : Action → Option Bool
  | write _ => if clear then some true else none
  | newLine | settle | separate => some true
  | comment .. | openRegion .. => none
  | _ => some clear

namespace LayoutStep

/-- Whether nothing is in arrears after a step. What the children of a node leave is not known. -/
def clears? (clear : Bool) : LayoutStep → Option Bool
  | act action => action.clears? clear
  | enclosed => if clear then some true else none
  | _ => some false

/-- Steps write content only where nothing can be in arrears. -/
def Clears (clear : Bool) (steps : List LayoutStep) : Prop :=
  (steps.foldlM clears? clear).isSome = true

instance (clear : Bool) (steps : List LayoutStep) : Decidable (Clears clear steps) :=
  inferInstanceAs (Decidable (_ = true))

theorem Clears.cons {clear : Bool} {step : LayoutStep} {steps : List LayoutStep}
    (clears : Clears clear (step :: steps)) :
    ∃ next, step.clears? clear = some next ∧ Clears next steps := by
  rw [Clears, List.foldlM_cons] at clears
  cases result : step.clears? clear with
  | none => simp [result] at clears
  | some next => exact ⟨next, rfl, by simpa [result, Clears] using clears⟩

theorem foldlM_clears?_when (clear condition : Bool) (action : Action) :
    (when condition action).foldlM clears? clear =
      if condition then action.clears? clear else some clear := by
  cases condition with
  | true => simp [when, clears?]
  | false => rfl

/-- The plan of a node that is no comment writes content only where nothing can be in arrears. -/
theorem plan_clears (style : Style) (place : Place) {id : NodeId} {kind : NodeKind} {text : String}
    {attributes : Attributes} {children : List Outline} (content : kind.isComment = false) :
    Clears false (plan style place (.node id kind text attributes children)) := by
  cases kind
  case lineComment | slashComment | blockComment => cases content
  case comma =>
    simp only [plan, Outline.node_kind, comma]
    split
    · split <;> rfl
    · split
      · simp [Clears, clears?, Action.clears?, foldlM_clears?_when]
      · rfl
  case otherKeyword | dataTypeKeyword =>
    simp only [plan, Outline.node_kind, keyword]
    split <;> rfl
  case compoundKeyword =>
    simp only [plan, Outline.node_kind, compoundKeyword]
    split <;> rfl
  case containerMultiStatementBody | containerSingleStatementBody | mergeAction =>
    simp only [plan, Outline.node_kind, statementBody]
    split <;> rfl
  case caseInput | booleanExpression | lowerBound | upperBound =>
    simp only [plan, Outline.node_kind, when]
    split <;> rfl
  all_goals
    simp [Clears, plan, Outline.kind, clause, setOperator, hangingBlock, tightParens,
      looseParens, tight, word, between, block, caseStatement, caseBranch, foldlM_clears?_when,
      clears?, Action.clears?]

/-- A comment that runs to the end of its line asks for a line break, also before another
comment. -/
theorem plan_runsOn (style : Style) (place : Place) {id : NodeId} {kind : NodeKind} {text : String}
    {attributes : Attributes} {children : List Outline} (runs : kind.runsOn = true) :
    plan style place (.node id kind text attributes children) =
      [.comment id text (style.wording.leaf kind text), .requestBreak, .noteSourceBreak,
        .openRegion id text "\n"].map act := by
  cases kind
  case lineComment | slashComment => rfl
  all_goals cases runs

end LayoutStep

namespace Writer

variable {style : Style} {tree : Tree} {base : List Mark} {writer : Writer} {chunks : List Chunk}

/-- A writer has written pieces, and where it is clear nothing is in arrears. -/
def Held (base : List Mark) (writer : Writer) (chunks : List Chunk) (clear : Bool) : Prop :=
  ∃ arrears, Holds base writer chunks arrears ∧ (clear = true → arrears = false)

theorem Inks.held (inks : Inks base writer chunks false) (clear : Bool) :
    Held base writer chunks clear :=
  ⟨false, inks.holds, fun _ => rfl⟩

theorem Held.inks (held : Held base writer chunks true) : Inks base writer chunks false := by
  obtain ⟨arrears, holds, known⟩ := held
  exact known rfl ▸ holds.toInks

theorem Held.forget (held : Held base writer chunks clear) : Held base writer chunks false := by
  obtain ⟨arrears, holds, _⟩ := held
  exact ⟨arrears, holds, nofun⟩

end Writer

/-! ### Laying out -/

section Document

variable {style : Style} {tree : Tree} {base : List Mark} {writer after : Writer}
  {chunks : List Chunk}

open Writer (Held Holds Inks)

/-- An action that writes no content keeps the pieces, and pays what is in arrears where it
clears. -/
theorem Action.held_of_silent (statements : 0 < style.statementBreaks)
    (clauses : 0 < style.clauseBreaks) {action : Action} (silent : action.chunks = [])
    {next : Bool} (clears : action.clears? clear = some next)
    (held : Held base writer chunks clear) :
    Held base (action.apply style tree writer) chunks next := by
  obtain ⟨arrears, holds, known⟩ := held
  cases action with
  | write | comment => cases silent
  | openRegion => cases clears
  | newLine => exact (holds.toInks.newLine style).held next
  | settle => exact (holds.settle style).held next
  | separate => exact (holds.separate style).held next
  | startStatement starter =>
    cases clears
    rcases holds.startStatement statements clauses starter with paid | kept
    · exact ⟨false, paid.same rfl rfl id, fun _ => rfl⟩
    · exact ⟨arrears, kept.same rfl rfl id, known⟩
  | requestBreak =>
    cases clears
    exact ⟨arrears, holds.same rfl rfl fun due => ⟨rfl, due.2⟩, known⟩
  | noteSourceBreak =>
    cases clears
    exact ⟨arrears, holds.same rfl rfl fun due => ⟨due.1, rfl, due.2.2⟩, known⟩
  | _ =>
    cases clears
    exact ⟨arrears, holds.same rfl rfl id, known⟩

theorem Action.held_apply (statements : 0 < style.statementBreaks)
    (clauses : 0 < style.clauseBreaks) {action : Action} {next : Bool}
    (clears : action.clears? clear = some next) (held : Held base writer chunks clear) :
    Held base (action.apply style tree writer) (chunks ++ action.chunks) next := by
  by_cases silent : action.chunks = []
  · rw [silent, List.append_nil]
    exact held_of_silent statements clauses silent clears held
  · cases action with
    | write piece =>
      cases clear with
      | true => exact (held.inks.write style { text := piece }).1.held next
      | false => cases clears
    | comment => cases clears
    | _ => exact absurd rfl silent

theorem Writer.Inks.requests (inks : Inks base writer chunks false) {requests : List Action}
    (known : requests ⊆ [.requestBreak, .requestSpace, .noteSourceBreak]) :
    Inks base (requests.foldl (Action.apply style tree) writer) chunks false := by
  induction requests generalizing writer with
  | nil => exact inks
  | cons request requests ih =>
    obtain ⟨here, later⟩ := List.cons_subset.mp known
    refine ih ?_ later
    simp only [List.mem_cons, List.not_mem_nil, or_false] at here
    rcases here with rfl | rfl | rfl <;> exact inks.same rfl rfl

theorem Writer.Held.comment (held : Held base writer chunks false) (place : Place) {id : NodeId}
    {kind : NodeKind} {text : String} {attributes : Attributes} {children : List Outline}
    (isComment : kind.isComment = true) (opensNone : Region.openedBy? text = none)
    (isOk : (Outline.node id kind text attributes children).layOut style tree place writer =
      .ok after) :
    Held base after (chunks ++ [{ text := style.wording.leaf kind text, runsOn := kind.runsOn }])
      false := by
  obtain ⟨arrears, holds, _⟩ := held
  obtain ⟨inks, content⟩ := holds.comment style tree id text
    { text := style.wording.leaf kind text, runsOn := kind.runsOn }
  rw [Outline.layOut] at isOk
  cases runs : kind.runsOn with
  | true =>
    rw [LayoutStep.plan_runsOn style place runs, LayoutStep.foldlM_map_act fun _ _ => rfl] at isOk
    cases isOk
    simp only [List.foldl_cons, List.foldl_nil, Action.apply]
    rw [openRegion_eq_self opensNone]
    rw [runs] at inks
    exact ⟨true, ⟨inks.same rfl rfl, fun _ => ⟨rfl, rfl, content⟩⟩, fun isFalse =>
      absurd isFalse (by decide)⟩
  | false =>
    obtain ⟨requests, known, isPlan⟩ := LayoutStep.plan_comment style place isComment
    rw [isPlan, LayoutStep.foldlM_map_act fun _ _ => rfl] at isOk
    cases isOk
    rw [List.foldl_cons, List.foldl_append, List.foldl_cons, List.foldl_nil]
    simp only [Action.apply]
    rw [openRegion_eq_self opensNone]
    rw [runs] at inks
    exact (inks.requests known).held false

/-- What is laid out by actions that open no region is written behind what is there, and what is in
arrears is still requested. -/
def Carries (before : Writer) (actions : List Action) (after : Writer) : Prop :=
  (∀ action ∈ actions, action.Quiet) → ∀ {base chunks}, Held base before chunks false →
    Held base after (chunks ++ actions.flatMap Action.chunks) false

theorem chains_carries : Chains Carries where
  refl writer _ _ _ held := by simpa using held
  trans front back quiet _ _ held := by
    obtain ⟨here, later⟩ := List.forall_mem_append.mp quiet
    simpa using back later (front here held)

theorem LayoutStep.Clears.foldlM {run : Writer → LayoutStep → Except LayoutError Writer}
    {spoken : LayoutStep → List Action} {steps : List LayoutStep} (clears : Clears clear steps)
    (each : ∀ {step clear next writer after chunks}, clears? clear step = some next →
      (∀ action ∈ spoken step, action.Quiet) → run writer step = .ok after →
      Held base writer chunks clear →
      Held base after (chunks ++ (spoken step).flatMap Action.chunks) next)
    (quiet : ∀ action ∈ steps.flatMap spoken, action.Quiet) (held : Held base writer chunks clear)
    (isOk : steps.foldlM run writer = .ok after) :
    Held base after (chunks ++ (steps.flatMap spoken).flatMap Action.chunks) false := by
  induction steps generalizing writer chunks clear with
  | nil =>
    cases isOk
    simpa using held.forget
  | cons step steps ih =>
    obtain ⟨next, isNext, later⟩ := clears.cons
    obtain ⟨middle, isMiddle, isOk⟩ := foldlM_cons_ok isOk
    obtain ⟨quietHere, quietLater⟩ := List.forall_mem_append.mp (List.flatMap_cons ▸ quiet)
    have here := each isNext quietHere isMiddle held
    simpa using ih later quietLater here isOk

/-- Laying out a document leaves no comment that runs to the end of its line without its line
break. -/
theorem Outline.carries_layOut (statements : 0 < style.statementBreaks)
    (clauses : 0 < style.clauseBreaks) {outline : Outline} (regular : outline.Regular)
    {place : Place} {writer after : Writer}
    (isOk : outline.layOut style tree place writer = .ok after) :
    Carries writer (outline.spoken style.wording) after := by
  induction outline generalizing place writer after with
  | node id kind text attributes children ih =>
    obtain ⟨_, fits, below⟩ := regular
    have each : ∀ child ∈ children, ∀ {place writer after},
        child.layOut style tree place writer = .ok after →
        Carries writer (child.spoken style.wording) after :=
      fun child member _ _ _ isOk => ih child member (below child member) isOk
    intro quiet base chunks held
    cases content : kind.isComment with
    | true =>
      rw [Outline.spoken, if_neg (by rintro rfl; cases content), if_pos content] at quiet ⊢
      have opensNone : Region.openedBy? text = none :=
        quiet (.openRegion id text kind.commentEnd) (by simp)
      rw [List.flatMap_cons, Action.chunks_comment style.wording content]
      exact held.comment place content opensNone isOk
    | false =>
      rw [Outline.layOut_node] at isOk
      rw [← LayoutStep.plan_spoken style place fits] at quiet ⊢
      -- The plan of a node passes the check, so no step writes while a line break is owed.
      refine (LayoutStep.plan_clears style place content).foldlM ?_ quiet held isOk
      intro step clear next writer after chunks clears quiet isOk held
      cases LayoutStep.takes_of_run isOk with
      | act action =>
        rw [LayoutStep.spoken, Action.chunks_spoken]
        exact Action.held_apply statements clauses clears held
      | siblings lays isOk =>
        cases step with
        | children | childrenOf part | comments =>
          cases lays
          cases clears
          exact chains_carries.layOutList each isOk quiet held.forget
        | _ => cases lays
      | keyword isOk =>
        cases clears
        exact Chains.layOutKeyword each isOk quiet held.forget
      | enclosed inside =>
        cases clear with
        | false => cases clears
        | true =>
          -- The inside of a group is written apart, where nothing is owed at the start.
          have start : Inks [] writer.inner [] false := @Inks.start writer.inner held.inks.free
          obtain ⟨arrears, holds, _⟩ :=
            chains_carries.layOutList each inside quiet (start.held false)
          exact (held.inks.enclose holds style).held next

end Document

namespace Tree

variable {tree : Tree} {draft : Draft}

/-- Without a region of kept text a document is laid out with a line break, or the end of the text,
behind every comment that runs to the end of its line. -/
theorem Shows.format_endsLines (shown : tree.Shows draft) (sound : draft.Sound)
    (quiet : draft.outline.Quiet) (statements : 0 < style.statementBreaks)
    (clauses : 0 < style.clauseBreaks) (warning : String) :
    ∃ text, tree.format style warning = .ok (tree.warningText warning ++ text) ∧
      style.EndsLines (draft.outline.chunks style.wording) text := by
  obtain ⟨after, isOk, _⟩ := Outline.lays_layOut style tree sound.outline_regular {}
    (tree.opening style warning)
  have start := Writer.Inks.start (tree.region_opening style warning)
  obtain ⟨arrears, holds, _⟩ := Outline.carries_layOut statements clauses sound.outline_regular isOk
    (quiet.spoken style.wording) (start.held false)
  obtain ⟨free, marks, isMarks, written⟩ := holds.settle style
  have empty : style.EndsLines [] "" := .nil ⟨[], by simp, rfl⟩
  have ends := written.endsLines empty nofun
  refine ⟨String.join (marks.reverse.map (Mark.text style)), ?_, ?_⟩
  · rw [format_eq, shown.outline_eq, isOk, Except.map, ending, free]
    simp [Writer.output, isMarks, ← output_opening tree style warning]
  · simpa [Outline.flatMap_chunks_spoken] using ends

end Tree

/-- No comment swallows what follows it: if statements and clauses are separated by at least one
line break, a script without regions of kept text is formatted as the pieces of its tree, in
document order and with blanks around them, where a line break or the end of the text comes right
after every comment that runs to the end of its line. -/
theorem format_ends_comments (style : Style) (statements : 0 < style.statementBreaks)
    (clauses : 0 < style.clauseBreaks) (script warning : String)
    (quiet : (TokenList.ofText script).Quiet) :
    ∃ tree text, Tree.ofText script = .ok tree ∧
      format style script warning =
        .ok { text := tree.warningText warning ++ text, parseError := tree.hasError } ∧
      style.EndsLines ((tree.outline Tree.root).chunks style.wording) text := by
  obtain ⟨tree, draft, isOk, shown, built⟩ := Tree.ofTokens_shows (.ofText script)
  have outlineQuiet := built.quiet (TokenList.faithful_ofText script) quiet
  obtain ⟨text, isText, ends⟩ :=
    shown.format_endsLines built.sound outlineQuiet statements clauses warning
  exact ⟨tree, text, isOk, format_eq_ok isOk isText, shown.outline_eq ▸ ends⟩

theorem format_ends_comments_parens :
    0 < Style.statementBreaks {} ∧ 0 < Style.clauseBreaks {} ∧
      (TokenList.ofText "select a -- one\n, (b // two\n) from t -- three").Quiet ∧
      ∃ tree text, Tree.ofText "select a -- one\n, (b // two\n) from t -- three" = .ok tree ∧
        format {} "select a -- one\n, (b // two\n) from t -- three" defaultWarning =
          .ok { text := tree.warningText defaultWarning ++ text, parseError := tree.hasError } ∧
        Style.EndsLines {} ((tree.outline Tree.root).chunks (Style.wording {})) text :=
  have quiet : (TokenList.ofText "select a -- one\n, (b // two\n) from t -- three").Quiet := by
    decide +kernel
  ⟨by decide, by decide, quiet,
    format_ends_comments {} (by decide) (by decide) _ defaultWarning quiet⟩

end SqlLayout
