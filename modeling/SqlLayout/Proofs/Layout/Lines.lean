import SqlLayout.Proofs.Layout.Traversal

/-!
# Where pieces stand on their lines

A piece is written behind others on its line only where it fits. What is laid out between
parentheses is measured behind the opening parenthesis, and keeps that measure when it is moved to a
line of its own. `Laid` says where marks may stand, and laying out a document without regions keeps
to it (`Writer.tracks_laid`).
-/

namespace SqlLayout

/-- The state of a line that is being written. -/
structure Line where
  /-- The width of the line. -/
  column : Nat
  /-- Whether the line holds a piece. -/
  hasContent : Bool
  /-- Whether an opening parenthesis was written last. -/
  opened : Bool

namespace Line

def start : Line :=
  { column := 0, hasContent := false, opened := false }

/-- A line on which everything may stand that may stand on another one. -/
structure Admits (line other : Line) : Prop where
  room : other.column ≤ line.column
  hasContent : other.hasContent = true → line.hasContent = true
  opened : line.opened = true → other.opened = true

theorem Admits.refl (line : Line) : line.Admits line :=
  ⟨Nat.le_refl _, id, id⟩

theorem Admits.trans {first second third : Line} (front : first.Admits second)
    (back : second.Admits third) :
    first.Admits third where
  room := back.room.trans front.room
  hasContent := front.hasContent ∘ back.hasContent
  opened := back.opened ∘ front.opened

def skip (line : Line) (columns : Nat) : Line :=
  { line with column := line.column + columns, opened := false }

def put (line : Line) (piece : String) : Line :=
  { line with column := line.column + piece.length, hasContent := true, opened := piece == "(" }

theorem Admits.skip {line other : Line} (admits : line.Admits other) (columns : Nat) :
    (line.skip columns).Admits (other.skip columns) :=
  ⟨Nat.add_le_add_right admits.room columns, admits.hasContent, nofun⟩

theorem Admits.put {line other : Line} (admits : line.Admits other) (piece : String) :
    (line.put piece).Admits (other.put piece) :=
  ⟨Nat.add_le_add_right admits.room _, fun _ => rfl, id⟩

end Line

/-- Marks that are written from one state of a line on, up to another one. -/
inductive Laid (style : Style) : Line → List Mark → Line → Prop where
  | done {line : Line} : Laid style line [] line
  | space {line last : Line} {marks : List Mark} (later : Laid style (line.skip 1) marks last) :
      Laid style line (.space :: marks) last
  | indentation {line last : Line} {marks : List Mark} (levels : Nat)
      (later : Laid style (line.skip (levels * style.indentWidth)) marks last) :
      Laid style line (.indentation levels :: marks) last
  | lineEnd {line last : Line} {marks : List Mark} (later : Laid style .start marks last) :
      Laid style line (.lineEnd :: marks) last
  /-- What follows an opening parenthesis is moved to a line of its own, but measured behind it. -/
  | moved {line last : Line} {marks : List Mark} (levels : Nat) (opened : line.opened = true)
      (later : Laid style (line.skip 0) marks last) :
      Laid style line (.lineEnd :: .indentation levels :: marks) last
  /-- A piece stands alone on its line or fits. -/
  | content {line last : Line} {marks : List Mark} (piece : String)
      (fits : line.hasContent = true → line.column + piece.length ≤ style.maxWidth)
      (later : Laid style (line.put piece) marks last) :
          Laid style line (.content piece :: marks) last

namespace Laid

variable {style : Style} {first second third other : Line} {marks more : List Mark}

theorem append (front : Laid style first marks second) (back : Laid style second more third) :
    Laid style first (marks ++ more) third := by
  induction front with
  | done => exact back
  | space _ ih => exact .space (ih back)
  | indentation levels _ ih => exact .indentation levels (ih back)
  | lineEnd _ ih => exact .lineEnd (ih back)
  | moved levels opened _ ih => exact .moved levels opened (ih back)
  | content piece fits _ ih => exact .content piece fits (ih back)

theorem mono (laid : Laid style first marks second) (admits : first.Admits other) :
    ∃ last, Laid style other marks last ∧ second.Admits last := by
  induction laid generalizing other with
  | done => exact ⟨other, .done, admits⟩
  | space _ ih =>
    obtain ⟨last, laid, admitted⟩ := ih (admits.skip 1)
    exact ⟨last, .space laid, admitted⟩
  | indentation levels _ ih =>
    obtain ⟨last, laid, admitted⟩ := ih (admits.skip (levels * style.indentWidth))
    exact ⟨last, .indentation levels laid, admitted⟩
  | lineEnd later _ => exact ⟨_, .lineEnd later, .refl _⟩
  | moved levels opened _ ih =>
    obtain ⟨last, laid, admitted⟩ := ih (admits.skip 0)
    exact ⟨last, .moved levels (admits.opened opened) laid, admitted⟩
  | content piece fits _ ih =>
    obtain ⟨last, laid, admitted⟩ := ih (admits.put piece)
    refine ⟨last, .content piece (fun holds => ?_) laid, admitted⟩
    exact (Nat.add_le_add_right admits.room _).trans (fits (admits.hasContent holds))

end Laid

namespace Writer

variable {style : Style} {first second third : Writer}

def line (writer : Writer) : Line :=
  { column := writer.column, hasContent := writer.lineHasContent, opened := false }

/-- Outside a region a writer goes on to another one with marks that stand where they may. Behind
them everything may stand that may stand on a given line. -/
def SetsFor (style : Style) (before after : Writer) (line : Line) : Prop :=
  before.region = none → after.region = none ∧ ∃ marks last, after.marks =
    marks.reverse ++ before.marks ∧ Laid style before.line marks last ∧ line.Admits last

/-- Outside a region a writer goes on to another one with marks that stand where they may. -/
def Sets (style : Style) (before after : Writer) : Prop :=
  SetsFor style before after after.line

theorem Sets.refl (writer : Writer) : Sets style writer writer :=
  fun free => ⟨free, [], writer.line, rfl, .done, .refl _⟩

theorem Sets.thenFor {line : Line} (front : Sets style first second)
    (back : SetsFor style second third line) : SetsFor style first third line := by
  intro free
  obtain ⟨free, marks, middle, written, laid, admits⟩ := front free
  obtain ⟨free, more, last, writtenMore, laidMore, admitsMore⟩ := back free
  obtain ⟨final, laidFinal, admitsFinal⟩ := laidMore.mono admits
  exact ⟨free, marks ++ more, final, by simp [writtenMore, written], laid.append laidFinal,
    admitsMore.trans admitsFinal⟩

theorem Sets.trans (front : Sets style first second) (back : Sets style second third) :
    Sets style first third :=
  front.thenFor back

theorem Sets.same (sets : Sets style first second) (marks : third.marks = second.marks)
    (region : third.region = second.region) (column : third.column = second.column)
    (content : third.lineHasContent = second.lineHasContent) : Sets style first third := by
  intro free
  have sameLine : third.line = second.line := by rw [line, line, column, content]
  rw [marks, region, sameLine]
  exact sets free

/-- What was written last does not matter, unless it is an opening parenthesis. -/
theorem SetsFor.sets {opened : Bool}
    (sets : SetsFor style first second { second.line with opened }) :
    Sets style first second := by
  intro free
  obtain ⟨free, marks, last, written, laid, admits⟩ := sets free
  exact ⟨free, marks, last, written, laid, admits.room, admits.hasContent, nofun⟩

theorem Spaces.sets (spaces : Spaces style first second) : Sets style first second := by
  induction spaces with
  | refl => exact .refl first
  | @endLine after _ ih =>
    refine ih.trans fun free => ?_
    have written : after.endLine = { after with
        marks := .lineEnd :: after.marks, column := 0, lineHasContent := false } := by
      simp [Writer.endLine, mark, free]
    rw [written]
    exact ⟨free, [.lineEnd], _, rfl, .lineEnd .done, .refl _⟩
  | @space after _ ih =>
    refine ih.trans fun free => ?_
    have written : after.space = { after with
        marks := .space :: after.marks, column := after.column + 1 } := by
      simp [Writer.space, mark, free]
    rw [written]
    exact ⟨free, [.space], _, rfl, .space .done, .refl _⟩
  | @indentLine after _ ih =>
    refine ih.trans fun free => ?_
    have written : after.indentLine style = { after with
        marks := .indentation after.level.toNat :: after.marks
        column := after.column + after.level.toNat * style.indentWidth } := by
      simp [Writer.indentLine, mark, free]
    rw [written]
    exact ⟨free, [.indentation _], _, rfl, .indentation _ .done, .refl _⟩
  | same _ marks region column content ih => exact ih.same marks region column content

theorem setsFor_put (writer : Writer) (piece : String)
    (fits : writer.lineHasContent = true → writer.column + piece.length ≤ style.maxWidth) :
    SetsFor style writer
      { writer.mark (.content piece) with
        column := writer.column + piece.length, lineHasContent := true }
      (writer.line.put piece) := by
  intro free
  refine ⟨by simp [mark, free], [.content piece], _, by simp [mark, free], ?_, .refl _⟩
  exact .content piece fits .done

theorem setsFor_write (writer : Writer) (style : Style) (piece : String) :
    SetsFor style writer (writer.write style piece)
      { (writer.write style piece).line with opened := piece == "(" } := by
  intro free
  suffices SetsFor style writer (writer.write style piece)
      { (writer.write style piece).line with opened := piece == "(" } from this free
  unfold write
  rw [if_neg (by simp [free])]
  dsimp only
  split
  next =>
    have empty : (writer.newLine style).lineHasContent = false := by
      simp [newLine, indentLine, endLine, mark, free]
    exact (Spaces.refl writer).newLine.sets.thenFor (setsFor_put _ piece (by simp [empty]))
  next narrow =>
    refine setsFor_put writer piece fun holds => ?_
    simpa [holds] using narrow

theorem sets_write (writer : Writer) (style : Style) (piece : String) :
    Sets style writer (writer.write style piece) :=
  (writer.setsFor_write style piece).sets

theorem sets_comment (style : Style) (tree : Tree) (id : NodeId) (body piece : String)
    (writer : Writer) : Sets style writer (writer.comment style tree id body piece) := by
  intro free
  rw [comment_eq_write (closeRegion?_of_free free ..)]
  exact (Spaces.separateComment writer).sets.trans (sets_write _ style piece) free

theorem sets_openRegion (id : NodeId) {body : String} (after : String)
    (quiet : Region.openedBy? body = none) (writer : Writer) :
    Sets style writer (writer.openRegion id body after) := by
  rw [openRegion_eq_self quiet]
  exact .refl writer

theorem sets_requests (style : Style) (tree : Tree) {requests : List Action}
    (known : requests ⊆ [.requestBreak, .requestSpace, .noteSourceBreak]) (writer : Writer) :
    Sets style writer (requests.foldl (Action.apply style tree) writer) := by
  induction requests generalizing writer with
  | nil => exact .refl writer
  | cons request requests ih =>
    obtain ⟨here, later⟩ := List.cons_subset.mp known
    have silent : request.isDirect = true ∧ request.pieces = [] := by
      simp only [List.mem_cons, List.not_mem_nil, or_false] at here
      rcases here with rfl | rfl | rfl <;> exact ⟨rfl, rfl⟩
    exact (Action.spaces_apply silent.1 silent.2 style tree writer).sets.trans (ih later _)

theorem Sets.append {writer inner : Writer} (inside : Sets style writer.inner inner) :
    Sets style writer (writer.append inner) := by
  intro free
  obtain ⟨outside, marks, last, written, laid, admits⟩ := inside free
  have all : inner.marks = marks.reverse := by simpa [Writer.inner] using written
  exact ⟨outside, marks, last, by rw [Writer.append, all], laid, admits⟩

theorem SetsFor.moved {writer inner : Writer}
    (front : SetsFor style first writer { writer.line with opened := true })
    (inside : Sets style writer.inner inner) :
    Sets style first ((writer.newLine style).append inner) := by
  intro free
  obtain ⟨free, marks, middle, written, laid, admitsMiddle⟩ := front free
  obtain ⟨outside, more, last, writtenInside, laidInside, admitsLast⟩ := inside free
  have all : inner.marks = more.reverse := by simpa [Writer.inner] using writtenInside
  have broken : (writer.newLine style).marks =
      .indentation writer.level.toNat :: .lineEnd :: writer.marks := by
    simp [newLine, endLine, indentLine, mark, free]
  obtain ⟨final, laidFinal, admitsFinal⟩ := laidInside.mono (admitsMiddle.skip 0)
  refine ⟨outside, marks ++ .lineEnd :: .indentation writer.level.toNat :: more, final, ?_, ?_,
    admitsLast.trans admitsFinal⟩
  · rw [Writer.append, all, broken, written]
    simp
  · exact laid.append (.moved _ (admitsMiddle.opened rfl) laidFinal)

/-- What is laid out between parentheses stays where it was laid out, or is moved. -/
theorem SetsFor.enclose {writer inner : Writer}
    (front : SetsFor style first writer { writer.line with opened := true })
    (inside : Sets style writer.inner inner) : Sets style first (writer.enclose inner style) := by
  unfold Writer.enclose
  split
  · dsimp only
    refine Sets.trans ?_ (Spaces.refl _).newLine.sets
    split
    · exact front.sets.trans inside.append
    · exact front.moved inside
  · exact front.sets.trans inside.append

/-- Laying out a document without regions puts every piece where it may stand. -/
theorem tracks_laid (style : Style) (tree : Tree) :
    Tracks style tree fun before actions after => (∀ action ∈ actions, action.Quiet) →
      Sets style before after where
  refl writer _ := .refl writer
  trans front back quiet := by
    obtain ⟨here, later⟩ := List.forall_mem_append.mp quiet
    exact (front here).trans (back later)
  act writer action direct _ := by
    by_cases silent : action.pieces = []
    · exact (Action.spaces_apply direct silent style tree writer).sets
    · cases action with
      | write piece => exact writer.sets_write style piece
      | comment => cases direct
      | _ => exact absurd rfl silent
  comment writer _ _ _ _ _ known quiet := by
    have opensNone : Action.Quiet (.openRegion _ _ _) :=
      quiet _ (List.mem_cons_of_mem _ (List.mem_singleton_self _))
    exact ((sets_comment style tree _ _ _ writer).trans (sets_requests style tree known _)).trans
      (sets_openRegion _ _ opensNone _)
  enclose {writer inner actions} inside quiet := by
    have quietInside : ∀ action ∈ actions, action.Quiet :=
      fun action member => quiet action (by simp [member])
    refine Sets.trans ?_ (sets_write _ style ")")
    exact (writer.setsFor_write style "(").enclose (inside quietInside)

end Writer

end SqlLayout
