import Mathlib.Data.List.Chain
import SqlLayout.Proofs.Layout.Writer
import SqlLayout.Token.Lexer

/-!
# Neighbours on a line

What is written side by side without white space between: a mark that stands tight, with anything,
or a comment right after a word. Between two pieces of content a writer keeps these rules because it
remembers what is due; `Writer.Ready` says what it remembers about the last piece, and the lemmas
below follow it through every action.
-/

namespace SqlLayout

namespace Piece

def tightMarks : List String :=
  ["(", ")", ",", ".", ";", "::"]

/-- A piece that looks like the start of a comment. -/
def opensComment (piece : String) : Bool :=
  Scan.headIs (fun c => c == '-' || c == '/') piece.toList

/-- A piece that a comment may follow at once: a comment, or one that does not look like an
operator. -/
def isCalm (piece : String) : Bool :=
  ["--", "//", "/*"].any (·.toList.isPrefixOf piece.toList) ||
    !Scan.headIs Scan.isOperatorChar piece.toList

/-- A piece that may stand right before another one, without white space. -/
def Touches (first second : String) : Prop :=
  first ∈ tightMarks ∨ second ∈ tightMarks ∨ isCalm first = true ∧ opensComment second = true

end Piece

open Piece

namespace Mark

/-- A mark that may be written right after another one. -/
def Precedes : Mark → Mark → Prop
  | content first, content second => Touches first second
  | content _, indentation _ | content _, kept _ => False
  | _, _ => True

/-- A mark that may be the first one. -/
def isFirst : Mark → Bool
  | content _ | space | lineEnd => true
  | indentation _ | kept _ => false

end Mark

namespace Writer

variable {piece : String}

/-- The piece of content that was written last, if no white space was written since. -/
def lastPiece? (writer : Writer) : Option String :=
  writer.marks.head?.bind Mark.piece?

/-- Outside regions, what was written keeps the rules for neighbours. -/
structure Apart (writer : Writer) : Prop where
  region : writer.region = none
  chain : writer.marks.IsChain fun later earlier => earlier.Precedes later
  first : ∀ mark ∈ writer.marks.getLast?, mark.isFirst = true

structure Broken (writer : Writer) : Prop extends Apart writer where
  begun : writer.marks ≠ []
  blank : writer.lastPiece? = none

structure Clear (writer : Writer) : Prop extends Apart writer where
  tight : ∀ piece ∈ writer.lastPiece?, piece ∈ tightMarks

structure Wrote (piece : String) (writer : Writer) : Prop extends Apart writer where
  last : writer.lastPiece? = some piece

/-- What is due keeps the last piece apart from the next one, unless it stands tight. -/
structure Ready (writer : Writer) : Prop extends Apart writer where
  due : ∀ piece ∈ writer.lastPiece?, piece ∈ tightMarks ∨ writer.spaceDue = true ∨
    writer.breakDue = true ∧ isCalm piece = true

variable {writer next : Writer} (style : Style)

theorem lastPiece?_of_marks (marks : next.marks = writer.marks) :
    next.lastPiece? = writer.lastPiece? := by
  rw [lastPiece?, lastPiece?, marks]

theorem Apart.of_same (apart : writer.Apart) (marks : next.marks = writer.marks)
    (region : next.region = writer.region) : next.Apart := by
  refine ⟨region.trans apart.region, ?_, ?_⟩ <;> rw [marks]
  · exact apart.chain
  · exact apart.first

theorem Broken.of_same (broken : writer.Broken) (marks : next.marks = writer.marks)
    (region : next.region = writer.region) : next.Broken :=
  ⟨broken.toApart.of_same marks region, marks ▸ broken.begun,
    (lastPiece?_of_marks marks).trans broken.blank⟩

theorem Clear.of_same (clear : writer.Clear) (marks : next.marks = writer.marks)
    (region : next.region = writer.region) : next.Clear := by
  refine ⟨clear.toApart.of_same marks region, ?_⟩
  rw [lastPiece?_of_marks marks]
  exact clear.tight

theorem Wrote.of_same {piece : String} (wrote : writer.Wrote piece)
    (marks : next.marks = writer.marks) (region : next.region = writer.region) : next.Wrote piece :=
  ⟨wrote.toApart.of_same marks region, (lastPiece?_of_marks marks).trans wrote.last⟩

theorem Broken.clear (broken : writer.Broken) : writer.Clear := by
  refine ⟨broken.toApart, ?_⟩
  rw [broken.blank]
  simp

theorem Clear.ready (clear : writer.Clear) : writer.Ready :=
  ⟨clear.toApart, fun piece last => .inl (clear.tight piece last)⟩

theorem Wrote.clear (wrote : writer.Wrote piece) (tight : piece ∈ tightMarks) : writer.Clear := by
  refine ⟨wrote.toApart, ?_⟩
  rw [wrote.last]
  rintro last ⟨⟩
  exact tight

theorem Wrote.ready (wrote : writer.Wrote piece)
    (due : writer.spaceDue = true ∨ writer.breakDue = true ∧ isCalm piece = true) :
    writer.Ready := by
  refine ⟨wrote.toApart, ?_⟩
  rw [wrote.last]
  rintro last ⟨⟩
  exact .inr due

/-! ### White space -/

theorem Apart.mark (apart : writer.Apart) {mark : Mark}
    (precedes : ∀ earlier ∈ writer.marks.head?, earlier.Precedes mark)
    (first : writer.marks = [] → mark.isFirst = true) : (writer.mark mark).Apart := by
  have marks : (writer.mark mark).marks = mark :: writer.marks := by
    simp [Writer.mark, apart.region]
  refine ⟨by simp [Writer.mark, apart.region], ?_, ?_⟩ <;> rw [marks]
  · exact List.isChain_cons.mpr ⟨precedes, apart.chain⟩
  · cases others : writer.marks with
    | nil =>
      rintro last ⟨⟩
      exact first others
    | cons latest earlier =>
      rw [List.getLast?_cons_cons, ← others]
      exact apart.first

theorem Apart.blank (apart : writer.Apart) {mark : Mark} (blank : mark = .lineEnd ∨ mark = .space) :
    (writer.mark mark).Broken := by
  have marks : (writer.mark mark).marks = mark :: writer.marks := by
    simp [Writer.mark, apart.region]
  refine ⟨apart.mark ?_ ?_, by simp [marks], ?_⟩
  · intro earlier _
    rcases blank with rfl | rfl <;> cases earlier <;> trivial
  · intro _
    rcases blank with rfl | rfl <;> rfl
  · rw [lastPiece?, marks]
    rcases blank with rfl | rfl <;> rfl

theorem Apart.endLine (apart : writer.Apart) : writer.endLine.Broken := by
  refine (apart.blank (.inl rfl)).of_same ?_ ?_ <;> simp [Writer.endLine]

theorem Apart.space (apart : writer.Apart) : writer.space.Broken := by
  refine (apart.blank (.inr rfl)).of_same ?_ ?_ <;> simp [Writer.space, apart.region]

theorem Broken.indentLine (broken : writer.Broken) : (writer.indentLine style).Broken := by
  have apart : (writer.mark (.indentation writer.level.toNat)).Apart := by
    refine broken.mark ?_ fun none => absurd none broken.begun
    intro earlier last
    cases earlier with
    | content piece =>
      have blank := broken.blank
      rw [lastPiece?, last] at blank
      cases blank
    | _ => trivial
  have marks : (writer.indentLine style).marks = .indentation writer.level.toNat ::
      writer.marks := by
    simp [Writer.indentLine, mark, broken.region]
  refine ⟨apart.of_same ?_ ?_, by simp [marks], by simp [lastPiece?, marks, Mark.piece?]⟩ <;>
    simp [Writer.indentLine, mark, broken.region]

theorem Apart.newLine (apart : writer.Apart) : (writer.newLine style).Broken :=
  (apart.endLine.indentLine style).of_same rfl rfl

theorem Broken.newLines (broken : writer.Broken) (count : Nat) :
    (writer.newLines style count).Broken := by
  induction count generalizing writer with
  | zero => exact broken
  | succ count ih => exact ih (broken.newLine style)

theorem Broken.endLines (broken : writer.Broken) (count : Nat) :
    (writer.endLines count).Broken := by
  induction count generalizing writer with
  | zero => exact broken
  | succ count ih => exact ih broken.endLine

theorem Apart.settle_cases (apart : writer.Apart) :
    (writer.settle style).Broken ∨
      writer.breakDue = false ∧ writer.extraBreaks = 0 ∧ writer.settle style = writer := by
  have broken := apart.newLine style
  unfold settle
  split
  next => exact .inl ((broken.newLines style _).of_same rfl rfl)
  next noBreak =>
    dsimp only
    cases extra : writer.extraBreaks with
    | zero =>
      refine .inr ⟨by simpa using noBreak, rfl, ?_⟩
      change { writer with extraBreaks := 0 } = writer
      rw [← extra]
    | succ count => exact .inl ((broken.newLines style count).of_same rfl rfl)

theorem Apart.settle (apart : writer.Apart) : (writer.settle style).Apart := by
  rcases apart.settle_cases style with broken | ⟨_, _, same⟩
  · exact broken.toApart
  · rwa [same]

theorem Ready.settle (ready : writer.Ready) : (writer.settle style).Ready := by
  rcases ready.settle_cases style with broken | ⟨_, _, same⟩
  · exact broken.clear.ready
  · rwa [same]

theorem Ready.separate (ready : writer.Ready) : (writer.separate style).Clear := by
  unfold Writer.separate
  split
  next due =>
    have broken : ∀ {other : Writer}, other.marks = writer.marks → other.region = writer.region →
        other.breakDue = writer.breakDue → other.extraBreaks = writer.extraBreaks →
        (other.settle style).Broken := by
      intro other marks region breakDue extra
      rcases (ready.of_same marks region).settle_cases style with broken | ⟨none, noExtra, _⟩
      · exact broken
      · rw [breakDue] at none
        rw [extra] at noExtra
        simp [none, noExtra] at due
    refine Broken.clear ?_
    split
    · exact (@broken writer.outdent rfl rfl rfl rfl).of_same rfl rfl
    · exact (@broken writer rfl rfl rfl rfl).of_same rfl rfl
  next none =>
    split
    · exact Broken.clear (ready.space.of_same rfl rfl)
    next noSpace =>
      refine ⟨ready.of_same rfl rfl, ?_⟩
      intro piece last
      rcases ready.due piece last with tight | space | ⟨isDue, _⟩
      · exact tight
      · exact absurd space noSpace
      · simp [isDue] at none

theorem Ready.startStatement (ready : writer.Ready) (breaks : 0 < style.statementBreaks)
    (clauseBreaks : 0 < style.clauseBreaks) (starter : Option String) :
    (writer.startStatement style starter).Ready := by
  have broken : ∀ {count}, 0 < count → (writer.endLines count).Broken := by
    intro count positive
    cases count with
    | zero => cases positive
    | succ count => exact ready.endLine.endLines count
  unfold Writer.startStatement
  split
  · refine Clear.ready (Broken.clear (((broken ?_).indentLine style).of_same rfl rfl))
    split
    · exact clauseBreaks
    · exact breaks
  · exact ready

/-! ### Content -/

theorem Apart.write (apart : writer.Apart)
    (touches : ∀ last ∈ writer.lastPiece?, Touches last piece) :
    (writer.write style piece).Wrote piece := by
  have step : ∀ {front : Writer}, front.Apart → (∀ last ∈ front.lastPiece?, Touches last piece) →
      ∀ column,
        Wrote piece { front.mark (.content piece) with column, lineHasContent := true } := by
    intro front apart touches column
    have marks : (front.mark (.content piece)).marks = .content piece :: front.marks := by
      simp [Writer.mark, apart.region]
    refine ⟨(apart.mark ?_ fun _ => rfl).of_same rfl rfl, by simp [lastPiece?, marks, Mark.piece?]⟩
    intro earlier last
    cases earlier with
    | content previous =>
      apply touches
      rw [lastPiece?, last]
      rfl
    | _ => trivial
  unfold Writer.write
  rw [if_neg (by simp [apart.region])]
  dsimp only
  split
  · have broken := apart.newLine style
    exact step broken.toApart (by simp [broken.blank]) _
  · exact step apart touches _

/-- A comment is written after what is due, or right after a calm piece. -/
theorem Ready.comment (ready : writer.Ready) (tree : Tree) (id : NodeId) (body : String)
    {piece : String} (opens : opensComment piece = true) :
    (writer.comment style tree id body piece).Wrote piece := by
  have written : ∀ {front : Writer}, front.Broken → (front.write style piece).Wrote piece := by
    intro front broken
    refine broken.write style ?_
    rw [broken.blank]
    simp
  rw [comment_eq_write (closeRegion?_of_free ready.region ..), separateComment]
  split
  next =>
    have apart : Apart { writer with breakDue := true } := ready.of_same rfl rfl
    rcases apart.settle_cases style with broken | ⟨none, _⟩
    · apply written
      exact broken.of_same rfl rfl
    · cases none
  next =>
    split
    next =>
      apply written
      exact ready.space.of_same rfl rfl
    next noSpace =>
      apply Apart.write
      · exact ready.of_same rfl rfl
      intro last isLast
      rcases ready.due last isLast with tight | space | ⟨_, calm⟩
      · exact .inl tight
      · exact absurd space noSpace
      · exact .inr (.inr ⟨calm, opens⟩)

/-! ### Parentheses -/

theorem Apart.inner (apart : writer.Apart) : writer.inner.Ready := by
  refine ⟨⟨apart.region, by simp [Writer.inner], by simp [Writer.inner]⟩, ?_⟩
  simp [lastPiece?, Writer.inner]

/-- What was written apart may follow a mark that stands tight. -/
theorem Clear.append (clear : writer.Clear) {inner : Writer} (apart : inner.Apart) :
    (writer.append inner).Apart := by
  refine ⟨apart.region, List.isChain_append.mpr ⟨apart.chain, clear.chain, ?_⟩, ?_⟩
  · intro later isFirst earlier isLast
    cases earlier with
    | content piece =>
      have tight : piece ∈ tightMarks := by
        apply clear.tight
        rw [lastPiece?, isLast]
        rfl
      cases later with
      | content second => exact .inl tight
      | lineEnd | space => trivial
      | indentation | kept => cases apart.first _ isFirst
    | _ => trivial
  · intro mark isFirst
    rw [Writer.append, List.getLast?_append] at isFirst
    cases earliest : writer.marks.getLast? with
    | some _ =>
      rw [earliest, Option.some_or] at isFirst
      exact clear.first mark (earliest.trans isFirst)
    | none =>
      rw [earliest, Option.none_or] at isFirst
      exact apart.first mark isFirst

theorem Clear.enclose (clear : writer.Clear) {inner : Writer} (apart : inner.Apart) :
    (writer.enclose inner style).Apart := by
  have broken : ∀ {front : Writer}, front.Clear → ((front.append inner).newLine style).Apart :=
    fun clear => ((clear.append apart).newLine style).toApart
  unfold Writer.enclose
  split
  · dsimp only
    split
    · exact broken clear
    · exact broken (clear.newLine style).clear
  · exact clear.append apart

end Writer

end SqlLayout
