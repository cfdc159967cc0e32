import Mathlib.Tactic.Common
import SqlLayout.Layout.Plan

/-!
# What a writer adds

Outside a region of kept text every action adds to what was written: white space, and for the
actions that write content exactly their piece. In a region nothing is written, unless a comment
closes it. `Writer.Puts` says so for one action and for a sequence of them, and `Writer.Adds`
outside regions also for comments and for what is laid out apart between parentheses.
-/

namespace SqlLayout

namespace Mark

/-- The piece of content that a mark stands for. -/
def piece? : Mark → Option String
  | content piece => some piece
  | _ => none

def isKept : Mark → Bool
  | kept _ => true
  | _ => false

end Mark

namespace Writer

variable {writer : Writer} {body : String}

/-- A writer goes on to another one by adding pieces of content, and white space. In a region
nothing is added. -/
def Puts (before : Writer) (pieces : List String) (after : Writer) : Prop :=
  after.region = before.region ∧ ∃ marks, after.marks = marks ++ before.marks ∧
    if before.region.isSome then marks = []
    else marks.reverse.filterMap Mark.piece? = pieces ∧ ∀ mark ∈ marks, mark.isKept = false

namespace Puts

variable {first second third : Writer} {pieces others : List String}

theorem refl (writer : Writer) : writer.Puts [] writer :=
  ⟨rfl, [], rfl, by split <;> simp⟩

theorem trans (front : first.Puts pieces second) (back : second.Puts others third) :
    first.Puts (pieces ++ others) third := by
  obtain ⟨region, marks, written, isPieces⟩ := front
  obtain ⟨regionMore, more, writtenMore, isOthers⟩ := back
  refine ⟨regionMore.trans region, more ++ marks, by rw [writtenMore, written, List.append_assoc],
    ?_⟩
  rw [region] at isOthers
  split at isPieces
  next inside =>
    rw [if_pos inside] at isOthers ⊢
    rw [isPieces, isOthers, List.append_nil]
  next outside =>
    rw [if_neg outside] at isOthers ⊢
    refine ⟨?_, List.forall_mem_append.mpr ⟨isOthers.2, isPieces.2⟩⟩
    rw [List.reverse_append, List.filterMap_append, isPieces.1, isOthers.1]

theorem after (front : first.Puts [] second) (back : second.Puts pieces third) :
    first.Puts pieces third :=
  front.trans back

theorem before (front : first.Puts pieces second) (back : second.Puts [] third) :
    first.Puts pieces third := by
  simpa using front.trans back

theorem same (puts : first.Puts pieces second) (marks : third.marks = second.marks)
    (region : third.region = second.region) : first.Puts pieces third := by
  rw [Puts, marks, region]
  exact puts

theorem silent (puts : first.Puts pieces second) (inside : first.region.isSome = true) :
    second.marks = first.marks := by
  obtain ⟨_, marks, written, none⟩ := puts
  rw [if_pos inside] at none
  rw [written, none, List.nil_append]

end Puts

/-! ### White space -/

/-- White space is written. What is due and the level may change besides. -/
inductive Spaces (style : Style) : Writer → Writer → Prop where
  | refl (writer : Writer) : Spaces style writer writer
  | endLine {before after : Writer} (spaces : Spaces style before after) :
      Spaces style before after.endLine
  | space {before after : Writer} (spaces : Spaces style before after) :
      Spaces style before after.space
  | indentLine {before after : Writer} (spaces : Spaces style before after) :
      Spaces style before (after.indentLine style)
  | same {before after other : Writer} (spaces : Spaces style before after)
      (marks : other.marks = after.marks) (region : other.region = after.region)
      (column : other.column = after.column) (content : other.lineHasContent =
        after.lineHasContent) :
      Spaces style before other

namespace Spaces

variable {style : Style} {first second third : Writer}

theorem newLine (spaces : Spaces style first second) : Spaces style first (second.newLine style) :=
  spaces.endLine.indentLine.same rfl rfl rfl rfl

theorem newLines (spaces : Spaces style first second) (count : Nat) :
    Spaces style first (second.newLines style count) := by
  induction count generalizing second with
  | zero => exact spaces
  | succ count ih => exact ih spaces.newLine

theorem endLines (spaces : Spaces style first second) (count : Nat) :
    Spaces style first (second.endLines count) := by
  induction count generalizing second with
  | zero => exact spaces
  | succ count ih => exact ih spaces.endLine

theorem settle (spaces : Spaces style first second) : Spaces style first (second.settle style) := by
  unfold Writer.settle
  split
  · exact (spaces.newLine.newLines _).same rfl rfl rfl rfl
  · exact (spaces.newLines _).same rfl rfl rfl rfl

theorem separate (writer : Writer) : Spaces style writer (writer.separate style) := by
  unfold Writer.separate
  split
  · split
    · have outdented : Spaces style writer writer.outdent := (refl writer).same rfl rfl rfl rfl
      exact outdented.settle.same rfl rfl rfl rfl
    · exact (refl writer).settle.same rfl rfl rfl rfl
  · split
    · exact (refl writer).space.same rfl rfl rfl rfl
    · exact (refl writer).same rfl rfl rfl rfl

theorem separateComment (writer : Writer) : Spaces style writer (writer.separateComment style) := by
  unfold Writer.separateComment
  split
  · have broken : Spaces style writer { writer with breakDue := true } :=
      (refl writer).same rfl rfl rfl rfl
    exact broken.settle.same rfl rfl rfl rfl
  · split
    · exact (refl writer).space.same rfl rfl rfl rfl
    · exact (refl writer).same rfl rfl rfl rfl

theorem startStatement (writer : Writer) (starter : Option String) :
    Spaces style writer (writer.startStatement style starter) := by
  unfold Writer.startStatement
  split
  · exact ((refl writer).endLines _).indentLine.same rfl rfl rfl rfl
  · exact .refl writer

end Spaces

theorem puts_mark (writer : Writer) {mark : Mark} (unkept : mark.isKept = false) :
    writer.Puts mark.piece?.toList (writer.mark mark) := by
  unfold Writer.mark
  split
  next inside => exact ⟨rfl, [], rfl, by rw [if_pos inside]⟩
  next outside =>
    refine ⟨rfl, [mark], rfl, ?_⟩
    rw [if_neg outside]
    refine ⟨?_, by simpa using unkept⟩
    cases mark <;> rfl

theorem Spaces.puts {style : Style} {before after : Writer} (spaces : Spaces style before after) :
    before.Puts [] after := by
  induction spaces with
  | refl => exact .refl before
  | endLine _ ih => exact ih.before ((puts_mark _ rfl).same rfl rfl)
  | @space after _ ih =>
    refine ih.before ?_
    unfold Writer.space
    split
    · exact .refl after
    · exact (puts_mark after rfl).same rfl rfl
  | indentLine _ ih => exact ih.before ((puts_mark _ rfl).same rfl rfl)
  | same _ marks region _ _ ih => exact ih.same marks region

theorem puts_newLine (writer : Writer) (style : Style) : writer.Puts [] (writer.newLine style) :=
  (Spaces.refl writer).newLine.puts

theorem puts_settle (writer : Writer) (style : Style) : writer.Puts [] (writer.settle style) :=
  (Spaces.refl writer).settle.puts

theorem puts_separateComment (writer : Writer) (style : Style) :
    writer.Puts [] (writer.separateComment style) :=
  (Spaces.separateComment writer).puts

/-! ### Content -/

theorem puts_write (writer : Writer) (style : Style) (piece : String) :
    writer.Puts [piece] (writer.write style piece) := by
  have unkept : Mark.isKept (.content piece) = false := rfl
  unfold write
  split
  next inside => exact ⟨rfl, [], rfl, by rw [if_pos inside]⟩
  next =>
    dsimp only
    split
    · exact (writer.puts_newLine style).after ((puts_mark _ unkept).same rfl rfl)
    · exact (puts_mark writer unkept).same rfl rfl

/-- Outside a region a writer goes on to another one by adding pieces of content, and white
space. -/
def Adds (before : Writer) (pieces : List String) (after : Writer) : Prop :=
  before.region = none → before.Puts pieces after

theorem Puts.adds {before after : Writer} {pieces : List String} (puts : before.Puts pieces after) :
    before.Adds pieces after :=
  fun _ => puts

namespace Adds

variable {first second third : Writer} {pieces others : List String}

theorem trans (front : first.Adds pieces second) (back : second.Adds others third) :
    first.Adds (pieces ++ others) third := by
  intro free
  have puts := front free
  exact puts.trans (back (puts.1.trans free))

theorem before (front : first.Adds pieces second) (back : second.Puts [] third) :
    first.Adds pieces third := by
  intro free
  exact (front free).before back

theorem written (adds : first.Adds pieces second) (free : first.region = none) :
    second.region = none ∧ ∃ marks, second.marks = marks ++ first.marks ∧
      marks.reverse.filterMap Mark.piece? = pieces ∧ ∀ mark ∈ marks, mark.isKept = false := by
  obtain ⟨region, marks, written, isPieces⟩ := adds free
  rw [free] at region isPieces
  exact ⟨region, marks, written, by simpa using isPieces⟩

end Adds

/-- What was written apart is taken over. -/
theorem adds_append {origin inner : Writer} {pieces : List String}
    (adds : origin.inner.Adds pieces inner) (free : origin.region = none)
    (outside : writer.region = none) :
    writer.Puts pieces (writer.append inner) := by
  obtain ⟨region, marks, written, isPieces⟩ := adds.written free
  have all : inner.marks = marks := by simpa [Writer.inner] using written
  exact ⟨region.trans outside.symm, marks, by rw [append, all], by simpa [outside] using isPieces⟩

/-- What was written apart is taken over, on lines of its own if need be. -/
theorem adds_enclose {inner : Writer} {pieces : List String}
    (adds : writer.inner.Adds pieces inner) (style : Style) :
    writer.Adds pieces (writer.enclose inner style) := by
  intro free
  unfold enclose
  split
  · dsimp only
    split
    · exact (adds_append adds free free).before (puts_newLine _ style)
    · have broken := writer.puts_newLine style
      exact broken.after
        ((adds_append adds free (broken.1.trans free)).before (puts_newLine _ style))
  · exact adds_append adds free free

theorem comment_eq_write {tree : Tree} {id : NodeId}
    (stays : writer.closeRegion? tree id body = none) (style : Style) (piece : String) :
    writer.comment style tree id body piece = (writer.separateComment style).write style piece := by
  rw [comment, stays]

theorem closeRegion?_of_free (free : writer.region = none) (tree : Tree) (id : NodeId)
    (body : String) : writer.closeRegion? tree id body = none := by
  rw [closeRegion?, free]

theorem adds_comment (writer : Writer) (style : Style) (tree : Tree) (id : NodeId)
    (body piece : String) : writer.Adds [piece] (writer.comment style tree id body piece) := by
  intro free
  rw [comment_eq_write (closeRegion?_of_free free ..)]
  exact (writer.puts_separateComment style).after (puts_write _ style piece)

theorem openRegion_eq_self (quiet : Region.openedBy? body = none) (writer : Writer) (id : NodeId)
    (after : String) : writer.openRegion id body after = writer := by
  simp [openRegion, quiet]

theorem puts_openRegion (writer : Writer) (id : NodeId) (after : String)
    (quiet : Region.openedBy? body = none) : writer.Puts [] (writer.openRegion id body after) := by
  rw [openRegion_eq_self quiet]
  exact .refl writer

end Writer

/-! ### Actions -/

namespace Action

variable {action : Action}

def pieces : Action → List String
  | write piece | comment _ _ piece => [piece]
  | _ => []

def Quiet : Action → Prop
  | openRegion _ body _ => Region.openedBy? body = none
  | _ => True

/-- An action that neither writes a comment nor opens a region for one. -/
def isDirect : Action → Bool
  | comment .. | openRegion .. => false
  | _ => true

/-- Most actions write white space at most. -/
theorem spaces_apply (direct : action.isDirect = true) (silent : action.pieces = [])
    (style : Style) (tree : Tree) (writer : Writer) :
    Writer.Spaces style writer (action.apply style tree writer) := by
  cases action with
  | newLine => exact (Writer.Spaces.refl writer).newLine
  | settle => exact (Writer.Spaces.refl writer).settle
  | separate => exact .separate writer
  | startStatement starter =>
    exact (Writer.Spaces.startStatement writer starter).same rfl rfl rfl rfl
  | write | comment => cases silent
  | openRegion => cases direct
  | _ => exact (Writer.Spaces.refl writer).same rfl rfl rfl rfl

theorem puts_apply (direct : action.isDirect = true) (style : Style) (tree : Tree)
    (writer : Writer) : writer.Puts action.pieces (action.apply style tree writer) := by
  by_cases silent : action.pieces = []
  · rw [silent]
    exact (spaces_apply direct silent style tree writer).puts
  · cases action with
    | write piece => exact writer.puts_write style piece
    | comment => cases direct
    | _ => exact absurd rfl silent

theorem adds_apply (quiet : action.Quiet) (style : Style) (tree : Tree) (writer : Writer) :
    writer.Adds action.pieces (action.apply style tree writer) := by
  cases direct : action.isDirect with
  | true => exact (puts_apply direct style tree writer).adds
  | false =>
    cases action with
    | comment id body piece => exact writer.adds_comment style tree id body piece
    | openRegion id body after => exact (writer.puts_openRegion id after quiet).adds
    | _ => cases direct

end Action

/-! ### White space between pieces -/

/-- A text of spaces, line breaks and indentation. -/
def Style.Blank (style : Style) (text : String) : Prop :=
  ∃ parts : List String, (∀ part ∈ parts, part = " " ∨ part = "\n" ∨ part = style.indentText) ∧
    text = String.join parts

/-- A text that consists of pieces, in this order, with spaces, line breaks and indentation before,
between and after them. -/
inductive Style.Spaced (style : Style) : List String → String → Prop where
  | nil {gap : String} (blank : style.Blank gap) : Spaced style [] gap
  | cons {gap piece rest : String} {pieces : List String} (blank : style.Blank gap)
      (spaced : Spaced style pieces rest) : Spaced style (piece :: pieces) (gap ++ piece ++ rest)

namespace Style

variable {style : Style}

theorem Blank.append {first second : String} (front : style.Blank first)
    (back : style.Blank second) :
    style.Blank (first ++ second) := by
  obtain ⟨parts, known, rfl⟩ := front
  obtain ⟨others, knownOthers, rfl⟩ := back
  exact ⟨parts ++ others, List.forall_mem_append.mpr ⟨known, knownOthers⟩, String.join_append.symm⟩

theorem Spaced.after {gap text : String} {pieces : List String} (blank : style.Blank gap)
    (spaced : style.Spaced pieces text) : style.Spaced pieces (gap ++ text) := by
  cases spaced with
  | nil inner => exact .nil (blank.append inner)
  | cons inner rest =>
    rw [← String.append_assoc, ← String.append_assoc]
    exact .cons (blank.append inner) rest

theorem blank_of_piece?_eq_none {mark : Mark} (silent : mark.piece? = none)
    (unkept : mark.isKept = false) : style.Blank (mark.text style) := by
  cases mark with
  | lineEnd => exact ⟨["\n"], by simp, by simp [Mark.text, String.join]⟩
  | space => exact ⟨[" "], by simp, by simp [Mark.text, String.join]⟩
  | indentation levels =>
    exact ⟨List.replicate levels style.indentText, fun part member =>
      .inr (.inr (List.eq_of_mem_replicate member)), rfl⟩
  | content piece => simp [Mark.piece?] at silent
  | kept text => simp [Mark.isKept] at unkept

/-- Marks are their pieces with white space. -/
theorem spaced_of_marks {marks : List Mark} (unkept : ∀ mark ∈ marks, mark.isKept = false) :
    style.Spaced (marks.filterMap Mark.piece?) (String.join (marks.map (Mark.text style))) := by
  induction marks with
  | nil => exact .nil ⟨[], by simp, rfl⟩
  | cons first rest ih =>
    obtain ⟨firstUnkept, restUnkept⟩ := List.forall_mem_cons.mp unkept
    rw [List.map_cons, String.join_cons]
    cases piece : first.piece? with
    | none =>
      rw [List.filterMap_cons_none piece]
      exact (ih restUnkept).after (blank_of_piece?_eq_none piece firstUnkept)
    | some text =>
      have isContent : first = .content text := by
        cases first <;> simp_all [Mark.piece?]
      rw [List.filterMap_cons_some piece, isContent, Mark.text, ← @String.empty_append text]
      exact .cons ⟨[], by simp, rfl⟩ (ih restUnkept)

end Style

end SqlLayout
