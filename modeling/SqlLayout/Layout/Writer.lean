import SqlLayout.Layout.Region
import SqlLayout.Style.Basic
import SqlLayout.Text.Blank
import SqlLayout.Token.Basic
import SqlLayout.Tree.Node

/-!
# The layout writer

A writer holds what is laid out so far and the white space that is due before the next piece of
content. Line breaks and spaces are mostly requested first and written when the next piece arrives.
While a region of kept text is open nothing is written, but requests and indentation are followed
all the same.
-/

namespace SqlLayout

/-- Something written: white space, a piece of content, or text kept as it is. -/
inductive Mark where
  | lineEnd
  | space
  | indentation (levels : Nat)
  | content (piece : String)
  | kept (text : String)
deriving DecidableEq, Repr, Inhabited

def Mark.text (style : Style) : Mark → String
  | lineEnd => "\n"
  | space => " "
  | indentation levels => String.join (List.replicate levels style.indentText)
  | content piece => piece
  | kept text => text

/-- What is laid out so far, and what is due next. -/
structure Writer where
  /-- What was written, the latest first. -/
  marks : List Mark := []
  /-- The indentation level. -/
  level : Int := 0
  /-- Whether the breaks between two statements are due. -/
  statementBreakDue : Bool := false
  /-- Whether a line break is due. -/
  breakDue : Bool := false
  /-- How many line breaks are due besides. -/
  extraBreaks : Nat := 0
  /-- Whether a space is due. -/
  spaceDue : Bool := false
  /-- Whether the source broke the line here. -/
  sourceBreak : Bool := false
  /-- Whether the next line break is indented one level less. -/
  hanging : Bool := false
  /-- The width of the current line. -/
  column : Nat := 0
  /-- Whether the current line holds more than indentation. -/
  lineHasContent : Bool := false
  /-- The open region and the comment that opened it. -/
  region : Option (Region × NodeId) := none
  /-- The first keyword seen at each indentation level, in the order of the levels. -/
  keywords : List (Int × String) := []
deriving DecidableEq, Repr, Inhabited

namespace Writer

def output (writer : Writer) (style : Style) : String :=
  String.join (writer.marks.reverse.map (Mark.text style))

/-- Writes a mark, unless a region is open. -/
def mark (writer : Writer) (mark : Mark) : Writer :=
  if writer.region.isSome then writer else { writer with marks := mark :: writer.marks }

/-- A writer for the inside of parentheses: it continues the line with nothing written or due. -/
def inner (writer : Writer) : Writer :=
  { level := writer.level, column := writer.column, lineHasContent := writer.lineHasContent,
    region := writer.region }

/-- Appends what an inner writer has written and continues where it stopped. -/
def append (writer inner : Writer) : Writer :=
  { writer with
    marks := inner.marks ++ writer.marks, column := inner.column
    lineHasContent := inner.lineHasContent, region := inner.region }

/-! ### White space -/

def endLine (writer : Writer) : Writer :=
  { writer.mark .lineEnd with column := 0, lineHasContent := false }

def space (writer : Writer) : Writer :=
  if writer.region.isSome then writer
  else { writer.mark .space with column := writer.column + 1 }

def indentLine (writer : Writer) (style : Style) : Writer :=
  { writer.mark (.indentation writer.level.toNat) with
    column := writer.column + writer.level.toNat * style.indentWidth }

/-- Starts a line at the current indentation, which settles the break and the space that were
due. -/
def newLine (writer : Writer) (style : Style) : Writer :=
  { writer.endLine.indentLine style with
    breakDue := false, sourceBreak := false, spaceDue := false }

def newLines (writer : Writer) (style : Style) : Nat → Writer
  | 0 => writer
  | count + 1 => (writer.newLine style).newLines style count

/-- Writes the line breaks that are due. -/
def settle (writer : Writer) (style : Style) : Writer :=
  let writer := if writer.breakDue then writer.newLine style else writer
  { writer.newLines style writer.extraBreaks with extraBreaks := 0 }

def indent (writer : Writer) : Writer :=
  { writer with level := writer.level + 1 }

def outdent (writer : Writer) : Writer :=
  { writer with level := writer.level - 1 }

/-- Writes the white space that is due before a word: line breaks if any are due, else a space. -/
def separate (writer : Writer) (style : Style) : Writer :=
  let writer :=
    if writer.breakDue || 0 < writer.extraBreaks then
      if writer.hanging then (writer.outdent.settle style).indent else writer.settle style
    else if writer.spaceDue then writer.space
    else writer
  { writer with hanging := false, sourceBreak := false, spaceDue := false }

/-- Writes the white space that is due before a comment. A comment on a line of its own stays on
one. -/
def separateComment (writer : Writer) (style : Style) : Writer :=
  let writer :=
    if writer.lineHasContent && writer.sourceBreak then
      { writer with breakDue := true }.settle style
    else if writer.spaceDue then writer.space
    else writer
  { writer with sourceBreak := false, spaceDue := false }

/-! ### Content -/

/-- Writes a piece of content, on a new line if it does not fit on the current one. -/
def write (writer : Writer) (style : Style) (piece : String) : Writer :=
  if writer.region.isSome then writer
  else
    let width := piece.length
    let writer :=
      if writer.lineHasContent && style.maxWidth < writer.column + width then writer.newLine style
      else writer
    { writer.mark (.content piece) with column := writer.column + width, lineHasContent := true }

/-- The text after the last line break, if there is a line break. -/
def lastLine? (text : List Char) : Option (List Char) :=
  let line := (text.reverse.takeWhile fun c => c != '\r' && c != '\n').reverse
  if line.length < text.length then some line else none

/-- Writes text as it is. -/
def keep (writer : Writer) (text : String) : Writer :=
  let writer := { writer with marks := .kept text :: writer.marks }
  match lastLine? text.toList with
  | some line =>
      { writer with column := line.length, lineHasContent := !line.all Text.isBlank }
  | none =>
      if text.toList.all Text.isBlank then writer
      else { writer with column := writer.column + text.length, lineHasContent := true }

def breaksLine (writer : Writer) (style : Style) : Bool :=
  writer.marks.any fun mark => containsLineBreak (mark.text style)

/-- Whether marks, one after the other, break the line before anything but spaces and tabs. -/
def breakComesFirst (style : Style) : List Mark → Bool
  | [] => false
  | mark :: rest =>
      match (mark.text style).toList.dropWhile fun c => c == ' ' || c == '\t' with
      | [] => breakComesFirst style rest
      | c :: _ => c == '\r' || c == '\n'

/-- Whether the text written so far breaks the line before anything but spaces and tabs. -/
def startsWithBreak (writer : Writer) (style : Style) : Bool :=
  breakComesFirst style writer.marks.reverse

/-- Takes over what was laid out inside parentheses. What spans several lines gets lines of its
own. -/
def enclose (writer inner : Writer) (style : Style) : Writer :=
  if inner.breakDue || inner.breaksLine style then
    let writer := if inner.startsWithBreak style then writer else writer.newLine style
    (writer.append inner).newLine style
  else writer.append inner

/-! ### Recent keywords -/

/-- Adds a keyword to a list in the order of the levels, unless the level has one. -/
def insertKeyword (level : Int) (keyword : String) : List (Int × String) → List (Int × String)
  | [] => [(level, keyword)]
  | (recorded, known) :: rest =>
      if recorded < level then (recorded, known) :: insertKeyword level keyword rest
      else if recorded = level then (recorded, known) :: rest
      else (level, keyword) :: (recorded, known) :: rest

/-- Records the first keyword of the current level. -/
def remember (writer : Writer) (keyword : String) : Writer :=
  { writer with keywords := insertKeyword writer.level (Text.upper keyword) writer.keywords }

/-- The keyword recorded at the outermost level that is not outside the current one. -/
def recentKeyword? (writer : Writer) : Option String :=
  (writer.keywords.find? fun entry => writer.level ≤ entry.1).map Prod.snd

/-- Forgets the keywords of the current level and of those inside it. -/
def forgetKeywords (writer : Writer) : Writer :=
  { writer with keywords := writer.keywords.filter fun entry => entry.1 < writer.level }

/-! ### Statements -/

def endLines (writer : Writer) : Nat → Writer
  | 0 => writer
  | count + 1 => writer.endLine.endLines count

/-- Whether a statement that starts with a keyword repeats the one before it. Assignments,
declarations and messages stand together in groups. -/
def repeatsStatement (writer : Writer) (starter : Option String) : Bool :=
  match starter with
  | none => false
  | some keyword => ["SET", "DECLARE", "PRINT"].contains keyword && writer.recentKeyword? == starter

/-- Writes the line breaks between two statements, if they are due. -/
def startStatement (writer : Writer) (style : Style) (starter : Option String) : Writer :=
  if writer.statementBreakDue then
    let breaks :=
      if writer.repeatsStatement starter then style.clauseBreaks else style.statementBreaks
    { (writer.endLines breaks).indentLine style with
      breakDue := false, extraBreaks := 0, sourceBreak := false, statementBreakDue := false
      spaceDue := false }
  else writer

/-! ### Levels: neither white space nor content changes the level of the lines -/

@[simp]
theorem mark_level (writer : Writer) (mark : Mark) : (writer.mark mark).level = writer.level := by
  unfold Writer.mark
  split <;> rfl

@[simp]
theorem newLine_level (writer : Writer) (style : Style) :
    (writer.newLine style).level = writer.level := by
  simp [newLine, endLine, indentLine]

@[simp]
theorem newLines_level (writer : Writer) (style : Style) (count : Nat) :
    (writer.newLines style count).level = writer.level := by
  induction count generalizing writer with
  | zero => rfl
  | succ count ih => simp [newLines, ih]

@[simp]
theorem settle_level (writer : Writer) (style : Style) :
    (writer.settle style).level = writer.level := by
  unfold settle
  split <;> simp

@[simp]
theorem space_level (writer : Writer) : writer.space.level = writer.level := by
  unfold space
  split <;> simp

@[simp]
theorem separate_level (writer : Writer) (style : Style) :
    (writer.separate style).level = writer.level := by
  unfold separate
  split
  · split <;> simp [indent, outdent]
  · split <;> simp

@[simp]
theorem separateComment_level (writer : Writer) (style : Style) :
    (writer.separateComment style).level = writer.level := by
  unfold separateComment
  split
  · simp
  · split <;> simp

@[simp]
theorem write_level (writer : Writer) (style : Style) (piece : String) :
    (writer.write style piece).level = writer.level := by
  unfold write
  split
  · rfl
  · simp only [mark_level]
    split <;> simp

@[simp]
theorem keep_level (writer : Writer) (text : String) : (writer.keep text).level = writer.level := by
  unfold keep
  split
  · rfl
  · split <;> rfl

@[simp]
theorem append_level (writer inner : Writer) : (writer.append inner).level = writer.level :=
  rfl

@[simp]
theorem enclose_level (writer inner : Writer) (style : Style) :
    (writer.enclose inner style).level = writer.level := by
  unfold enclose
  split
  · split <;> simp
  · simp

@[simp]
theorem endLines_level (writer : Writer) (count : Nat) :
    (writer.endLines count).level = writer.level := by
  induction count generalizing writer with
  | zero => rfl
  | succ count ih => simp [endLines, endLine, ih]

@[simp]
theorem startStatement_level (writer : Writer) (style : Style) (starter : Option String) :
    (writer.startStatement style starter).level = writer.level := by
  unfold startStatement
  split
  · simp [indentLine]
  · rfl

end Writer

end SqlLayout
