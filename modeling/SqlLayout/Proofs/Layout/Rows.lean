import Mathlib.Data.List.DropRight
import SqlLayout.Proofs.Layout.Lines
import SqlLayout.Proofs.Token.Smooth

/-!
# How wide lines are

What is laid out falls into rows of marks, the lines of the text. A row with more than one piece is
no wider than the style allows, unless it was moved behind an opening parenthesis: such a row and
the one before it, without their indentation, fit on one line together.
-/

namespace SqlLayout

namespace Style

/-- How many columns a text takes. -/
def width (style : Style) : List Char → Nat
  | [] => 0
  | c :: rest => style.columns c + style.width rest

/-- Indentation is white space and does not break the line. -/
def Plain (style : Style) : Prop :=
  ∀ c ∈ style.indentText.toList, Text.isBlank c = true ∧ c ≠ '\n'

instance (style : Style) : Decidable style.Plain :=
  List.decidableBAll (fun c => Text.isBlank c = true ∧ c ≠ '\n') style.indentText.toList

variable {style : Style} {text other : List Char}

@[simp]
theorem width_append : style.width (text ++ other) = style.width text + style.width other := by
  induction text with
  | nil => exact (Nat.zero_add _).symm
  | cons c text ih => rw [List.cons_append, width, width, ih, Nat.add_assoc]

theorem width_eq_length (tabless : '\t' ∉ text) : style.width text = text.length := by
  induction text with
  | nil => rfl
  | cons c text ih =>
    rw [List.mem_cons, not_or] at tabless
    have one : style.columns c = 1 := if_neg (Ne.symm tabless.1)
    rw [width, one, ih tabless.2, List.length_cons, Nat.add_comm]

theorem foldl_columns (text : List Char) (start : Nat) :
    text.foldl (fun width c => width + style.columns c) start = start + style.width text := by
  induction text generalizing start with
  | nil => rfl
  | cons c text ih => rw [List.foldl_cons, ih, width, Nat.add_assoc]

theorem width_indentText : style.width style.indentText.toList = style.indentWidth := by
  rw [indentWidth, foldl_columns, Nat.zero_add]

end Style

/-- A text without the white space at its end. -/
def Text.trimmed (text : List Char) : List Char :=
  text.rdropWhile isBlank

theorem Text.trimmed_append {text blank : List Char} (isBlank : ∀ c ∈ blank, isBlank c = true) :
    trimmed (text ++ blank) = trimmed text := by
  induction blank using List.reverseRecOn with
  | nil => rw [List.append_nil]
  | append_singleton blank c ih =>
    rw [trimmed, ← List.append_assoc, List.rdropWhile_concat_pos _ _ _ (isBlank c (by simp))]
    exact ih fun c member => isBlank c (by simp [member])

theorem Style.width_trimmed (style : Style) (text : List Char) :
    style.width (Text.trimmed text) ≤ style.width text := by
  obtain ⟨rest, whole⟩ := text.rdropWhile_prefix Text.isBlank
  conv_rhs => rw [← whole]
  rw [Style.width_append]
  exact Nat.le_add_right _ _

/-! ### Rows -/

def Row.text (style : Style) (row : List Mark) : List Char :=
  row.flatMap fun mark => (mark.text style).toList

def Row.pieces (row : List Mark) : List String :=
  row.filterMap Mark.piece?

def Mark.isIndentation : Mark → Bool
  | indentation _ => true
  | _ => false

def Row.unindented (row : List Mark) : List Mark :=
  row.dropWhile Mark.isIndentation

/-- A row of marks that may follow another one. -/
inductive Row.Follows (style : Style) (previous row : List Mark) : Prop where
  /-- The row holds one piece at most. -/
  | single (few : (pieces row).length ≤ 1)
  /-- The row is no wider than the style allows. -/
  | narrow (fits : style.width (Text.trimmed (text style row)) ≤ style.maxWidth)
  /-- The row was moved behind an opening parenthesis. -/
  | moved (levels : Nat) (rest : List Mark) (isMoved : row = .indentation levels :: rest)
      (opened : previous.getLast? = some (.content "("))
      (fits : style.width (text style (unindented previous)) +
        style.width (Text.trimmed (text style rest)) ≤ style.maxWidth)

namespace Row

variable {style : Style} {previous row : List Mark} {column : Nat}

@[simp]
theorem text_append (first second : List Mark) :
    text style (first ++ second) = text style first ++ text style second := by
  simp [text]

@[simp]
theorem text_singleton (mark : Mark) : text style [mark] = (mark.text style).toList := by
  simp [text]

@[simp]
theorem pieces_append (first second : List Mark) :
    pieces (first ++ second) = pieces first ++ pieces second := by
  simp [pieces]

theorem mem_pieces {piece : String} : piece ∈ pieces row ↔ .content piece ∈ row := by
  rw [pieces, List.mem_filterMap]
  constructor
  · rintro ⟨mark, member, isPiece⟩
    cases mark with
    | content => exact Option.some.inj isPiece ▸ member
    | _ => cases isPiece
  · exact fun member => ⟨_, member, rfl⟩

theorem width_unindented (style : Style) (row : List Mark) :
    style.width (text style (unindented row)) ≤ style.width (text style row) := by
  conv_rhs => rw [← List.takeWhile_append_dropWhile (p := Mark.isIndentation) (l := row)]
  rw [text_append, Style.width_append]
  exact Nat.le_add_left _ _

/-- What is known of a row that is being written behind another one and is measured to reach a
column. -/
inductive Measured (style : Style) (previous row : List Mark) (column : Nat) : Prop where
  | whole (within : style.width (text style row) ≤ column)
      (fits : (pieces row).length ≤ 1 ∨
        style.width (Text.trimmed (text style row)) ≤ style.maxWidth)
  | moved (levels : Nat) (rest : List Mark) (isMoved : row = .indentation levels :: rest)
      (opened : previous.getLast? = some (.content "("))
      (within : style.width (text style (unindented previous)) + style.width (text style rest) ≤
        column)
      (fits : (pieces row).length ≤ 1 ∨ style.width (text style (unindented previous)) +
        style.width (Text.trimmed (text style rest)) ≤ style.maxWidth)

namespace Measured

theorem follows (measured : Measured style previous row column) : Follows style previous row := by
  cases measured with
  | whole within fits =>
    rcases fits with few | fits
    · exact .single few
    · exact .narrow fits
  | moved levels rest isMoved opened within fits =>
    rcases fits with few | fits
    · exact .single few
    · exact .moved levels rest isMoved opened fits

/-- A row that starts behind a parenthesis is measured behind what the row before it holds. -/
theorem unindented (measured : Measured style previous row column) :
    style.width (text style (unindented row)) ≤ column := by
  cases measured with
  | whole within => exact (width_unindented style row).trans within
  | moved levels rest isMoved _ within =>
    have same : Row.unindented row = Row.unindented rest := by rw [isMoved]; rfl
    rw [same]
    have := width_unindented style rest
    omega

/-- White space makes a row wider, but not what is left of it without the white space at its end. -/
theorem white (measured : Measured style previous row column) {mark : Mark}
    (silent : mark.piece? = none) (blank : ∀ c ∈ (mark.text style).toList, Text.isBlank c = true) :
    Measured style previous (row ++ [mark]) (column + style.width (mark.text style).toList) := by
  have same : pieces (row ++ [mark]) = pieces row := by simp [pieces, silent]
  cases measured with
  | whole within fits =>
    refine .whole (by simpa using within) ?_
    rwa [same, text_append, text_singleton, Text.trimmed_append blank]
  | moved levels rest isMoved opened within fits =>
    refine .moved levels (rest ++ [mark]) (by simp [isMoved]) opened ?_ ?_
    · rw [text_append, text_singleton, Style.width_append]
      omega
    · rwa [same, text_append, text_singleton, Text.trimmed_append blank]

theorem content (measured : Measured style previous row column) {piece : String}
    (smooth : Text.Smooth piece) (fits : pieces row = [] ∨ column + piece.length ≤ style.maxWidth) :
    Measured style previous (row ++ [.content piece]) (column + piece.length) := by
  have wide : style.width piece.toList = piece.length := Style.width_eq_length smooth.1
  have few : pieces row = [] → (pieces (row ++ [.content piece])).length ≤ 1 := by
    intro none
    rw [pieces_append, none]
    exact Nat.le_refl 1
  cases measured with
  | whole within =>
    have total : style.width (text style (row ++ [.content piece])) ≤ column + piece.length := by
      simp only [text_append, text_singleton, Mark.text, Style.width_append, wide]
      omega
    exact .whole total (fits.imp few ((style.width_trimmed _).trans total).trans)
  | moved levels rest isMoved opened within =>
    have total : style.width (text style (Row.unindented previous)) +
        style.width (text style (rest ++ [.content piece])) ≤ column + piece.length := by
      simp only [text_append, text_singleton, Mark.text, Style.width_append, wide]
      omega
    refine .moved levels (rest ++ [.content piece]) (by simp [isMoved]) opened total
      (fits.imp few fun fits => ?_)
    have := style.width_trimmed (text style (rest ++ [.content piece]))
    omega

end Measured

/-- A row that is being written behind another one, and the state of the line. -/
structure Written (style : Style) (previous row : List Mark) (line : Line) : Prop where
  unbroken : .lineEnd ∉ row
  empty : line.hasContent = false → pieces row = []
  opened : line.opened = true → row.getLast? = some (.content "(")
  measured : Measured style previous row line.column

namespace Written

variable {line : Line}

theorem start (style : Style) (previous : List Mark) : Written style previous [] .start where
  unbroken := List.not_mem_nil
  empty _ := rfl
  opened := nofun
  measured := .whole (Nat.le_refl 0) (.inl (Nat.zero_le 1))

theorem white (written : Written style previous row line) (mark : Mark) {columns : Nat}
    (unbroken : mark ≠ .lineEnd) (silent : mark.piece? = none)
    (blank : ∀ c ∈ (mark.text style).toList, Text.isBlank c = true)
    (wide : style.width (mark.text style).toList = columns) :
    Written style previous (row ++ [mark]) (line.skip columns) where
  unbroken := by simpa [unbroken.symm] using written.unbroken
  empty none := by simpa [pieces, silent] using written.empty none
  opened := nofun
  measured := wide ▸ written.measured.white silent blank

theorem content (written : Written style previous row line) {piece : String}
    (smooth : Text.Smooth piece)
    (fits : line.hasContent = true → line.column + piece.length ≤ style.maxWidth) :
    Written style previous (row ++ [.content piece]) (line.put piece) where
  unbroken := by simpa using written.unbroken
  empty := nofun
  opened isOpening := by simpa using eq_of_beq isOpening
  measured := by
    refine written.measured.content smooth ?_
    cases holds : line.hasContent with
    | true => exact .inr (fits holds)
    | false => exact .inl (written.empty holds)

/-- What is moved behind an opening parenthesis starts a row that is measured behind the one before
it. -/
theorem moved (written : Written style previous row line) (levels : Nat)
    (opened : line.opened = true) :
    Written style row [.indentation levels] (line.skip 0) where
  unbroken := by simp
  empty _ := rfl
  opened := nofun
  measured := by
    refine .moved levels [] rfl (written.opened opened) ?_ (.inl (Nat.zero_le 1))
    simpa [text, Style.width, Line.skip] using written.measured.unindented

end Written

end Row

/-! ### Laying out in rows -/

section Rows

variable {style : Style} {previous row : List Mark} {line last : Line} {marks : List Mark}

theorem Style.Plain.blank (plain : style.Plain) (levels : Nat) :
    ∀ c ∈ (Mark.text style (.indentation levels)).toList, Text.isBlank c = true := by
  intro c member
  simp only [Mark.text, String.toList_join, List.mem_flatMap, List.mem_replicate] at member
  obtain ⟨_, ⟨_, rfl⟩, member⟩ := member
  exact (plain c member).1

theorem Style.width_indentation (style : Style) (levels : Nat) :
    style.width (Mark.text style (.indentation levels)).toList = levels * style.indentWidth := by
  induction levels with
  | zero => simp [Mark.text, width]
  | succ levels ih =>
    have step : (Mark.text style (.indentation (levels + 1))).toList =
        style.indentText.toList ++ (Mark.text style (.indentation levels)).toList := by
      simp [Mark.text, List.replicate_succ]
    rw [step, width_append, width_indentText, ih, Nat.succ_mul, Nat.add_comm]

/-- Marks fall into rows of which each may follow the one before it. -/
def Row.Divide (style : Style) (previous marks : List Mark) (rows : List (List Mark)) : Prop :=
  rows ≠ [] ∧ [.lineEnd].intercalate rows = marks ∧ (∀ row ∈ rows, .lineEnd ∉ row) ∧
    (previous :: rows).IsChain (Follows style)

theorem Row.Written.divide (written : Written style previous row line) :
    Divide style previous row [row] :=
  ⟨by simp, by simp, by simpa using written.unbroken, by simpa using written.measured.follows⟩

theorem Row.Written.ends (written : Written style previous row line) {rows : List (List Mark)}
    (later : Divide style row marks rows) :
    Divide style previous (row ++ .lineEnd :: marks) (row :: rows) := by
  obtain ⟨some, rfl, unbroken, chain⟩ := later
  refine ⟨by simp, ?_, List.forall_mem_cons.mpr ⟨written.unbroken, unbroken⟩,
    List.isChain_cons_cons.mpr ⟨written.measured.follows, chain⟩⟩
  simp [List.intercalate_cons_of_ne_nil some]

/-- Marks that stand where they may fall into rows that may follow each other. -/
theorem Laid.rows (laid : Laid style line marks last) (plain : style.Plain)
    (smooth : ∀ piece, .content piece ∈ marks → Text.Smooth piece)
    (written : Row.Written style previous row line) :
    ∃ rows, Row.Divide style previous (row ++ marks) rows := by
  induction laid generalizing previous row with
  | done => exact ⟨[row], by simpa using written.divide⟩
  | space _ ih =>
    have smoothLater := fun piece member => smooth piece (List.mem_cons_of_mem _ member)
    have blank : ∀ c ∈ " ".toList, Text.isBlank c = true := Text.forall_mem_of_all (by decide)
    have one : style.width " ".toList = 1 := Style.width_eq_length (by decide)
    obtain ⟨rows, divide⟩ := ih smoothLater (written.white .space (by simp) rfl blank one)
    exact ⟨rows, by simpa using divide⟩
  | indentation levels _ ih =>
    have smoothLater := fun piece member => smooth piece (List.mem_cons_of_mem _ member)
    have wide := style.width_indentation levels
    obtain ⟨rows, divide⟩ := ih smoothLater
      (written.white (.indentation levels) (by simp) rfl (plain.blank levels) wide)
    exact ⟨rows, by simpa using divide⟩
  | lineEnd _ ih =>
    have smoothLater := fun piece member => smooth piece (List.mem_cons_of_mem _ member)
    obtain ⟨rows, divide⟩ := ih smoothLater (.start style row)
    exact ⟨row :: rows, written.ends divide⟩
  | moved levels opened _ ih =>
    have smoothLater := fun piece member =>
      smooth piece (List.mem_cons_of_mem _ (List.mem_cons_of_mem _ member))
    obtain ⟨rows, divide⟩ := ih smoothLater (written.moved levels opened)
    exact ⟨row :: rows, written.ends divide⟩
  | content piece fits _ ih =>
    have smoothLater := fun piece member => smooth piece (List.mem_cons_of_mem _ member)
    obtain ⟨rows, divide⟩ := ih smoothLater (written.content (smooth piece List.mem_cons_self) fits)
    exact ⟨rows, by simpa using divide⟩

theorem Laid.unkept (laid : Laid style line marks last) : ∀ mark ∈ marks, mark.isKept = false := by
  induction laid with
  | done => simp
  | moved _ _ _ ih => simpa [Mark.isKept] using ih
  | space _ ih | indentation _ _ ih | lineEnd _ ih | content _ _ _ ih =>
    simpa [Mark.isKept] using ih

theorem Row.text_intercalate (style : Style) (rows : List (List Mark)) :
    text style ([.lineEnd].intercalate rows) = ['\n'].intercalate (rows.map (text style)) := by
  induction rows with
  | nil => rfl
  | cons first rest ih =>
    cases rest with
    | nil => simp
    | cons second rest =>
      rw [List.intercalate_cons_cons, text_append, text_append, ih]
      simp [List.intercalate_cons_cons, Mark.text]

theorem Row.pieces_intercalate (rows : List (List Mark)) :
    pieces ([.lineEnd].intercalate rows) = rows.flatMap pieces := by
  induction rows with
  | nil => rfl
  | cons first rest ih =>
    cases rest with
    | nil => simp
    | cons second rest =>
      rw [List.intercalate_cons_cons, pieces_append, pieces_append, ih]
      simp [pieces, Mark.piece?]

theorem mem_intercalate_of_mem {α : Type} {separator element : α} {list : List α}
    {lists : List (List α)} (among : list ∈ lists) (member : element ∈ list) :
    element ∈ [separator].intercalate lists := by
  induction lists with
  | nil => cases among
  | cons first rest ih =>
    cases rest with
    | nil => simpa using List.mem_singleton.mp among ▸ member
    | cons second rest =>
      rw [List.intercalate_cons_cons]
      rcases List.mem_cons.mp among with rfl | among
      · simp [member]
      · simp [ih among]

namespace Row.Divide

variable {rows : List (List Mark)}

theorem unbroken (divide : Divide style previous marks rows) (plain : style.Plain)
    (smooth : ∀ piece, .content piece ∈ marks → Text.Smooth piece)
    (unkept : ∀ mark ∈ marks, mark.isKept = false) :
    ∀ row ∈ rows, '\n' ∉ text style row := by
  obtain ⟨_, rfl, unbroken, _⟩ := divide
  intro row among member
  obtain ⟨mark, within, member⟩ := List.mem_flatMap.mp member
  have inside : mark ∈ [Mark.lineEnd].intercalate rows := mem_intercalate_of_mem among within
  cases mark with
  | lineEnd => exact unbroken row among within
  | space => simp [Mark.text] at member
  | indentation levels =>
    simp only [Mark.text, String.toList_join, List.mem_flatMap, List.mem_replicate] at member
    obtain ⟨_, ⟨_, rfl⟩, member⟩ := member
    exact (plain _ member).2 rfl
  | content piece => exact (smooth piece inside).2 member
  | kept kept => cases unkept _ inside

/-- The rows are the lines of the text. -/
theorem lines (divide : Divide style previous marks rows) (plain : style.Plain)
    (smooth : ∀ piece, .content piece ∈ marks → Text.Smooth piece)
    (unkept : ∀ mark ∈ marks, mark.isKept = false) :
    (String.join (marks.map (Mark.text style))).toList.splitOn '\n' = rows.map (text style) := by
  have unbroken := divide.unbroken plain smooth unkept
  obtain ⟨some, rfl, _⟩ := divide
  have whole : (String.join (([Mark.lineEnd].intercalate rows).map (Mark.text style))).toList =
      ['\n'].intercalate (rows.map (text style)) := by
    rw [String.toList_join, List.flatMap_map]
    exact text_intercalate style rows
  rw [whole]
  exact List.splitOn_intercalate '\n' (by simpa using unbroken) (by simpa using some)

theorem pieces (divide : Divide style previous marks rows) :
    rows.flatMap pieces = marks.filterMap Mark.piece? := by
  obtain ⟨_, rfl, _⟩ := divide
  exact (pieces_intercalate rows).symm

end Row.Divide

end Rows

end SqlLayout
