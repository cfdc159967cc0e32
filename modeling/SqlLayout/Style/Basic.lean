/-!
# Styles

The choices that a layout leaves open: how to indent, where to break lines, and how to write
keywords.
-/

namespace SqlLayout

/-- The choices that a layout leaves open. -/
structure Style where
  /-- What one level of indentation is written as. -/
  indentText : String := "\t"
  /-- How many columns a tab takes. -/
  spacesPerTab : Nat := 4
  /-- The widest line before content moves to the next one. -/
  maxWidth : Nat := 999
  /-- How many line breaks separate two statements. -/
  statementBreaks : Nat := 2
  /-- How many line breaks separate two clauses. -/
  clauseBreaks : Nat := 1
  /-- Whether the comma of an expanded list ends a line instead of starting one. -/
  trailingCommas : Bool := false
  /-- Whether a space follows the comma of an expanded list. -/
  spaceAfterComma : Bool := false
  /-- Whether the two bounds of a `BETWEEN` stand on lines of their own. -/
  expandBetween : Bool := true
  /-- Whether each condition of a conjunction or disjunction stands on a line of its own. -/
  expandConditions : Bool := true
  /-- Whether each branch of a `CASE` stands on a line of its own. -/
  expandCases : Bool := true
  /-- Whether each element of a list stands on a line of its own. -/
  expandCommaLists : Bool := true
  /-- Whether each element of an `IN` list stands on a line of its own. -/
  expandInLists : Bool := true
  /-- Whether the `ON` of a join starts a line. -/
  breakBeforeOn : Bool := false
  /-- Whether keywords are written in upper case, instead of lower case. -/
  upperKeywords : Bool := true
  /-- Whether keywords are written in their preferred spelling. -/
  preferredKeywords : Bool := false
  /-- Whether plain names are written in brackets. -/
  bracketNames : Bool := false
deriving DecidableEq, Repr, Inhabited

namespace Style

def columns (style : Style) (c : Char) : Nat :=
  if c = '\t' then style.spacesPerTab else 1

def indentWidth (style : Style) : Nat :=
  style.indentText.toList.foldl (fun width c => width + style.columns c) 0

end Style

end SqlLayout
