import SqlLayout.Style.Basic

/-!
# Style options

Every choice of a style has a name in configuration files and one on the command line, and takes a
text, a number or a truth value.
-/

namespace SqlLayout

inductive Setting where
  | text (value : String)
  | number (value : Nat)
  | flag (value : Bool)
deriving DecidableEq, Repr, Inhabited

/-- What a style option takes. -/
inductive SettingKind where
  | text
  | number
  | flag
deriving DecidableEq, Repr, Inhabited

/-- A choice of a style. -/
inductive StyleOption where
  | indentText
  | spacesPerTab
  | maxWidth
  | statementBreaks
  | clauseBreaks
  | trailingCommas
  | spaceAfterComma
  | expandBetween
  | expandConditions
  | expandCases
  | expandCommaLists
  | expandInLists
  | breakBeforeOn
  | upperKeywords
  | preferredKeywords
  | bracketNames
deriving DecidableEq, Repr, Inhabited

namespace StyleOption

def all : List StyleOption := [
  indentText, spacesPerTab, maxWidth, statementBreaks, clauseBreaks, trailingCommas,
  spaceAfterComma, expandBetween, expandConditions, expandCases, expandCommaLists,
  expandInLists, breakBeforeOn, upperKeywords, preferredKeywords, bracketNames]

/-- The name of an option in a configuration file. -/
def key : StyleOption → String
  | indentText => "indent_string"
  | spacesPerTab => "spaces_per_tab"
  | maxWidth => "max_line_width"
  | statementBreaks => "new_statement_line_breaks"
  | clauseBreaks => "new_clause_line_breaks"
  | trailingCommas => "trailing_commas"
  | spaceAfterComma => "space_after_expanded_comma"
  | expandBetween => "expand_between_conditions"
  | expandConditions => "expand_boolean_expressions"
  | expandCases => "expand_case_statements"
  | expandCommaLists => "expand_comma_lists"
  | expandInLists => "expand_in_lists"
  | breakBeforeOn => "break_join_on_sections"
  | upperKeywords => "uppercase_keywords"
  | preferredKeywords => "keyword_standardization"
  | bracketNames => "wrap_names_in_brackets"

/-- The name of an option on the command line. -/
def argument : StyleOption → String
  | indentText => "indent-string"
  | spacesPerTab => "spaces-per-tab"
  | maxWidth => "max-line-width"
  | statementBreaks => "statement-breaks"
  | clauseBreaks => "clause-breaks"
  | trailingCommas => "trailing-commas"
  | spaceAfterComma => "space-after-expanded-comma"
  | expandBetween => "expand-between-conditions"
  | expandConditions => "expand-boolean-expressions"
  | expandCases => "expand-case-statements"
  | expandCommaLists => "expand-comma-lists"
  | expandInLists => "expand-in-lists"
  | breakBeforeOn => "break-join-on-sections"
  | upperKeywords => "uppercase-keywords"
  | preferredKeywords => "standardize-keywords"
  | bracketNames => "wrap-names-in-brackets"

def kind : StyleOption → SettingKind
  | indentText => .text
  | spacesPerTab | maxWidth | statementBreaks | clauseBreaks => .number
  | _ => .flag

def ofKey? (key : String) : Option StyleOption :=
  all.find? fun option => option.key == key

end StyleOption

namespace Style

/-- The numbers that an option can take are below this one. -/
def numberLimit : Nat := 18446744073709551616

def get (style : Style) : StyleOption → Setting
  | .indentText => .text style.indentText
  | .spacesPerTab => .number style.spacesPerTab
  | .maxWidth => .number style.maxWidth
  | .statementBreaks => .number style.statementBreaks
  | .clauseBreaks => .number style.clauseBreaks
  | .trailingCommas => .flag style.trailingCommas
  | .spaceAfterComma => .flag style.spaceAfterComma
  | .expandBetween => .flag style.expandBetween
  | .expandConditions => .flag style.expandConditions
  | .expandCases => .flag style.expandCases
  | .expandCommaLists => .flag style.expandCommaLists
  | .expandInLists => .flag style.expandInLists
  | .breakBeforeOn => .flag style.breakBeforeOn
  | .upperKeywords => .flag style.upperKeywords
  | .preferredKeywords => .flag style.preferredKeywords
  | .bracketNames => .flag style.bracketNames

/-- Sets an option; nothing if the value is not of its kind. -/
def set? (style : Style) (option : StyleOption) (setting : Setting) : Option Style :=
  match option, setting with
  | .indentText, .text value => some { style with indentText := value }
  | .spacesPerTab, .number value => some { style with spacesPerTab := value }
  | .maxWidth, .number value => some { style with maxWidth := value }
  | .statementBreaks, .number value => some { style with statementBreaks := value }
  | .clauseBreaks, .number value => some { style with clauseBreaks := value }
  | .trailingCommas, .flag value => some { style with trailingCommas := value }
  | .spaceAfterComma, .flag value => some { style with spaceAfterComma := value }
  | .expandBetween, .flag value => some { style with expandBetween := value }
  | .expandConditions, .flag value => some { style with expandConditions := value }
  | .expandCases, .flag value => some { style with expandCases := value }
  | .expandCommaLists, .flag value => some { style with expandCommaLists := value }
  | .expandInLists, .flag value => some { style with expandInLists := value }
  | .breakBeforeOn, .flag value => some { style with breakBeforeOn := value }
  | .upperKeywords, .flag value => some { style with upperKeywords := value }
  | .preferredKeywords, .flag value => some { style with preferredKeywords := value }
  | .bracketNames, .flag value => some { style with bracketNames := value }
  | _, _ => none

/-- An option that was set has the value that it was given. -/
theorem get_of_set? {style updated : Style} {option : StyleOption} {setting : Setting}
    (assigned : style.set? option setting = some updated) : updated.get option = setting := by
  cases option <;> cases setting <;> simp_all [set?, get] <;> subst assigned <;> rfl

/-- Sets options one after the other; nothing if a value is not of its option's kind. -/
def setAll? (style : Style) : List (StyleOption × Setting) → Option Style
  | [] => some style
  | (option, setting) :: rest =>
      match style.set? option setting with
      | none => none
      | some style => style.setAll? rest

end Style

end SqlLayout
