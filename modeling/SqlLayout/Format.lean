import SqlLayout.Grammar.Document
import SqlLayout.Layout.Document

/-!
# Formatting scripts

From the text of a script to its text in a style. A script that does not follow the grammar is still
laid out, and the result says that it needed error recovery.
-/

namespace SqlLayout

/-- A script in a style. -/
structure Formatted where
  text : String
  /-- Whether reading the script needed error recovery. -/
  parseError : Bool
deriving DecidableEq, Repr, Inhabited

/-- Why a script cannot be formatted. -/
inductive FormatError where
  | tree (error : TreeError)
  | layout (error : LayoutError)
deriving DecidableEq, Repr, Inhabited

/-- A script in a style, after a warning if it needed error recovery. -/
def format (style : Style) (script : String) (warning : String := defaultWarning) :
    Except FormatError Formatted := do
  let tree ← (Tree.ofText script).mapError .tree
  let text ← (tree.format style warning).mapError .layout
  return { text, parseError := tree.hasError }

end SqlLayout
