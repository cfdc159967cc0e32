import SqlLayout.Command.Host
import SqlLayout.Format

/-!
# Errors that end a run

Trouble with a single file is logged and counted. The errors here end the run, each with an exit
code.
-/

namespace SqlLayout

/-- Why a run ends early. -/
inductive RunError where
  /-- There is neither a path nor any input. -/
  | noInput
  /-- The configuration file cannot be read. -/
  | configRead (path : String) (fault : Fault)
  /-- The configuration file does not describe a style. -/
  | configParse (path : String)
  /-- The place to search cannot be searched. -/
  | search (path : String) (fault : Fault)
  /-- The output file cannot be created. -/
  | outputCreate (path : String) (fault : Fault)
  /-- No file matches the input path. -/
  | noFilesFound (input : String)
  /-- Reading the input or writing the results fails. -/
  | transfer (fault : Fault)
  /-- A script cannot be formatted. -/
  | format (error : FormatError)
deriving DecidableEq, Repr, Inhabited

def TreeError.message : TreeError → String
  | ancestorMismatch levels expected found =>
      let foundName := (found.map NodeKind.name).getD "nothing"
      s!"ancestor {levels} levels up is {foundName}, expected {expected.name}"
  | noSuchAncestor levels start =>
      s!"cannot move {levels} levels up from {start.name}: not enough ancestors"
  | cursorOutsideTree => "current container can only be set to a node in the current document"
  | detachedSibling sibling => s!"cannot insert before a detached {sibling.name} node"

def FormatError.message : FormatError → String
  | tree error => "parser error: " ++ error.message
  | layout error => "formatter error: " ++ error.message

namespace RunError

def message : RunError → String
  | noInput => "No input: pass a file path or pipe SQL on standard input"
  | configRead path fault => s!"Failed to read config file '{path}': " ++ fault.message
  | configParse path => s!"Invalid config file '{path}'"
  | search path fault => s!"Cannot search '{path}': " ++ fault.message
  | outputCreate path fault => s!"Cannot create output file '{path}': " ++ fault.message
  | noFilesFound input => s!"No files found matching '{input}'"
  | transfer fault => "IO error: " ++ fault.message
  | format error => "Formatting failed: " ++ error.message

def exitCode : RunError → Nat
  | noInput | configRead _ _ | configParse _ => 1
  | search _ _ => 2
  | outputCreate _ _ => 3
  | noFilesFound _ => 4
  | transfer _ | format _ => 5

end RunError

end SqlLayout
