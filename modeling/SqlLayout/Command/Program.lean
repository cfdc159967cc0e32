import SqlLayout.Command.Arguments
import SqlLayout.Command.Run
import SqlLayout.Style.Config

/-!
# The program

The command line from its arguments to its exit code.
-/

namespace SqlLayout

/-- The line that the request for the version prints. -/
def versionLine : String :=
  "tsqlfmt 0.1.0\n"

def Parameter.usage (parameter : Parameter) : String :=
  let letter :=
    match parameter.short? with
    | some letter => String.ofList ['-', letter] ++ ", "
    | none => "    "
  let value :=
    match parameter.valueRule with
    | .never => ""
    | .attached => "[=<BOOL>]"
    | .always => " <VALUE>"
  "  " ++ letter ++ "--" ++ parameter.long ++ value ++ "\n"

/-- The lines that the request for help prints. -/
def helpText : String :=
  "Reformats T-SQL scripts.\n\nUsage: tsqlfmt [OPTIONS] [INPUT]\n\nOptions:\n" ++
    String.join ((Parameter.all.filter (· != .input)).map Parameter.usage)

def UsageError.message : UsageError → String
  | unknownArgument => "unexpected argument"
  | invalidValue => "invalid or missing value"
  | valueValidation => "value is not a number in range"
  | argumentConflict => "argument given more than once"
  | tooManyValues => "unexpected value"

section

variable {m : Type → Type} [Monad m] [Host m]

def loadStyle (path : String) : m (Except RunError Style) := do
  match ← readText path with
  | .error fault => return .error (.configRead path fault)
  | .ok content =>
      match Style.ofToml? content with
      | some style => return .ok style
      | none => return .error (.configParse path)

/-- The style of a run: that of the configuration file, if there is one, under the options that are
set. -/
def resolveStyle (config : Option String) (settings : List (StyleOption × Setting)) :
    m (Except RunError Style) := do
  let style ←
    match config with
    | some path => loadStyle path
    | none => pure (.ok {})
  return style.map fun style => (style.setAll? settings).getD style

/-- The settings of a run. Backups are only made of files that are overwritten. -/
def Arguments.runSettings (arguments : Arguments) : RunSettings :=
  let extensions := if arguments.extensions.isEmpty then [".sql"] else arguments.extensions
  { extensions := extensions.map normalizeExtension
    recursive := arguments.recursive
    backups := arguments.backups && arguments.output.isNone
    output := arguments.output
    allowParsingErrors := arguments.allowParsingErrors
    dumpTree := arguments.dumpTree }

/-- Formats the input, which must not be empty. -/
def runInput (style : Style) (settings : RunSettings) : m (Except RunError Report) := do
  match (← Host.readInput) >>= textOf with
  | .error fault => return .error (.transfer fault)
  | .ok script =>
      if script.isEmpty then return .error .noInput
      runText style settings script

def runArguments (arguments : Arguments) : m (Except RunError Report) := do
  match ← resolveStyle arguments.config arguments.style with
  | .error error => return .error error
  | .ok style =>
      let settings := arguments.runSettings
      match arguments.input with
      | none => runInput style settings
      | some input => if input = "-" then runInput style settings else runFiles style settings input

/-- The arguments, with the configuration file that the environment names if they name none. -/
def Arguments.withEnvironment (arguments : Arguments) (config : Option String) :
    Except UsageError Arguments :=
  match arguments.config, config with
  | none, some path =>
    (pathArgument (some path)).map fun path => { arguments with config := some path }
  | _, _ => .ok arguments

/-- Runs the program and gives its exit code. -/
def runProgram (words : List String) (environmentConfig : Option String) : m Nat := do
  match Arguments.parse Parameter.all words with
  | .error .versionRequested =>
      Host.print versionLine
      return 0
  | .error .helpRequested =>
      Host.print helpText
      return 0
  | .error (.usage error) =>
      Host.log .error error.message
      return 1
  | .ok arguments =>
      match arguments.withEnvironment environmentConfig with
      | .error error =>
          Host.log .error error.message
          return 1
      | .ok arguments =>
          match ← runArguments arguments with
          | .ok report => return report.exitCode
          | .error error =>
              Host.log .error error.message
              return error.exitCode

end

end SqlLayout
