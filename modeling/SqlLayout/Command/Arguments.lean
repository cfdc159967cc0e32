import SqlLayout.Command.Path
import SqlLayout.Style.Option

/-!
# Command-line arguments

Options are written `--name value` or `--name=value`, some also `-x value`, `-xvalue` or `-x=value`;
letters without values can be joined. An option whose value is the next argument is only looked at
once the argument after it has been recognised, so an unknown option is reported before a bad value
in front of it.
-/

namespace SqlLayout

/-- What an argument can set. -/
inductive Parameter where
  | style (option : StyleOption)
  | config
  | extension
  | recursive
  | backups
  | output
  | allowParsingErrors
  | dumpTree
  | verbose
  | help
  | version
  /-- The one argument without a name. -/
  | input
deriving DecidableEq, Repr, Inhabited

/-- How a parameter takes its value. -/
inductive ValueRule where
  /-- It takes none. -/
  | never
  /-- It may take one, after an equals sign. -/
  | attached
  /-- It needs one. -/
  | always
deriving DecidableEq, Repr, Inhabited

namespace Parameter

def long : Parameter → String
  | style option => option.argument
  | config => "config"
  | extension => "extension"
  | recursive => "recursive"
  | backups => "backups"
  | output => "output"
  | allowParsingErrors => "allow-parsing-errors"
  | dumpTree => "dump-tree"
  | verbose => "verbose"
  | help => "help"
  | version => "version"
  | input => ""

def short? : Parameter → Option Char
  | config => some 'c'
  | extension => some 'e'
  | recursive => some 'r'
  | backups => some 'b'
  | output => some 'o'
  | allowParsingErrors => some 'a'
  | verbose => some 'v'
  | help => some 'h'
  | version => some 'V'
  | style _ | dumpTree | input => none

def valueRule : Parameter → ValueRule
  | style option => if option.kind = .flag then .attached else .always
  | config | extension | output | input => .always
  | recursive | backups | allowParsingErrors | dumpTree | verbose | help | version => .never

def isRepeatable (parameter : Parameter) : Bool :=
  parameter == extension

/-- The style options with the request for help. -/
def styleParameters : List Parameter :=
  StyleOption.all.map style ++ [help]

def all : List Parameter :=
  StyleOption.all.map style ++
    [config, extension, recursive, backups, output, allowParsingErrors, dumpTree,
      verbose, help, version, input]

end Parameter

/-- What is wrong with the arguments. -/
inductive UsageError where
  | unknownArgument
  /-- A value is missing or not one of those allowed. -/
  | invalidValue
  /-- A value is not a number. -/
  | valueValidation
  /-- An argument is given twice. -/
  | argumentConflict
  /-- An argument that takes no value has one. -/
  | tooManyValues
deriving DecidableEq, Repr, Inhabited

/-- Why the arguments are not followed. -/
inductive Refusal where
  | usage (error : UsageError)
  | helpRequested
  | versionRequested
deriving DecidableEq, Repr, Inhabited

structure Arguments where
  input : Option String := none
  config : Option String := none
  /-- The style options that are set. -/
  style : List (StyleOption × Setting) := []
  /-- The extensions, as given. -/
  extensions : List String := []
  recursive : Bool := false
  backups : Bool := false
  output : Option String := none
  allowParsingErrors : Bool := false
  dumpTree : Bool := false
  verbose : Bool := false
deriving DecidableEq, Repr, Inhabited

/-! ### Values -/

namespace Setting

/-- Each backslash with a `t` is a tab. -/
def expandTabs : List Char → List Char
  | '\\' :: 't' :: rest => '\t' :: expandTabs rest
  | c :: rest => c :: expandTabs rest
  | [] => []

/-- The number that a text writes: digits after an optional plus sign. -/
def number? (written : String) : Option Nat :=
  let digits :=
    match written.toList with
    | '+' :: rest => rest
    | chars => chars
  if !digits.isEmpty && digits.all Char.isDigit then
    let value := digits.foldl (fun value digit => value * 10 + (digit.toNat - '0'.toNat)) 0
    if value < Style.numberLimit then some value else none
  else none

/-- The value that an argument gives to a style option. -/
def ofArgument (option : StyleOption) (value : Option String) : Except UsageError Setting :=
  match option.kind, value with
  | .text, some written => .ok (.text (String.ofList (expandTabs written.toList)))
  | .number, some written =>
      match number? written with
      | some value => .ok (.number value)
      | none => .error .valueValidation
  | .flag, none => .ok (.flag true)
  | .flag, some "true" => .ok (.flag true)
  | .flag, some "false" => .ok (.flag false)
  | _, _ => .error .invalidValue

end Setting

/-- A path that an argument names. It cannot be empty. -/
def pathArgument (value : Option String) : Except UsageError String :=
  match value with
  | some path => if path.isEmpty then .error .invalidValue else .ok path
  | none => .error .invalidValue

namespace Arguments

/-- Follows one parameter. -/
def assign (arguments : Arguments) (parameter : Parameter) (value : Option String) :
    Except Refusal Arguments :=
  match parameter with
  | .style option =>
      match Setting.ofArgument option value with
      | .ok setting => .ok { arguments with style := arguments.style ++ [(option, setting)] }
      | .error error => .error (.usage error)
  | .config =>
      match pathArgument value with
      | .ok path => .ok { arguments with config := some path }
      | .error error => .error (.usage error)
  | .output =>
      match pathArgument value with
      | .ok path => .ok { arguments with output := some path }
      | .error error => .error (.usage error)
  | .input =>
      match pathArgument value with
      | .ok path => .ok { arguments with input := some path }
      | .error error => .error (.usage error)
  | .extension => .ok { arguments with extensions := arguments.extensions ++ [value.getD ""] }
  | .recursive => .ok { arguments with recursive := true }
  | .backups => .ok { arguments with backups := true }
  | .allowParsingErrors => .ok { arguments with allowParsingErrors := true }
  | .dumpTree => .ok { arguments with dumpTree := true }
  | .verbose => .ok { arguments with verbose := true }
  | .help => .error .helpRequested
  | .version => .error .versionRequested

end Arguments

/-! ### Reading -/

/-- The arguments read so far. -/
structure ArgumentReader where
  /-- The parameters that may be given. -/
  known : List Parameter
  /-- The parameters that have been given. -/
  given : List Parameter := []
  /-- The parameter that was recognised last and not followed yet, with its value if it has one. -/
  pending : Option (Parameter × Option String) := none
  arguments : Arguments := {}

namespace ArgumentReader

/-- Follows a parameter: its value must be there, and it must not have been given before. -/
def follow (reader : ArgumentReader) (parameter : Parameter) (value : Option String) :
    Except Refusal ArgumentReader :=
  if parameter.valueRule = .always && value.isNone then .error (.usage .invalidValue)
  else if reader.given.contains parameter && !parameter.isRepeatable then
    .error (.usage .argumentConflict)
  else
    match reader.arguments.assign parameter value with
    | .ok arguments => .ok { reader with given := parameter :: reader.given, arguments }
    | .error refusal => .error refusal

def settle (reader : ArgumentReader) : Except Refusal ArgumentReader :=
  match reader.pending with
  | none => .ok reader
  | some (parameter, value) => { reader with pending := none }.follow parameter value

/-- Follows a parameter after the one before it. -/
def take (reader : ArgumentReader) (parameter : Parameter) (value : Option String) :
    Except Refusal ArgumentReader :=
  match reader.settle with
  | .ok reader => reader.follow parameter value
  | .error refusal => .error refusal

/-- Recognises a parameter whose value is still to come, or is not to be looked at yet. -/
def await (reader : ArgumentReader) (parameter : Parameter) (value : Option String) :
    Except Refusal ArgumentReader :=
  match reader.settle with
  | .ok reader => .ok { reader with pending := some (parameter, value) }
  | .error refusal => .error refusal

/-- Whether the next argument can be the value of the parameter that was recognised last. -/
def awaitsValue (reader : ArgumentReader) : Bool :=
  match reader.pending with
  | some (_, none) => true
  | _ => false

/-- An option under its long name, with the value after its equals sign. -/
def readLong (reader : ArgumentReader) (name : String) (value : Option String) :
    Except Refusal ArgumentReader :=
  match reader.known.find? fun parameter => parameter.long == name && !name.isEmpty with
  | none => .error (.usage .unknownArgument)
  | some parameter =>
      match parameter.valueRule, value with
      | .never, none => reader.take parameter none
      | .never, some _ => .error (.usage .tooManyValues)
      | .attached, value => reader.take parameter value
      | .always, some value => reader.take parameter (some value)
      | .always, none => reader.await parameter none

/-- Options under their letters. What follows the letter of an option that takes a value is the
value. -/
def readShort (reader : ArgumentReader) : List Char → Except Refusal ArgumentReader
  | [] => .ok reader
  | letter :: rest =>
      match reader.known.find? fun parameter => parameter.short? == some letter with
      | none => .error (.usage .unknownArgument)
      | some parameter =>
          if parameter.valueRule = .never then
            match reader.take parameter none with
            | .ok reader => reader.readShort rest
            | .error refusal => .error refusal
          else
            match rest with
            | [] => reader.await parameter none
            | '=' :: value => reader.take parameter (some (String.ofList value))
            | value => reader.take parameter (some (String.ofList value))

def readPlain (reader : ArgumentReader) (argument : String) : Except Refusal ArgumentReader :=
  let isFree :=
    reader.known.contains .input && !reader.given.contains .input &&
      reader.pending.all fun pending => pending.1 != .input
  if isFree then reader.await .input (some argument) else .error (.usage .unknownArgument)

def splitLong (text : List Char) : String × Option String :=
  let name := text.takeWhile (· != '=')
  match text.drop name.length with
  | [] => (String.ofList name, none)
  | _ :: value => (String.ofList name, some (String.ofList value))

/-- One argument in front of the marker that ends the options. -/
def readArgument (reader : ArgumentReader) (argument : String) : Except Refusal ArgumentReader :=
  match argument.toList with
  | '-' :: '-' :: long =>
      let (name, value) := splitLong long
      reader.readLong name value
  | '-' :: letter :: rest => reader.readShort (letter :: rest)
  | _ =>
      if reader.awaitsValue then
        .ok { reader with pending := reader.pending.map fun pending => (pending.1, some argument) }
      else reader.readPlain argument

/-- All arguments; after `--` none of them is an option. -/
def readAll (reader : ArgumentReader) (plainOnly : Bool) : List String → Except Refusal Arguments
  | [] => reader.settle.map ArgumentReader.arguments
  | argument :: rest =>
      if !plainOnly && argument = "--" then reader.readAll true rest
      else
        match if plainOnly then reader.readPlain argument else reader.readArgument argument with
        | .ok reader => reader.readAll plainOnly rest
        | .error refusal => .error refusal

end ArgumentReader

/-- What the arguments say, where only the given parameters are known. -/
def Arguments.parse (known : List Parameter) (arguments : List String) : Except Refusal Arguments :=
  ArgumentReader.readAll { known } false arguments

end SqlLayout
