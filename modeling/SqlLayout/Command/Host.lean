/-!
# Hosts

What the command line needs from the machine that it runs on: files, an input, an output and a log.
The program is written against this interface, so that it runs on a real machine and in memory
alike.
-/

namespace SqlLayout

/-- Why a file operation fails. -/
inductive Fault where
  | notFound
  | isDirectory
  | notDirectory
  | alreadyExists
  /-- The place to search is a file. -/
  | searchedFile
  /-- The content is not text. -/
  | invalidText
  /-- The path holds a NUL character. -/
  | nulInPath
  /-- Any other reason, in words. -/
  | other (text : String)
deriving DecidableEq, Repr, Inhabited

def Fault.message : Fault → String
  | notFound => "No such file or directory (os error 2)"
  | isDirectory => "Is a directory (os error 21)"
  | notDirectory => "Not a directory (os error 20)"
  | alreadyExists => "File exists (os error 17)"
  | searchedFile => "not a directory"
  | invalidText => "stream did not contain valid UTF-8"
  | nulInPath => "file name contained an unexpected NUL byte"
  | other text => text

/-- How serious a log line is. -/
inductive Severity where
  | info
  | warning
  | error
deriving DecidableEq, Repr, Inhabited

/-- The mark of a log line, which takes five columns. -/
def Severity.mark : Severity → String
  | info => " INFO"
  | warning => " WARN"
  | error => "ERROR"

/-- Something found below a directory. -/
structure Entry where
  /-- The names that lead from the directory to it. -/
  names : List String
  isFile : Bool
deriving DecidableEq, Repr, Inhabited

/-- A machine to run on. -/
class Host (m : Type → Type) where
  /-- Whether a path names a directory. -/
  isDirectory : String → m Bool
  /-- Whether what a path names is a directory, or why nothing is found. -/
  status : String → m (Except Fault Bool)
  /-- What lies directly in a directory, or anywhere below it. -/
  entriesBelow : String → Bool → m (List Entry)
  /-- The content of a file. -/
  read : String → m (Except Fault ByteArray)
  /-- Gives a file new content, and creates it if it is missing. -/
  write : String → ByteArray → m (Except Fault Unit)
  /-- Adds to the end of a file. -/
  append : String → ByteArray → m (Except Fault Unit)
  /-- Copies a file. -/
  copy : String → String → m (Except Fault Unit)
  /-- Creates a directory with those on the way to it, where they are missing. -/
  makeDirectories : String → m (Except Fault Unit)
  /-- The whole input. -/
  readInput : m (Except Fault ByteArray)
  print : String → m Unit
  log : Severity → String → m Unit

def textOf (bytes : ByteArray) : Except Fault String :=
  match String.fromUTF8? bytes with
  | some text => .ok text
  | none => .error .invalidText

/-- The content of a file, which must be text. -/
def readText {m : Type → Type} [Monad m] [Host m] (path : String) : m (Except Fault String) := do
  return (← Host.read path) >>= textOf

end SqlLayout
