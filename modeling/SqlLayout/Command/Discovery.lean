import SqlLayout.Command.Error
import SqlLayout.Command.Path
import SqlLayout.Text.Case.Fold

/-!
# Finding files

An input path is a directory, a file, or a pattern for file names in a directory. It selects the
files that have one of the wanted extensions and, outside of a directory, a name that fits the
pattern.
-/

namespace SqlLayout

/-- The files that an input path selects. -/
structure FileSet where
  /-- Where the search started. -/
  base : String
  /-- The names that lead from there to each file, in order. -/
  files : List (List String)
deriving DecidableEq, Repr, Inhabited

namespace FileSet

def path (set : FileSet) (names : List String) : String :=
  names.foldl Path.join set.base

def paths (set : FileSet) : List String :=
  set.files.map set.path

end FileSet

def normalizeExtension (extension : String) : String :=
  if extension.toList.head? = some '.' then extension else "." ++ extension

/-- Whether a file name has one of the wanted extensions, in any case. -/
def hasExtension (wanted : List String) (name : String) : Bool :=
  match Path.extension? name with
  | none => false
  | some extension => wanted.any fun other => Text.eqIgnoringAsciiCase other ("." ++ extension)

/-- Whether a name fits a pattern. A star stands for any characters and a question mark for one,
line feeds apart; other characters stand for themselves in any case. -/
def fitsPattern : List Char → List Char → Bool
  | [], [] => true
  | [], _ :: _ => false
  | '*' :: pattern, [] => fitsPattern pattern []
  | '*' :: pattern, c :: name =>
      fitsPattern pattern (c :: name) || (c != '\n' && fitsPattern ('*' :: pattern) name)
  | _ :: _, [] => false
  | wanted :: pattern, c :: name =>
      (if wanted = '?' then c != '\n' else Text.sameUpToCase wanted c) && fitsPattern pattern name
termination_by pattern name => pattern.length + name.length

/-- Whether a file that lies below the base is selected. -/
def isSelected (pattern : Option String) (extensions : List String) (entry : Entry) : Bool :=
  match entry.names.getLast? with
  | none => false
  | some name =>
      entry.isFile && pattern.all (fun pattern => fitsPattern pattern.toList name.toList) &&
        hasExtension extensions name

/-- Where to search for an input path, and the pattern for the names of the files there. -/
def searchPlan (input : String) (isDirectory : Bool) : String × Option String :=
  if isDirectory then (input, none)
  else
    let base :=
      match Path.parent? input with
      | some parent => if parent.isEmpty then "." else parent
      | none => "."
    (base, Path.fileName? input)

/-- The selected ones of the entries below the base, ordered by their names. -/
def selectFiles (pattern : Option String) (extensions : List String) (entries : List Entry) :
    List (List String) :=
  ((entries.filter (isSelected pattern extensions)).map Entry.names).mergeSort
    fun left right => !decide (right < left)

def findFiles {m : Type → Type} [Monad m] [Host m] (input : String) (extensions : List String)
    (recursive : Bool) : m (Except RunError FileSet) := do
  let (base, pattern) := searchPlan input (← Host.isDirectory input)
  match ← Host.status base with
  | .error fault => return .error (.search base fault)
  | .ok false => return .error (.search base .searchedFile)
  | .ok true =>
      let entries ← Host.entriesBelow base recursive
      return .ok { base, files := selectFiles pattern extensions entries }

end SqlLayout
