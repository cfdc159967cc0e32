import SqlLayout.Command.Discovery
import SqlLayout.Tree.Dump

/-!
# Runs

A run formats a text or the selected files. Results go to where the files are, into a directory that
takes over their arrangement, or one after the other into a single file.
-/

namespace SqlLayout

/-- How a run selects its files and writes its results. -/
structure RunSettings where
  /-- The extensions of the files to format, with their points. -/
  extensions : List String := [".sql"]
  /-- Whether directories are searched to the bottom. -/
  recursive : Bool := false
  /-- Whether a file is copied before it is overwritten. -/
  backups : Bool := false
  /-- Where results go instead of into the files themselves. -/
  output : Option String := none
  /-- Whether results are written that needed error recovery. -/
  allowParsingErrors : Bool := false
  /-- Whether the tree is printed instead of the formatted text. -/
  dumpTree : Bool := false
deriving DecidableEq, Repr, Inhabited

structure Report where
  filesFound : Nat := 0
  filesWritten : Nat := 0
  /-- How many inputs were skipped or only partly handled. -/
  warnings : Nat := 0
deriving DecidableEq, Repr, Inhabited

namespace Report

def exitCode (report : Report) : Nat :=
  if 0 < report.warnings then 5 else 0

def warn (report : Report) : Report :=
  { report with warnings := report.warnings + 1 }

def wrote (report : Report) : Report :=
  { report with filesWritten := report.filesWritten + 1 }

end Report

/-- A file that takes all results. What was written last is held back until it fills a buffer. -/
structure Combined where
  path : String
  held : ByteArray := .empty

namespace Combined

/-- How many bytes are held back at most. -/
def capacity : Nat := 8192

section

variable {m : Type → Type} [Monad m] [Host m]

def flush (combined : Combined) : m (Combined × Except Fault Unit) := do
  if combined.held.isEmpty then return (combined, .ok ())
  match ← Host.append combined.path combined.held with
  | .ok () => return ({ combined with held := .empty }, .ok ())
  | .error fault => return (combined, .error fault)

def hold (combined : Combined) (bytes : ByteArray) : Combined :=
  { combined with held := combined.held ++ bytes }

def makeRoom (combined : Combined) (size : Nat) : m (Combined × Except Fault Unit) :=
  if capacity < combined.held.size + size then combined.flush else return (combined, .ok ())

/-- Writes bytes, at once if they fill the buffer. -/
def put (combined : Combined) (bytes : ByteArray) : m (Combined × Except Fault Unit) := do
  match ← combined.makeRoom bytes.size with
  | (combined, .error fault) => return (combined, .error fault)
  | (combined, .ok ()) =>
      if capacity ≤ bytes.size then return (combined, ← Host.append combined.path bytes)
      else return (combined.hold bytes, .ok ())

/-- Writes a script as a batch of its own. -/
def putBatch (combined : Combined) (script : String) : m (Combined × Except Fault Unit) := do
  match ← combined.put script.toUTF8 with
  | (combined, .error fault) => return (combined, .error fault)
  | (combined, .ok ()) =>
      let separator := if script.toList.getLast? = some '\n' then "GO\n" else "\nGO\n"
      combined.put separator.toUTF8

end

end Combined

/-- Where results go. -/
inductive Target where
  /-- Into the files themselves. -/
  | inPlace
  /-- Into files below a directory, arranged like the selected ones. -/
  | directory (path : String)
  /-- Into one file. -/
  | combined (output : Combined)

section

variable {m : Type → Type} [Monad m] [Host m]

/-- Formats a script. One that needs error recovery is noted in the log. -/
def formatLogged (style : Style) (script : String) : m (Except FormatError Formatted) := do
  match format style script with
  | .error error => return .error error
  | .ok result =>
      if result.parseError then
        Host.log .warning "errors encountered while parsing, output may not be as expected"
      return .ok result

/-- Prints the tree of a script. -/
def dumpScript (script : String) : m (Except RunError Unit) := do
  match Tree.ofText script with
  | .error error => return .error (.format (.tree error))
  | .ok tree =>
      if tree.hasError then
        Host.log .warning "errors encountered while parsing, output may not be as expected"
      Host.print tree.dump
      return .ok ()

/-- Notes in the log why a file was skipped, and counts it. -/
def skip (report : Report) (severity : Severity) (message : String) : m Report := do
  Host.log severity message
  return report.warn

def makeParents (path : String) : m (Except Fault Unit) :=
  match Path.parent? path with
  | some parent => Host.makeDirectories parent
  | none => return .ok ()

/-- Counts a file that was written, or notes in the log why it was not. -/
def countWritten (report : Report) (path : String) (written : Except Fault Unit) : m Report :=
  match written with
  | .ok () => return report.wrote
  | .error fault => skip report .error s!"{path}: {fault.message}"

def writeFile (report : Report) (path : String) (content : String) : m Report := do
  match ← makeParents path with
  | .ok () => countWritten report path (← Host.write path content.toUTF8)
  | .error fault => countWritten report path (.error fault)

def backUp (settings : RunSettings) (path : String) : m (Except Fault Unit) :=
  if settings.backups then Host.copy path (path ++ ".bak") else return .ok ()

/-- Writes a file over itself, unless nothing changes. -/
def writeInPlace (settings : RunSettings) (report : Report) (path : String)
    (before after : String) :
    m Report := do
  if after = before then return report
  match ← backUp settings path with
  | .ok () => writeFile report path after
  | .error fault => skip report .error s!"{path}: backup failed: {fault.message}"

/-- Writes the result for a file to where results go. -/
def deliver (settings : RunSettings) (set : FileSet) (target : Target) (report : Report)
    (names : List String) (before after : String) : m (Target × Report) := do
  match target with
  | .inPlace => return (.inPlace, ← writeInPlace settings report (set.path names) before after)
  | .directory path =>
      return (.directory path, ← writeFile report (Path.join path ("/".intercalate names)) after)
  | .combined output =>
      match ← output.putBatch after with
      | (output, .ok ()) => return (.combined output, report.wrote)
      | (output, .error fault) =>
          return (.combined output,
            ← skip report .error s!"Writing combined output failed: {fault.message}")

def formatFile (style : Style) (settings : RunSettings) (set : FileSet) (target : Target)
    (report : Report) (names : List String) : m (Target × Report) := do
  let path := set.path names
  match ← readText path with
  | .error fault => return (target, ← skip report .error s!"{path}: {fault.message}")
  | .ok content =>
      if content.isEmpty then return (target, report)
      match ← formatLogged style content with
      | .error error => return (target, ← skip report .error s!"{path}: {error.message}")
      | .ok result =>
          if result.parseError && !settings.allowParsingErrors then
            return (target,
              ← skip report .warning s!"{path}: errors encountered while parsing, file skipped")
          deliver settings set target report names content result.text

def formatAll (style : Style) (settings : RunSettings) (set : FileSet) (target : Target)
    (report : Report) : List (List String) → m (Target × Report)
  | [] => return (target, report)
  | names :: rest => do
      let (target, report) ← formatFile style settings set target report names
      formatAll style settings set target report rest

def dumpAll (set : FileSet) (report : Report) : List (List String) → m (Except RunError Report)
  | [] => return .ok report
  | names :: rest => do
      let path := set.path names
      match ← readText path with
      | .error fault => dumpAll set (← skip report .error s!"{path}: {fault.message}") rest
      | .ok content =>
          match ← dumpScript content with
          | .error error => return .error error
          | .ok () => dumpAll set report rest

/-- Prepares the place where results go. -/
def openTarget (settings : RunSettings) : m (Except RunError Target) := do
  match settings.output with
  | none => return .ok .inPlace
  | some output =>
      if ← Host.isDirectory output then return .ok (.directory output)
      match ← Host.write output .empty with
      | .ok () => return .ok (.combined { path := output })
      | .error fault => return .error (.outputCreate output fault)

def Target.finish : Target → m (Except Fault Unit)
  | .combined output => return (← output.flush).2
  | _ => return .ok ()

/-- Formats the selected files and notes the counts in the log. -/
def formatSet (style : Style) (settings : RunSettings) (set : FileSet) :
    m (Except RunError Report) := do
  match ← openTarget settings with
  | .error error => return .error error
  | .ok target =>
      let found : Report := { filesFound := set.files.length }
      let (target, report) ← formatAll style settings set target found set.files
      match ← target.finish with
      | .error fault => return .error (.transfer fault)
      | .ok () =>
          Host.log .info s!"Formatted {report.filesWritten} of {report.filesFound} files"
          return .ok report

def runFiles (style : Style) (settings : RunSettings) (input : String) :
    m (Except RunError Report) := do
  match ← findFiles input settings.extensions settings.recursive with
  | .error error => return .error error
  | .ok set =>
      if set.files.isEmpty then return .error (.noFilesFound input)
      if settings.dumpTree then dumpAll set { filesFound := set.files.length } set.files
      else formatSet style settings set

/-- Formats a text, and writes the result to the output file or prints it. -/
def runText (style : Style) (settings : RunSettings) (script : String) :
    m (Except RunError Report) := do
  if settings.dumpTree then
    return (← dumpScript script).map fun _ => {}
  match ← formatLogged style script with
  | .error error => return .error (.format error)
  | .ok result =>
      if result.parseError && !settings.allowParsingErrors then
        return .ok (← skip {} .warning "Errors encountered while parsing STDIN, no output written")
      match settings.output with
      | none =>
          Host.print result.text
          return .ok {}
      | some path =>
          match ← Host.write path result.text.toUTF8 with
          | .ok () => return .ok (Report.wrote {})
          | .error fault => return .error (.outputCreate path fault)

end

end SqlLayout
