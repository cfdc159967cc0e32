import SqlLayout.Command.Program

/-!
# The executable

The machine as a host, and the entry point.
-/

namespace SqlLayout

/-- The fault of a system error with a code. -/
def faultOfCode (code : UInt32) (details : String) : Fault :=
  if code = 2 then .notFound
  else if code = 17 then .alreadyExists
  else if code = 20 then .notDirectory
  else if code = 21 then .isDirectory
  else .other s!"{details} (os error {code})"

def faultOf : IO.Error → Fault
  | .noFileOrDirectory _ code details => faultOfCode code details
  | .alreadyExists _ code details => faultOfCode code details
  | .inappropriateType _ code details => faultOfCode code details
  | .permissionDenied _ code details => faultOfCode code details
  | .invalidArgument _ code details => faultOfCode code details
  | .otherError code details => faultOfCode code details
  | error => .other (toString error)

def attempt {α : Type} (action : IO α) : IO (Except Fault α) := do
  return (← action.toBaseIO).mapError faultOf

def statusOf (path : String) : IO (Except Fault Bool) := do
  if path.isEmpty then return .error .notFound
  let place := (← IO.currentDir) / path
  attempt do return (← place.metadata).type == .dir

/-- What lies in a directory that names lead to from a base, and below it if asked for. -/
partial def entriesFrom (base : String) (names : List String) (recursive : Bool) :
    IO (List Entry) := do
  let place := (← IO.currentDir) / names.foldl Path.join base
  match ← attempt place.readDir with
  | .error _ => return []
  | .ok entries =>
      let mut found := []
      for entry in entries do
        let inner := names ++ [entry.fileName]
        match ← attempt entry.path.symlinkMetadata with
        | .error _ => continue
        | .ok metadata =>
            found := found ++ [{ names := inner, isFile := metadata.type == .file }]
            if recursive && metadata.type == .dir then
              found := found ++ (← entriesFrom base inner recursive)
      return found

instance : Host IO where
  isDirectory path := return (← statusOf path).toOption == some true
  status path := statusOf path
  entriesBelow path recursive := entriesFrom path [] recursive
  read path := attempt (IO.FS.readBinFile path)
  write path content := attempt (IO.FS.writeBinFile path content)
  append path content := attempt (IO.FS.withFile path .append fun handle => handle.write content)
  copy source destination :=
    attempt do IO.FS.writeBinFile destination (← IO.FS.readBinFile source)
  makeDirectories path := attempt (if path.isEmpty then pure () else IO.FS.createDirAll path)
  readInput := attempt do (← IO.getStdin).readBinToEnd
  print text := IO.print text
  log severity message := IO.eprintln (severity.mark ++ " " ++ message)

end SqlLayout

/-- Runs the program on the words of the command line. -/
def main (words : List String) : IO UInt32 := do
  let code ← SqlLayout.runProgram words (← IO.getEnv "TSQLFMT_CONFIG")
  return UInt32.ofNat code
