import SqlLayout.Command.Volume

/-!
# Sessions

A session is a host in memory: it holds a volume and the input, and collects what is printed and
logged.
-/

namespace SqlLayout

/-- A host in memory. -/
structure Session where
  volume : Volume := {}
  input : ByteArray := .empty
  printed : String := ""
  logged : String := ""

namespace Session

def change (operation : Volume → Except Fault Volume) : StateM Session (Except Fault Unit) := do
  let session ← get
  match operation session.volume with
  | .ok volume =>
      set { session with volume }
      return .ok ()
  | .error fault => return .error fault

instance : Host (StateM Session) where
  isDirectory path := return (← get).volume.isDirectory path
  status path := return ((← get).volume.get path).map (· == .directory)
  entriesBelow path recursive := return (← get).volume.entriesBelow path recursive
  read path := return (← get).volume.read path
  write path content := change fun volume => volume.write path content
  append path content := change fun volume => volume.append path content
  copy source destination := change fun volume => volume.copy source destination
  makeDirectories path := change fun volume => volume.makeDirectories path
  readInput := return .ok (← get).input
  print text := modify fun session => { session with printed := session.printed ++ text }
  log severity message :=
    modify fun session =>
      { session with logged := session.logged ++ severity.mark ++ " " ++ message ++ "\n" }

end Session

end SqlLayout
