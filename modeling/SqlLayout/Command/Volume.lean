import SqlLayout.Command.Host
import SqlLayout.Command.Path

/-!
# Volumes

A volume is a file system in memory: directories and files at locations below a root, and a working
directory. A path that starts with a slash leads from the root, any other one from the working
directory.
-/

namespace SqlLayout

/-- The names that lead from the root to a place. -/
abbrev Location := List String

inductive Item where
  | directory
  | file (content : ByteArray)
deriving Inhabited

/-- Files are compared by their bytes. -/
instance : DecidableEq Item
  | .directory, .directory => isTrue rfl
  | .file one, .file other =>
      decidable_of_decidable_of_iff (p := one.data = other.data) (by simp [ByteArray.ext_iff])
  | .directory, .file _ => isFalse nofun
  | .file _, .directory => isFalse nofun

/-- A file system in memory. The root is always a directory. -/
structure Volume where
  items : List (Location × Item) := []
  /-- The working directory. -/
  home : Location := []
deriving DecidableEq, Inhabited

namespace Volume

def find? (volume : Volume) (location : Location) : Option Item :=
  if location.isEmpty then some .directory else volume.items.lookup location

def put (volume : Volume) (location : Location) (item : Item) : Volume :=
  { volume with items := (location, item) :: volume.items.filter fun entry => entry.1 != location }

/-- A put item is found at its location, and nothing else changes. -/
theorem find?_put (volume : Volume) {location : Location} (inside : location ≠ []) (item : Item)
    (other : Location) :
    (volume.put location item).find? other =
      if other = location then some item else volume.find? other := by
  have lookup_filter : other ≠ location → ∀ items : List (Location × Item),
      (items.filter fun entry => entry.1 != location).lookup other = items.lookup other := by
    intro differs items
    induction items with
    | nil => rfl
    | cons entry rest ih =>
        obtain ⟨place, held⟩ := entry
        by_cases kept : place = location
        · have missed : (other == location) = false := by simpa using differs
          simp [kept, ih, List.lookup_cons, missed]
        · simp [kept, List.lookup_cons, ih]
  by_cases same : other = location
  · subst same
    simp [find?, put, inside]
  · have missed : (other == location) = false := by simpa using same
    simp [find?, put, same, List.lookup_cons, missed, lookup_filter same]

/-! ### Locations of paths -/

/-- The directory that a part of a path leads to. -/
def enter (volume : Volume) (location : Location) (part : String) : Except Fault Location :=
  if part = "" || part = "." then .ok location
  else if part = ".." then .ok location.dropLast
  else
    match volume.find? (location ++ [part]) with
    | some .directory => .ok (location ++ [part])
    | some (.file _) => .error .notDirectory
    | none => .error .notFound

/-- The directory that the parts of a path lead to. -/
def walk (volume : Volume) (location : Location) : List String → Except Fault Location
  | [] => .ok location
  | part :: rest =>
      match volume.enter location part with
      | .ok location => volume.walk location rest
      | .error fault => .error fault

/-- Where a path starts: at the root if a slash is its first character, or else in the working
directory, which may be gone. The empty path names nothing. -/
def start (volume : Volume) (path : String) : Except Fault Location :=
  if path.toList.contains '\x00' then .error .nulInPath
  else if path.isEmpty then .error .notFound
  else if path.toList.head? = some '/' then .ok []
  else if volume.find? volume.home = some .directory then .ok volume.home
  else .error .notFound

/-- Whether a part of a path names something in the directory before it. -/
def isName (part : String) : Bool :=
  part != "" && part != "." && part != ".."

def locate (volume : Volume) (path : String) : Except Fault Location := do
  let start ← volume.start path
  let parts := Path.parts path
  match parts.getLast? with
  | none => .error .notFound
  | some last =>
      if isName last then return (← volume.walk start parts.dropLast) ++ [last]
      else volume.walk start parts

def get (volume : Volume) (path : String) : Except Fault Item := do
  match volume.find? (← volume.locate path) with
  | some item => return item
  | none => .error .notFound

/-- The directory and the name in it under which a path creates something. Slashes at the end do not
count; `whenIdle` is the fault if the path is the root or ends in points. -/
def locateNew (volume : Volume) (path : String) (whenIdle : Fault) : Except Fault Location := do
  let start ← volume.start path
  let parts := ((Path.parts path).reverse.dropWhile (· == "")).reverse
  match parts.getLast? with
  | none => .error whenIdle
  | some last =>
      if isName last then return (← volume.walk start parts.dropLast) ++ [last]
      else
        let _ ← volume.walk start parts
        .error whenIdle

/-! ### Operations -/

def isDirectory (volume : Volume) (path : String) : Bool :=
  match volume.get path with
  | .ok .directory => true
  | _ => false

def read (volume : Volume) (path : String) : Except Fault ByteArray := do
  match ← volume.get path with
  | .file content => return content
  | .directory => .error .isDirectory

/-- The location where a file is to be written. -/
def locateFile (volume : Volume) (path : String) : Except Fault Location := do
  let location ← volume.locateNew path .isDirectory
  if path.toList.getLast? = some '/' then .error .isDirectory
  else if volume.find? location = some .directory then .error .isDirectory
  else return location

def write (volume : Volume) (path : String) (content : ByteArray) : Except Fault Volume := do
  return volume.put (← volume.locateFile path) (.file content)

def append (volume : Volume) (path : String) (content : ByteArray) : Except Fault Volume := do
  let before ← volume.read path
  volume.write path (before ++ content)

def copy (volume : Volume) (source destination : String) : Except Fault Volume := do
  volume.write destination (← volume.read source)

def makeDirectory (volume : Volume) (path : String) : Except Fault Volume := do
  let location ← volume.locateNew path .alreadyExists
  match volume.find? location with
  | some _ => .error .alreadyExists
  | none => return volume.put location .directory

/-- Creates a directory with those on the way to it, at most `bound` of them. -/
def makeDirectoriesWithin (volume : Volume) : Nat → String → Except Fault Volume
  | 0, _ => .error .notFound
  | bound + 1, path =>
      if path.isEmpty then .ok volume
      else
        match volume.makeDirectory path with
        | .ok volume => .ok volume
        | .error .notFound =>
            match Path.parent? path with
            | none => .error .notFound
            | some parent =>
                match volume.makeDirectoriesWithin bound parent with
                | .ok volume => volume.makeDirectory path
                | .error fault => .error fault
        | .error fault => if volume.isDirectory path then .ok volume else .error fault

/-- Creates a directory with those on the way to it. A path has no more parts than characters. -/
def makeDirectories (volume : Volume) (path : String) : Except Fault Volume :=
  volume.makeDirectoriesWithin (path.length + 1) path

/-- What lies directly in a directory, or anywhere below it. -/
def entriesBelow (volume : Volume) (path : String) (recursive : Bool) : List Entry :=
  match volume.locate path with
  | .error _ => []
  | .ok base =>
      volume.items.filterMap fun (location, item) =>
        let names := location.drop base.length
        if base.isPrefixOf location && !names.isEmpty && (recursive || names.length == 1) then
          some { names, isFile := item != .directory }
        else none

/-- The files of a volume under their paths, in the order of the paths. -/
def files (volume : Volume) : List (String × ByteArray) :=
  (volume.items.filterMap fun (location, item) =>
    match item with
    | .file content => some ("/".intercalate location, content)
    | .directory => none).mergeSort fun left right => !decide (right.1 < left.1)

end Volume

end SqlLayout
