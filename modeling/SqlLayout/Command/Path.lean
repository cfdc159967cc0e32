/-!
# Paths

Paths are kept as they are written. Slashes divide them into parts; empty parts and single points
carry no meaning, except for a single point at the front.
-/

namespace SqlLayout.Path

/-- The last part of a path. -/
inductive Last where
  /-- A single point. -/
  | here
  /-- Two points. -/
  | up
  | name (text : String)
deriving DecidableEq, Repr, Inhabited

def cut : List Char → List (List Char)
  | [] => [[]]
  | c :: rest =>
      if c = '/' then [] :: cut rest
      else
        match cut rest with
        | [] => [[c]]
        | part :: others => (c :: part) :: others

def parts (path : String) : List String :=
  (cut path.toList).map String.ofList

/-- Drops the parts without meaning from the front of a reversed list of parts, but keeps the last
one. -/
def dropIdle : List String → List String
  | part :: next :: rest =>
      if part = "" || part = "." then dropIdle (next :: rest) else part :: next :: rest
  | parts => parts

/-- The path that a reversed list of parts writes. -/
def ofReversed : List String → String
  | [""] => "/"
  | parts => "/".intercalate parts.reverse

def lastOf (part : String) : Last :=
  if part = "." then .here else if part = ".." then .up else .name part

/-- The path without its last part, and that part. The empty path and the root have none. -/
def split? (path : String) : Option (String × Last) :=
  match dropIdle (parts path).reverse with
  | [] => none
  | [first] => if first = "" then none else some ("", lastOf first)
  | last :: rest => some (ofReversed (dropIdle rest), lastOf last)

/-- The path without its last part. -/
def parent? (path : String) : Option String :=
  (split? path).map Prod.fst

def fileName? (path : String) : Option String :=
  match split? path with
  | some (_, .name text) => some text
  | _ => none

/-- A name below a path. -/
def join (base name : String) : String :=
  if base.isEmpty || base.toList.getLast? = some '/' then base ++ name else base ++ "/" ++ name

/-- The part of a file name after its last point. A point at the front starts no extension. -/
def extension? (name : String) : Option String :=
  let chars := name.toList
  let after := (chars.reverse.takeWhile (· != '.')).reverse
  let before := chars.take (chars.length - after.length - 1)
  if name = ".." || after.length = chars.length || before.isEmpty then none
  else some (String.ofList after)

end SqlLayout.Path
