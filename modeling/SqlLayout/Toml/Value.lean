/-!
# TOML values

The values of the TOML configuration format, and the tables that a document builds up from keys and
headers. A table remembers how it came about, because that decides what may still be added to it.
-/

namespace SqlLayout.Toml

/-- How a table came about. -/
inductive Origin where
  /-- It lies on the way to a table that a header names. -/
  | implied
  /-- It lies on the way to a dotted key. -/
  | dotted
  /-- A header names it. -/
  | header
  /-- It was written in braces, and is complete. -/
  | inline
deriving DecidableEq, Repr, Inhabited

/-- A value of a document. Floating-point numbers and dates keep their spelling. -/
inductive Value where
  | string (text : String)
  | integer (value : Int)
  | boolean (value : Bool)
  | float (text : String)
  | moment (text : String)
  | array (items : List Value)
  | table (origin : Origin) (fields : List (String × Value))
  /-- The tables that repeated headers of one name add up to. -/
  | tables (elements : List (List (String × Value)))
deriving Repr, Inhabited

/-- The fields of a table, in the order of their first mention. -/
abbrev Table := List (String × Value)

namespace Table

def get? (table : Table) (key : String) : Option Value :=
  table.lookup key

def replace (table : Table) (key : String) (value : Value) : Table :=
  table.map fun field => if field.1 = key then (key, value) else field

def add? (table : Table) (key : String) (value : Value) : Option Table :=
  match table.get? key with
  | some _ => none
  | none => some (table ++ [(key, value)])

/-- Whether a path that leaves tables of one origin behind may lead through a table of another
one. -/
def mayEnter (path known : Origin) : Bool :=
  match path, known with
  | _, .inline => false
  | .dotted, .header => false
  | _, _ => true

/-- Changes the table at the end of a path, and creates the tables on the way that are missing. -/
def modifyAt? (path : Origin) (change : Table → Option Table) : List String → Table → Option Table
  | [], table => change table
  | key :: rest, table =>
      match table.get? key with
      | none =>
          (modifyAt? path change rest []).map fun inner => table ++ [(key, .table path inner)]
      | some (.table known inner) =>
          if mayEnter path known then
            (modifyAt? path change rest inner).map fun inner =>
              table.replace key (.table known inner)
          else none
      | some (.tables elements) =>
          if path = .dotted then none
          else
            match elements.getLast? with
            | none => none
            | some last =>
                (modifyAt? path change rest last).map fun last =>
                  table.replace key (.tables (elements.dropLast ++ [last]))
      | some _ => none

def addDotted? (table : Table) (key : List String) (value : Value) : Option Table :=
  match key.getLast? with
  | none => none
  | some last => modifyAt? .dotted (fun inner => inner.add? last value) key.dropLast table

def addHeader? (table : Table) (key : List String) : Option Table :=
  match key.getLast? with
  | none => none
  | some last =>
      modifyAt? .implied
        (fun inner =>
          match inner.get? last with
          | none => some (inner ++ [(last, .table .header [])])
          | some (.table .implied fields) => some (inner.replace last (.table .header fields))
          | some _ => none)
        key.dropLast table

def addElement? (table : Table) (key : List String) : Option Table :=
  match key.getLast? with
  | none => none
  | some last =>
      modifyAt? .implied
        (fun inner =>
          match inner.get? last with
          | none => some (inner ++ [(last, .tables [[]])])
          | some (.tables elements) => some (inner.replace last (.tables (elements ++ [[]])))
          | some _ => none)
        key.dropLast table

end Table

end SqlLayout.Toml
