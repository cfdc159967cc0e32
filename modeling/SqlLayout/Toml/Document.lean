import SqlLayout.Toml.Scalar

/-!
# TOML documents

A document is a sequence of lines: fields, headers, comments and blank lines. A header says which
table the fields after it belong to.
-/

namespace SqlLayout.Toml

def dropSpaces (text : List Char) : List Char :=
  text.dropWhile fun c => c == ' ' || c == '\t'

/-- Drops a comment at the front of a text, if there is one, to the end of its line. -/
def dropComment : List Char → List Char
  | '#' :: rest => rest.dropWhile isPlain
  | text => text

/-- The text after the end of the line, which must follow up to blanks and a comment. -/
def dropLineEnd? (text : List Char) : Option (List Char) :=
  match dropComment (dropSpaces text) with
  | [] => some []
  | '\n' :: rest => some rest
  | '\r' :: '\n' :: rest => some rest
  | _ => none

/-! ### Keys -/

/-- Whether a character may stand in a key without quotes. -/
def isBareKeyChar (c : Char) : Bool :=
  Text.isDigit c || ('a' ≤ c && c ≤ 'z') || ('A' ≤ c && c ≤ 'Z') || c == '_' || c == '-'

def readSimpleKey (text : List Char) : Option (String × List Char) :=
  match text with
  | '"' :: rest => (basicString rest).map fun (key, rest) => (String.ofList key, rest)
  | '\'' :: rest => (literalString rest).map fun (key, rest) => (String.ofList key, rest)
  | _ =>
      let key := text.takeWhile isBareKeyChar
      if key.isEmpty then none else some (String.ofList key, text.drop key.length)

/-- A key of at most `bound` parts that points divide. -/
def readKey : Nat → List Char → Option (List String × List Char)
  | 0, _ => none
  | bound + 1, text =>
      match readSimpleKey (dropSpaces text) with
      | none => none
      | some (key, rest) =>
          match dropSpaces rest with
          | '.' :: rest => (readKey bound rest).map fun (keys, rest) => (key :: keys, rest)
          | rest => some ([key], rest)

/-! ### Values -/

/-- Drops blanks, comments and line breaks at the front of a text, at most `bound` lines of them. -/
def dropLines : Nat → List Char → List Char
  | 0, text => text
  | bound + 1, text =>
      match dropComment (dropSpaces text) with
      | '\n' :: rest => dropLines bound rest
      | '\r' :: '\n' :: rest => dropLines bound rest
      | rest => rest

mutual

/-- A value at the front of a text, nested at most `bound` deep. -/
def readValue (bound : Nat) (text : List Char) : Option (Value × List Char) :=
  match bound with
  | 0 => none
  | bound + 1 =>
      match text with
      | '"' :: '"' :: '"' :: rest =>
          (basicBlock false (dropFirstBreak rest)).map fun (text, rest) =>
            (.string (String.ofList text), rest)
      | '"' :: rest =>
          (basicString rest).map fun (text, rest) => (.string (String.ofList text), rest)
      | '\'' :: '\'' :: '\'' :: rest =>
          (literalBlock (dropFirstBreak rest)).map fun (text, rest) =>
            (.string (String.ofList text), rest)
      | '\'' :: rest =>
          (literalString rest).map fun (text, rest) => (.string (String.ofList text), rest)
      | '[' :: rest => (readItems bound rest).map fun (items, rest) => (.array items, rest)
      | '\x7b' :: rest =>
          (readFields bound [] rest).map fun (fields, rest) => (.table .inline fields, rest)
      | _ => readScalar text

/-- The items of an array, after its opening bracket. -/
def readItems (bound : Nat) (text : List Char) : Option (List Value × List Char) :=
  match bound with
  | 0 => none
  | bound + 1 =>
      match dropLines text.length text with
      | ']' :: rest => some ([], rest)
      | text =>
          match readValue bound text with
          | none => none
          | some (item, rest) =>
              match dropLines rest.length rest with
              | ']' :: rest => some ([item], rest)
              | ',' :: rest => (readItems bound rest).map fun (items, rest) => (item :: items, rest)
              | _ => none

/-- The fields of a table in braces, after its opening brace, added to those before them. -/
def readFields (bound : Nat) (fields : Table) (text : List Char) : Option (Table × List Char) :=
  match bound with
  | 0 => none
  | bound + 1 =>
      match dropLines text.length text with
      | '\x7d' :: rest => some (fields, rest)
      | text =>
          match readKey text.length text with
          | some (key, '=' :: rest) =>
              match readValue bound (dropSpaces rest) with
              | none => none
              | some (value, rest) =>
                  match fields.addDotted? key value with
                  | none => none
                  | some fields =>
                      match dropLines rest.length rest with
                      | '\x7d' :: rest => some (fields, rest)
                      | ',' :: rest => readFields bound fields rest
                      | _ => none
          | _ => none

end

/-! ### Lines -/

/-- A header at the front of a text, after its opening bracket, up to its closing one. -/
def readHeader (text : List Char) : Option (List String × List Char) :=
  match readKey text.length text with
  | some (key, ']' :: rest) => some (key, rest)
  | _ => none

/-- Reads at most `bound` lines into a document; `current` is the table that the last header
names. -/
def readLines (document : Table) (current : List String) : Nat → List Char → Option Table
  | 0, text => if text.isEmpty then some document else none
  | bound + 1, text =>
      match dropSpaces text with
      | [] => some document
      | '[' :: '[' :: text => do
          let (key, rest) ← readHeader text
          match rest with
          | ']' :: rest =>
              let document ← document.addElement? key
              readLines document key bound (← dropLineEnd? rest)
          | _ => none
      | '[' :: text => do
          let (key, rest) ← readHeader text
          let document ← document.addHeader? key
          readLines document key bound (← dropLineEnd? rest)
      | c :: text =>
          if c = '#' || c = '\n' || c = '\r' then do
            readLines document current bound (← dropLineEnd? (c :: text))
          else do
            let (key, rest) ← readKey (c :: text).length (c :: text)
            match rest with
            | '=' :: rest =>
                let rest := dropSpaces rest
                let (value, rest) ← readValue (rest.length + 1) rest
                let document ←
                  Table.modifyAt? .implied (fun table => table.addDotted? key value)
                    current document
                readLines document current bound (← dropLineEnd? rest)
            | _ => none

/-- The root table of a document, or nothing if the text is no document. -/
def parse? (text : String) : Option Table :=
  let text :=
    match text.toList with
    | '\uFEFF' :: rest => rest
    | text => text
  readLines [] [] (text.length + 1) text

end SqlLayout.Toml
