import SqlLayout.Text.Numeric

/-!
# Quoted TOML text

The four forms of strings. Every reader takes the text after the opening quotes and gives back the
string with the text after the closing ones.
-/

namespace SqlLayout.Toml

/-- Whether a character may stand in a string or a comment. Of the control characters only the tab
may. -/
def isPlain (c : Char) : Bool :=
  c == '\t' || (0x20 ≤ c.toNat && c.toNat != 0x7f)

def hexValue (c : Char) : Nat :=
  if c.toNat ≤ '9'.toNat then c.toNat - '0'.toNat
  else if c.toNat ≤ 'F'.toNat then c.toNat - 'A'.toNat + 10
  else c.toNat - 'a'.toNat + 10

/-- The character that hexadecimal digits name. -/
def charOfHex? (digits : List Char) : Option Char :=
  if digits.all Text.isHexDigit then
    let code := digits.foldl (fun value digit => value * 16 + hexValue digit) 0
    if h : code.isValidChar then some (Char.ofNatAux code h) else none
  else none

def escaped? : Char → Option Char
  | 'b' => some '\x08'
  | 't' => some '\t'
  | 'n' => some '\n'
  | 'f' => some '\x0c'
  | 'r' => some '\r'
  | 'e' => some '\x1b'
  | '"' => some '"'
  | '\\' => some '\\'
  | _ => none

def prepend (c : Char) (read : Option (List Char × List Char)) : Option (List Char × List Char) :=
  read.map fun (text, rest) => (c :: text, rest)

/-- Puts a character, if there is one, in front of a string that was read. -/
def prepend? (c : Option Char) (read : Option (List Char × List Char)) :
    Option (List Char × List Char) :=
  c.bind fun c => prepend c read

/-- Whether only blanks stand before the next line break. -/
def endsLineBlank : List Char → Bool
  | ' ' :: rest => endsLineBlank rest
  | '\t' :: rest => endsLineBlank rest
  | '\n' :: _ => true
  | '\r' :: '\n' :: _ => true
  | _ => false

def basicString : List Char → Option (List Char × List Char)
  | '"' :: rest => some ([], rest)
  | '\\' :: 'x' :: a :: b :: rest => prepend? (charOfHex? [a, b]) (basicString rest)
  | '\\' :: 'u' :: a :: b :: c :: d :: rest => prepend? (charOfHex? [a, b, c, d]) (basicString rest)
  | '\\' :: 'U' :: a :: b :: c :: d :: e :: f :: g :: h :: rest =>
      prepend? (charOfHex? [a, b, c, d, e, f, g, h]) (basicString rest)
  | '\\' :: c :: rest => prepend? (escaped? c) (basicString rest)
  | c :: rest => if isPlain c then prepend c (basicString rest) else none
  | [] => none

def literalString : List Char → Option (List Char × List Char)
  | '\'' :: rest => some ([], rest)
  | c :: rest => if isPlain c then prepend c (literalString rest) else none
  | [] => none

/-- The end of a string in triple quotes: up to two more quotes still belong to the string. -/
def closingQuotes (quote : Char) : List Char → Option (List Char × List Char)
  | a :: b :: c :: rest =>
      if a == quote && b == quote && c == quote then
        match rest with
        | d :: e :: after =>
            if d == quote && e == quote then some ([quote, quote], after)
            else if d == quote then some ([quote], e :: after)
            else some ([], rest)
        | [d] => if d == quote then some ([quote], []) else some ([], rest)
        | [] => some ([], [])
      else none
  | _ => none

/-- A string in triple double quotes; `skipping` after a backslash at the end of a line, which
removes the blanks and line breaks after it. -/
def basicBlock (skipping : Bool) : List Char → Option (List Char × List Char)
  | [] => none
  | c :: rest =>
      if skipping && (c == ' ' || c == '\t' || c == '\n') then basicBlock true rest
      else
        match closingQuotes '"' (c :: rest) with
        | some closed => some closed
        | none =>
            match c, rest with
            | '\\', 'x' :: a :: b :: rest => prepend? (charOfHex? [a, b]) (basicBlock false rest)
            | '\\', 'u' :: a :: b :: c :: d :: rest =>
                prepend? (charOfHex? [a, b, c, d]) (basicBlock false rest)
            | '\\', 'U' :: a :: b :: c :: d :: e :: f :: g :: h :: rest =>
                prepend? (charOfHex? [a, b, c, d, e, f, g, h]) (basicBlock false rest)
            | '\\', next :: after =>
                if endsLineBlank (next :: after) then basicBlock true (next :: after)
                else prepend? (escaped? next) (basicBlock false after)
            | '\r', '\n' :: after =>
                if skipping then basicBlock true after else prepend '\n' (basicBlock false after)
            | '\n', after => prepend '\n' (basicBlock false after)
            | c, after => if isPlain c then prepend c (basicBlock false after) else none

def literalBlock : List Char → Option (List Char × List Char)
  | [] => none
  | c :: rest =>
      match closingQuotes '\'' (c :: rest) with
      | some closed => some closed
      | none =>
          match c, rest with
          | '\r', '\n' :: after => prepend '\n' (literalBlock after)
          | '\n', after => prepend '\n' (literalBlock after)
          | c, after => if isPlain c then prepend c (literalBlock after) else none

/-- The text of a triple-quoted string without the line break that directly follows its quotes. -/
def dropFirstBreak : List Char → List Char
  | '\n' :: rest => rest
  | '\r' :: '\n' :: rest => rest
  | text => text

end SqlLayout.Toml
