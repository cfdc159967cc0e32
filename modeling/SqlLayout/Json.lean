/-!
# JSON text

The part of JSON that tree dumps need: strings, arrays and objects with their fields in order. The
compact form has no blanks; the indented form puts each member on a line of its own.
-/

namespace SqlLayout

/-- A JSON value without numbers, booleans and null. -/
inductive Json where
  | string (value : String)
  | array (elements : List Json)
  | object (fields : List (String × Json))
deriving Inhabited

namespace Json

def hexDigit (value : Nat) : Char :=
  if value < 10 then Char.ofNat ('0'.toNat + value) else Char.ofNat ('a'.toNat + (value - 10))

/-- A character inside a JSON string. Quotes, backslashes and the characters below the blank are
escaped, by a letter where there is one. -/
def escapeChar (c : Char) : List Char :=
  match c with
  | '"' => ['\\', '"']
  | '\\' => ['\\', '\\']
  | '\n' => ['\\', 'n']
  | '\r' => ['\\', 'r']
  | '\t' => ['\\', 't']
  | c =>
      if c.toNat = 8 then ['\\', 'b']
      else if c.toNat = 12 then ['\\', 'f']
      else if c.toNat < 32 then
        ['\\', 'u', '0', '0', hexDigit (c.toNat / 16), hexDigit (c.toNat % 16)]
      else [c]

/-- A text as a JSON string. -/
def quote (text : String) : String :=
  String.ofList ('"' :: text.toList.flatMap escapeChar ++ ['"'])

mutual

def compact : Json → String
  | string value => quote value
  | array elements => "[" ++ compactElements elements ++ "]"
  | object fields => "\x7b" ++ compactFields fields ++ "\x7d"

def compactElements : List Json → String
  | [] => ""
  | [last] => compact last
  | first :: second :: rest => compact first ++ "," ++ compactElements (second :: rest)

def compactFields : List (String × Json) → String
  | [] => ""
  | [(key, last)] => quote key ++ ":" ++ compact last
  | (key, first) :: second :: rest =>
      quote key ++ ":" ++ compact first ++ "," ++ compactFields (second :: rest)

end

/-- The blanks in front of a line that is `level` levels in. -/
def margin (level : Nat) : String :=
  String.ofList (List.replicate (2 * level) ' ')

mutual

/-- The indented form of a value whose first line is `level` levels in. -/
def indented (level : Nat) : Json → String
  | string value => quote value
  | array [] => "[]"
  | array (first :: rest) =>
      "[\n" ++ indentedElements (level + 1) (first :: rest) ++ "\n" ++ margin level ++ "]"
  | object [] => "\x7b\x7d"
  | object (first :: rest) =>
      "\x7b\n" ++ indentedFields (level + 1) (first :: rest) ++ "\n" ++ margin level ++ "\x7d"

def indentedElements (level : Nat) : List Json → String
  | [] => ""
  | [last] => margin level ++ indented level last
  | first :: second :: rest =>
      margin level ++ indented level first ++ ",\n" ++ indentedElements level (second :: rest)

def indentedFields (level : Nat) : List (String × Json) → String
  | [] => ""
  | [(key, last)] => margin level ++ quote key ++ ": " ++ indented level last
  | (key, first) :: second :: rest =>
      margin level ++ quote key ++ ": " ++ indented level first ++ ",\n" ++
        indentedFields level (second :: rest)

end

end Json

end SqlLayout
