import SqlLayout.Text.Alphabetic
import SqlLayout.Text.Blank
import SqlLayout.Token.Basic

/-!
# Cutting a script into tokens

`Scan.first` reads one token from the front of a text, and `TokenList.ofText` repeats it. Reading
never fails: a quotation or a block comment that is not closed runs to the end of the text and marks
the list as unfinished.

The loop ends because each token covers at least one character (`Scan.first_rest_lt`).
-/

namespace SqlLayout

open Text

/-- One token read from the front of a text, and the text after it. -/
structure Scan where
  kind : TokenKind
  value : List Char
  /-- The characters that the token covers. -/
  lexeme : List Char
  rest : List Char
  /-- The closing delimiter was found, if the token needs one. -/
  closed : Bool := true

namespace Scan

def isWordChar (c : Char) : Bool :=
  isAlphanumeric c || c == '_' || c == '@' || c == '#' || c == '$'

def isWordStart (c : Char) : Bool :=
  isAlphabetic c || c == '_' || c == '@' || c == '#'

def isOperatorChar (c : Char) : Bool :=
  ['+', '-', '*', '/', '%', '&', '|', '^', '~', '<', '>', '!'].contains c

/-- A sign that opens a monetary value. -/
def isCurrencySign (c : Char) : Bool :=
  c == '$' || c == '£' || c == '€' || c == '¥'

/-- Whether the first character of a text satisfies a property. -/
def headIs (property : Char → Bool) : List Char → Bool
  | [] => false
  | c :: _ => property c

/-- A token whose value is the text it covers. -/
def raw (kind : TokenKind) (lexeme rest : List Char) : Scan :=
  { kind, value := lexeme, lexeme, rest }

/-- The token made of `opening` and the characters after it that satisfy a property. -/
def run (kind : TokenKind) (opening : List Char) (property : Char → Bool) (text : List Char) :
    Scan :=
  raw kind (opening ++ text.takeWhile property) (text.dropWhile property)

/-- The front of a text up to and including its first line break, and what follows. A carriage
return and a line feed together are one line break. -/
def splitLine : List Char → List Char × List Char
  | [] => ([], [])
  | '\n' :: rest => (['\n'], rest)
  | '\r' :: '\n' :: rest => (['\r', '\n'], rest)
  | '\r' :: rest => (['\r'], rest)
  | c :: rest =>
      let (line, after) := splitLine rest
      (c :: line, after)

/-- The body of a block comment that is `depth` comments deep, and the text after its closing
delimiter, if there is one. -/
def splitBlock (depth : Nat) : List Char → List Char × Option (List Char)
  | [] => ([], none)
  | '/' :: '*' :: rest =>
      let (body, after) := splitBlock (depth + 1) rest
      ('/' :: '*' :: body, after)
  | '*' :: '/' :: rest =>
      match depth with
      | 0 => ([], some rest)
      | outer + 1 =>
          let (body, after) := splitBlock outer rest
          ('*' :: '/' :: body, after)
  | c :: rest =>
      let (body, after) := splitBlock depth rest
      (c :: body, after)

/-- The value of a quotation, the characters of its body, and the text after its closing delimiter,
if there is one. A doubled delimiter stands for one. -/
def splitQuoted (close : Char) : List Char → List Char × List Char × Option (List Char)
  | [] => ([], [], none)
  | [c] => if c = close then ([], [], some []) else ([c], [c], none)
  | c :: next :: rest =>
      if c = close then
        if next = close then
          let (value, body, after) := splitQuoted close rest
          (close :: value, close :: close :: body, after)
        else ([], [], some (next :: rest))
      else
        let (value, body, after) := splitQuoted close (next :: rest)
        (c :: value, c :: body, after)

/-- A comment that runs to the end of its line; `text` follows the two opening characters. -/
def line (kind : TokenKind) (opening text : List Char) : Scan :=
  let (body, rest) := splitLine text
  { kind, value := body, lexeme := opening ++ body, rest }

/-- A block comment; `text` follows the opening delimiter. -/
def block (text : List Char) : Scan :=
  match splitBlock 0 text with
  | (body, some rest) =>
      { kind := .blockComment, value := body, lexeme := '/' :: '*' :: body ++ ['*', '/'], rest }
  | (body, none) =>
      { kind := .blockComment, value := body, lexeme := '/' :: '*' :: body, rest := [],
        closed := false }

def quoted (kind : TokenKind) (opening : List Char) (close : Char) (text : List Char) : Scan :=
  match splitQuoted close text with
  | (value, body, some rest) => { kind, value, lexeme := opening ++ body ++ [close], rest }
  | (value, body, none) => { kind, value, lexeme := opening ++ body, rest := [], closed := false }

/-- The decimal point and the digits after it, if a text starts with a point. -/
def splitFraction : List Char → List Char × List Char
  | '.' :: rest => ('.' :: rest.takeWhile isDigit, rest.dropWhile isDigit)
  | text => ([], text)

/-- The exponent at the front of a text: a mark, an optional sign, and at least one digit. -/
def splitExponent : List Char → List Char × List Char
  | mark :: sign :: rest =>
      if (mark == 'e' || mark == 'E') && isDigit sign then
        (mark :: (sign :: rest).takeWhile isDigit, (sign :: rest).dropWhile isDigit)
      else if (mark == 'e' || mark == 'E') && (sign == '+' || sign == '-') &&
          headIs isDigit rest then
        (mark :: sign :: rest.takeWhile isDigit, rest.dropWhile isDigit)
      else ([], mark :: sign :: rest)
  | text => ([], text)

/-- A number: digits, then a fraction, then an exponent. -/
def number (text : List Char) : Scan :=
  let whole := text.takeWhile isDigit
  let (fraction, afterFraction) := splitFraction (text.dropWhile isDigit)
  let (exponent, rest) := splitExponent afterFraction
  raw .number (whole ++ fraction ++ exponent) rest

/-- Whether an operator that starts with `first` takes `second` as its second character. -/
def combines (first second : Char) : Bool :=
  match first with
  | '+' | '-' | '/' | '%' | '&' | '|' | '^' | '*' => second == '='
  | '<' => second == '=' || second == '>'
  | '>' => second == '='
  | '!' => second == '=' || second == '<' || second == '>'
  | _ => false

def operator (first : Char) : List Char → Scan
  | [] => raw .otherOperator [first] []
  | second :: rest =>
      if combines first second then raw .otherOperator [first, second] rest
      else raw .otherOperator [first] (second :: rest)

/-- The class of a punctuation mark that is a token on its own. -/
def punctuation? : Char → Option TokenKind
  | '(' => some .openParens
  | ')' => some .closeParens
  | ',' => some .comma
  | '.' => some .period
  | ';' => some .semicolon
  | ':' => some .colon
  | '=' => some .equalsSign
  | _ => none

/-- A punctuation mark, an operator, or a stray character. -/
def symbol (c : Char) (rest : List Char) : Scan :=
  match punctuation? c with
  | some kind => raw kind [c] rest
  | none =>
      if c = '*' ∧ ¬headIs (· == '=') rest then raw .asterisk [c] rest
      else if isOperatorChar c then operator c rest
      else raw .word [c] rest

/-- The token at the front of the text `c :: rest`. -/
def first (c : Char) (rest : List Char) : Scan :=
  if isBlank c then run .whiteSpace [c] isBlank rest
  else match c, rest with
  | '-', '-' :: body => line .lineComment ['-', '-'] body
  | '/', '/' :: body => line .slashComment ['/', '/'] body
  | '/', '*' :: body => block body
  | '\'', body => quoted .string ['\''] '\'' body
  | 'N', '\'' :: body => quoted .nationalString ['N', '\''] '\'' body
  | 'n', '\'' :: body => quoted .nationalString ['n', '\''] '\'' body
  | '"', body => quoted .quotedString ['"'] '"' body
  | '[', body => quoted .bracketName ['['] ']' body
  | '0', 'x' :: digits => run .binaryValue ['0', 'x'] isHexDigit digits
  | '0', 'X' :: digits => run .binaryValue ['0', 'X'] isHexDigit digits
  | c, rest =>
      if isDigit c || (c == '.' && headIs isDigit rest) then number (c :: rest)
      else if c == '$' && headIs (fun next => isAlphabetic next || next == '_') rest then
        run .pseudoName [c] isWordChar rest
      else if isCurrencySign c && headIs (fun next => isDigit next || next == '.') rest then
        run .monetaryValue [c] (fun next => isDigit next || next == '.') rest
      else if isWordStart c then run .word [c] isWordChar rest
      else symbol c rest

theorem splitLine_append (text : List Char) : (splitLine text).1 ++ (splitLine text).2 = text := by
  fun_induction splitLine text with
  | case1 | case2 | case3 | case4 => rfl
  | case5 c rest _ _ _ line after split ih =>
    rw [split] at ih
    exact congrArg (c :: ·) ih

/-- The body of a block comment, its closing delimiter and what follows are the text. -/
theorem append_splitBlock (depth : Nat) (text : List Char) :
    (splitBlock depth text).1 ++ (splitBlock depth text).2.elim [] ('*' :: '/' :: ·) = text := by
  fun_induction splitBlock depth text with
  | case1 | case3 => rfl
  | case2 depth rest body after split ih =>
    rw [split] at ih
    exact congrArg ('/' :: '*' :: ·) ih
  | case4 rest outer body after split ih =>
    rw [split] at ih
    exact congrArg ('*' :: '/' :: ·) ih
  | case5 depth c rest _ _ body after split ih =>
    rw [split] at ih
    exact congrArg (c :: ·) ih

theorem splitBlock_some {depth : Nat} {text body rest : List Char}
    (found : splitBlock depth text = (body, some rest)) : body ++ '*' :: '/' :: rest = text := by
  simpa [found] using append_splitBlock depth text

theorem splitBlock_none {depth : Nat} {text body : List Char}
    (found : splitBlock depth text = (body, none)) : body = text := by
  simpa [found] using append_splitBlock depth text

/-- The body of a quotation, its closing delimiter and what follows are the text. -/
theorem append_splitQuoted (close : Char) (text : List Char) :
    (splitQuoted close text).2.1 ++ (splitQuoted close text).2.2.elim [] (close :: ·) = text := by
  fun_induction splitQuoted close text with
  | case1 | case2 | case3 | case5 => rfl
  | case4 rest value body after split ih =>
    rw [split] at ih
    exact congrArg (close :: close :: ·) ih
  | case6 c next rest _ value body after split ih =>
    rw [split] at ih
    exact congrArg (c :: ·) ih

theorem splitQuoted_some {close : Char} {text value body rest : List Char}
    (found : splitQuoted close text = (value, body, some rest)) : body ++ close :: rest = text := by
  simpa [found] using append_splitQuoted close text

theorem splitQuoted_none {close : Char} {text value body : List Char}
    (found : splitQuoted close text = (value, body, none)) : body = text := by
  simpa [found] using append_splitQuoted close text

theorem splitFraction_append (text : List Char) :
    (splitFraction text).1 ++ (splitFraction text).2 = text := by
  fun_cases splitFraction text <;> simp [List.takeWhile_append_dropWhile]

theorem splitExponent_append (text : List Char) :
    (splitExponent text).1 ++ (splitExponent text).2 = text := by
  fun_cases splitExponent text <;> simp [List.takeWhile_append_dropWhile]

/-- A scan of `text`: the token covers the front of the text and the rest follows it. -/
def Covers (scan : Scan) (text : List Char) : Prop :=
  scan.lexeme ++ scan.rest = text

theorem covers_run (kind : TokenKind) (opening : List Char) (property : Char → Bool)
    (text : List Char) : (run kind opening property text).Covers (opening ++ text) := by
  simp [Covers, run, raw, List.takeWhile_append_dropWhile]

theorem covers_line (kind : TokenKind) (opening text : List Char) :
    (line kind opening text).Covers (opening ++ text) := by
  simp [Covers, line, splitLine_append]

theorem covers_block (text : List Char) : (block text).Covers ('/' :: '*' :: text) := by
  unfold block
  split
  next body rest found => simp [Covers, ← splitBlock_some found]
  next body found => simp [Covers, splitBlock_none found]

theorem covers_quoted (kind : TokenKind) (opening : List Char) (close : Char) (text : List Char) :
    (quoted kind opening close text).Covers (opening ++ text) := by
  unfold quoted
  split
  next value body rest found => simp [Covers, ← splitQuoted_some found]
  next value body found => simp [Covers, splitQuoted_none found]

theorem covers_number (text : List Char) : (number text).Covers text := by
  simp [Covers, number, raw, splitExponent_append, splitFraction_append,
    List.takeWhile_append_dropWhile]

theorem covers_operator (c : Char) (rest : List Char) : (operator c rest).Covers (c :: rest) := by
  fun_cases operator c rest <;> simp [Covers, raw]

theorem covers_symbol (c : Char) (rest : List Char) : (symbol c rest).Covers (c :: rest) := by
  unfold symbol
  split
  · simp [Covers, raw]
  · split
    · simp [Covers, raw]
    · split
      · exact covers_operator c rest
      · simp [Covers, raw]

/-- The first token covers the front of the text. -/
theorem covers_first (c : Char) (rest : List Char) : (first c rest).Covers (c :: rest) := by
  unfold first
  split
  · exact covers_run ..
  · split
    · exact covers_line ..
    · exact covers_line ..
    · exact covers_block ..
    · exact covers_quoted ..
    · exact covers_quoted ..
    · exact covers_quoted ..
    · exact covers_quoted ..
    · exact covers_quoted ..
    · exact covers_run ..
    · exact covers_run ..
    · split
      · exact covers_number ..
      · split
        · exact covers_run ..
        · split
          · exact covers_run ..
          · split
            · exact covers_run ..
            · exact covers_symbol ..

theorem number_lexeme_ne_nil {c : Char} {rest : List Char}
    (starts : (isDigit c || (c == '.' && headIs isDigit rest)) = true) :
    (number (c :: rest)).lexeme ≠ [] := by
  by_cases digit : isDigit c = true
  · simp [number, raw, digit]
  · have point : c = '.' := by simp_all
    subst point
    simp [number, raw, splitFraction, digit]

theorem symbol_lexeme_ne_nil (c : Char) (rest : List Char) : (symbol c rest).lexeme ≠ [] := by
  unfold symbol
  split
  · simp [raw]
  · split
    · simp [raw]
    · split
      · fun_cases operator c rest <;> simp [raw]
      · simp [raw]

theorem first_lexeme_ne_nil (c : Char) (rest : List Char) : (first c rest).lexeme ≠ [] := by
  unfold first
  split
  · simp [run, raw]
  · split
    · simp [line]
    · simp [line]
    · unfold block
      split <;> simp
    · unfold quoted
      split <;> simp
    · unfold quoted
      split <;> simp
    · unfold quoted
      split <;> simp
    · unfold quoted
      split <;> simp
    · unfold quoted
      split <;> simp
    · simp [run, raw]
    · simp [run, raw]
    · split
      next starts => exact number_lexeme_ne_nil starts
      · split
        · simp [run, raw]
        · split
          · simp [run, raw]
          · split
            · simp [run, raw]
            · exact symbol_lexeme_ne_nil _ _

theorem first_rest_lt (c : Char) (rest : List Char) :
    (first c rest).rest.length < (c :: rest).length := by
  have covered := congrArg List.length (covers_first c rest)
  have positive := List.length_pos_iff.mpr (first_lexeme_ne_nil c rest)
  rw [List.length_append] at covered
  omega

end Scan

def byteSize (text : List Char) : Nat :=
  text.foldl (fun size c => size + c.utf8Size) 0

namespace TokenList

/-- The tokens of a text that starts `offset` bytes into its script. -/
def scanFrom (offset : Nat) : List Char → TokenList
  | [] => { tokens := [], unfinished := false }
  | c :: rest =>
      let scan := Scan.first c rest
      let stop := offset + byteSize scan.lexeme
      let later := scanFrom stop scan.rest
      { tokens :=
          { kind := scan.kind, value := String.ofList scan.value,
            span := { start := offset, stop } } :: later.tokens
        unfinished := !scan.closed || later.unfinished }
termination_by text => text.length
decreasing_by exact Scan.first_rest_lt c rest

def ofText (script : String) : TokenList :=
  scanFrom 0 script.toList

end TokenList

end SqlLayout
