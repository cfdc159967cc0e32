/-!
# Tokens

A token is a classified piece of a script together with the byte range it covers. Every byte of a
script belongs to exactly one token; blanks and comments are tokens too.
-/

namespace SqlLayout

/-- A byte range of a text, the end excluded. -/
structure Span where
  start : Nat
  stop : Nat
deriving DecidableEq, Repr, Inhabited

namespace Span

def length (span : Span) : Nat :=
  span.stop - span.start

def isEmpty (span : Span) : Bool :=
  span.start == span.stop

/-- The front of a text that fills a number of bytes, if a character boundary is there. -/
def takeBytes : Nat → List Char → Option (List Char)
  | 0, _ => some []
  | _ + 1, [] => none
  | count + 1, c :: rest =>
      if c.utf8Size ≤ count + 1 then
        (takeBytes (count + 1 - c.utf8Size) rest).map (c :: ·)
      else none
termination_by _ text => text.length

/-- The text after a number of bytes, if a character boundary is there. -/
def dropBytes : Nat → List Char → Option (List Char)
  | 0, text => some text
  | _ + 1, [] => none
  | count + 1, c :: rest =>
      if c.utf8Size ≤ count + 1 then dropBytes (count + 1 - c.utf8Size) rest else none
termination_by _ text => text.length

/-- The part of a text that a range covers. A range that is reversed, leaves the text or splits a
character covers nothing. -/
def slice (span : Span) (source : String) : String :=
  if span.start ≤ span.stop then
    match (dropBytes span.start source.toList).bind (takeBytes span.length) with
    | some covered => String.ofList covered
    | none => ""
  else ""

end Span

inductive TokenKind where
  /-- A run of blanks. -/
  | whiteSpace
  /-- A word: a keyword, a plain name, a variable or a temporary table. Also a stray character. -/
  | word
  /-- A comment after two dashes. Its value ends with the line break. -/
  | lineComment
  /-- A comment after two slashes. Its value ends with the line break. -/
  | slashComment
  /-- A block comment. Its value leaves the delimiters out. -/
  | blockComment
  | string
  | nationalString
  | quotedString
  | bracketName
  | openParens
  | closeParens
  | comma
  | period
  | semicolon
  | colon
  | asterisk
  | equalsSign
  /-- An operator that no other class names. -/
  | otherOperator
  | number
  | binaryValue
  | monetaryValue
  /-- A name after a dollar sign. -/
  | pseudoName
deriving DecidableEq, Repr, Inhabited

namespace TokenKind

def all : List TokenKind := [
  whiteSpace, word, lineComment, slashComment, blockComment, string, nationalString, quotedString,
  bracketName, openParens, closeParens, comma, period, semicolon, colon, asterisk, equalsSign,
  otherOperator, number, binaryValue, monetaryValue, pseudoName]

def isComment : TokenKind → Bool
  | lineComment | slashComment | blockComment => true
  | _ => false

def isTrivia (kind : TokenKind) : Bool :=
  kind == whiteSpace || kind.isComment

end TokenKind

/-- Whether a text contains a carriage return or a line feed. -/
def containsLineBreak (text : String) : Bool :=
  text.toList.any fun c => c == '\r' || c == '\n'

structure Token where
  kind : TokenKind
  /-- What the piece says: the body of a comment or quotation without its delimiters and with
  doubled delimiters read as one, and the raw text of every other token. -/
  value : String
  span : Span
deriving DecidableEq, Repr, Inhabited

namespace Token

/-- A token that ends its line: blanks with a line break, or a comment that runs to the line's
end. -/
def endsLine (token : Token) : Bool :=
  match token.kind with
  | .whiteSpace => containsLineBreak token.value
  | .lineComment | .slashComment => true
  | _ => false

end Token

/-- The tokens of one script in order. -/
structure TokenList where
  tokens : List Token
  /-- The last token was left open by the end of the script. -/
  unfinished : Bool
deriving DecidableEq, Repr, Inhabited

end SqlLayout
