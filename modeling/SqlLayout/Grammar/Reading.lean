import SqlLayout.Builder.Comments
import SqlLayout.Keyword.Phrase

/-!
# Reading tokens into a tree

A rule of the grammar sees the token in hand with the tokens around it, changes the tree under
construction, and says how many of the following tokens it has used as well.
-/

namespace SqlLayout

/-- A token with its surroundings. -/
structure Reading where
  /-- The token before the one in hand. -/
  previous : Option Token
  /-- The token in hand. -/
  token : Token
  /-- The tokens after it. -/
  rest : List Token
  /-- The significant words from the token in hand on. -/
  phrase : Phrase

/-- The outcome of a rule: the tree so far, and how many tokens beyond the one in hand were used. -/
abbrev Step := Except TreeError (Builder × Nat)

namespace Step

/-- Only the token in hand was used. -/
def done (result : Except TreeError Builder) : Step :=
  result.map fun builder => (builder, 0)

end Step

def TokenKind.leafKind : TokenKind → NodeKind
  | whiteSpace => .whiteSpace
  | lineComment => .lineComment
  | slashComment => .slashComment
  | blockComment => .blockComment
  | string => .string
  | nationalString => .nationalString
  | quotedString => .quotedString
  | bracketName => .bracketName
  | comma => .comma
  | period => .period
  | semicolon => .semicolon
  | asterisk => .asterisk
  | equalsSign => .equalsSign
  | otherOperator => .otherOperator
  | number => .number
  | binaryValue => .binaryValue
  | monetaryValue => .monetaryValue
  | pseudoName => .pseudoName
  | word | openParens | closeParens | colon => .other

def wordKind (word : String) : NodeKind :=
  match Keyword.class? (Text.upper word) with
  | some .operator => .alphaOperator
  | some .function => .functionKeyword
  | some .dataType => .dataTypeKeyword
  | some .other => .otherKeyword
  | none => .other

namespace Builder

/-- Tokens become leaves of a container; words become keywords. -/
def saveTokens (builder : Builder) (parent : NodeId) : List Token → Builder
  | [] => builder
  | token :: rest =>
      let kind := if token.kind = .word then .otherKeyword else token.kind.leafKind
      (builder.saveLeafIn parent kind token.value).saveTokens parent rest

end Builder

namespace Reading

def value (reading : Reading) : String :=
  reading.token.value

def word (reading : Reading) : String :=
  reading.phrase.word 0

/-- The token in hand and the `last` tokens after it, less the first `used` of them. -/
def tokens (reading : Reading) (used last : Nat) : List Token :=
  ((reading.token :: reading.rest).take (last + 1)).drop used

/-- The kind of the next token that is neither a blank nor a comment. -/
def nextSignificant? (reading : Reading) : Option TokenKind :=
  (reading.rest.find? fun token => !token.kind.isTrivia).map Token.kind

/-- The token in hand becomes a keyword of the cursor's container. -/
def saveWord (reading : Reading) (builder : Builder) : Builder :=
  builder.saveLeaf .otherKeyword reading.value

/-- The token in hand becomes a keyword of the cursor's container, and nothing else is used. -/
def keyword (reading : Reading) (builder : Builder) : Step :=
  .ok (reading.saveWord builder, 0)

/-- The token in hand becomes a leaf of the kind that its word has. -/
def saveTyped (reading : Reading) (builder : Builder) : Builder :=
  builder.saveLeaf (wordKind reading.value) reading.value

/-- The first `count` words of the phrase become one keyword of a container. One word is a plain
keyword; several are a compound that holds every token from the first to the last of them. -/
def saveKeyword (reading : Reading) (builder : Builder) (parent : NodeId) (count : Nat) :
    Builder × Nat :=
  match if 1 < count then reading.phrase.lastPlace? count else none with
  | none => (builder.saveLeafIn parent .otherKeyword reading.value, 0)
  | some last =>
      let (builder, compound) := builder.saveIn parent .compoundKeyword ""
      let builder := builder.setAttribute compound .simpleText (reading.phrase.joined count)
      (builder.saveTokens compound (reading.tokens 0 last), last)

/-- A container that opens with the token in hand, with the cursor inside its body. -/
def enter (reading : Reading) (builder : Builder) (kind body : NodeKind) :
    Except TreeError Builder :=
  builder.enterContainer kind reading.value body

end Reading

end SqlLayout
