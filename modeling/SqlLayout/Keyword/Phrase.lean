import SqlLayout.Keyword.Basic
import SqlLayout.Text.Case
import SqlLayout.Text.Letter
import SqlLayout.Text.Numeric
import SqlLayout.Token.Basic

/-!
# Phrases

A phrase is the run of significant words at the front of a token list: words, bracketed names and
commas, with the blanks and comments between them skipped. Keywords of several words are recognized
in it, either word by word or on its text, where each word is followed by one blank.
-/

namespace SqlLayout

open Text

/-- A significant word and its place, counted in tokens from the front. -/
structure PhraseWord where
  place : Nat
  /-- The word in upper case. -/
  text : String
deriving DecidableEq, Repr, Inhabited

/-- The significant words at the front of a token list. -/
structure Phrase where
  words : List PhraseWord
deriving DecidableEq, Repr, Inhabited

namespace Phrase

/-- The most words that a phrase looks at. -/
def maxLength : Nat := 7

/-- The part that a token plays in a phrase: a word, nothing, or the end. -/
inductive Part where
  | word (text : String)
  | skipped
  | ending

def partOf (token : Token) : Part :=
  match token.kind with
  | .word => .word (upper token.value)
  | .bracketName => .word ("[" ++ upper token.value ++ "]")
  | .comma => .word ","
  | kind => if kind.isTrivia then .skipped else .ending

/-- At most `bound` words of a token list whose first token has a given place. -/
def collect (place : Nat) : Nat → List Token → List PhraseWord
  | 0, _ => []
  | _ + 1, [] => []
  | bound + 1, token :: rest =>
      match partOf token with
      | .word text => { place, text } :: collect (place + 1) bound rest
      | .skipped => collect (place + 1) (bound + 1) rest
      | .ending => []

def ofTokens (tokens : List Token) : Phrase :=
  { words := collect 0 maxLength tokens }

/-- The word with an index; beyond the end the empty word. -/
def word (phrase : Phrase) (index : Nat) : String :=
  match phrase.words[index]? with
  | some word => word.text
  | none => ""

/-- The words, each followed by a blank. -/
def text (phrase : Phrase) : List Char :=
  phrase.words.flatMap fun word => word.text.toList ++ [' ']

def startsWith (phrase : Phrase) (sequence : List String) : Bool :=
  sequence.isPrefixOf (phrase.words.map PhraseWord.text)

/-- The first words of a phrase, separated by blanks. -/
def joined (phrase : Phrase) (count : Nat) : String :=
  " ".intercalate ((phrase.words.take count).map PhraseWord.text)

/-- The place of the last of the first `count` words. -/
def lastPlace? (phrase : Phrase) (count : Nat) : Option Nat :=
  match count with
  | 0 => none
  | last + 1 => phrase.words[last]?.map PhraseWord.place

/-- The number of words of the keyword of several words that a phrase begins with. -/
def compoundLength? (phrase : Phrase) : Option Nat :=
  (Keyword.compounds.find? phrase.startsWith).map List.length

/-! ### Patterns on the text of a phrase

A pattern takes a text and gives the number of words it matched with the text after them. -/

/-- The text after a word and the blank that follows it. -/
def dropWord? (word : String) (text : List Char) : Option (List Char) :=
  let opening := word.toList ++ [' ']
  if opening.isPrefixOf text then some (text.drop opening.length) else none

/-- The text after the first of several words that it starts with. -/
def dropOneOf? (words : List String) (text : List Char) : Option (List Char) :=
  words.findSome? fun word => dropWord? word text

/-- A word that may be missing. -/
def skipOneOf (words : List String) (matched : Nat × List Char) : Nat × List Char :=
  match dropOneOf? words matched.2 with
  | some rest => (matched.1 + 1, rest)
  | none => matched

/-- The number of words of the join keyword at the front of a phrase. -/
def joinLength? (phrase : Phrase) : Option Nat :=
  let side := skipOneOf ["RIGHT", "INNER", "LEFT", "CROSS", "FULL"] (0, phrase.text)
  let outer := skipOneOf ["OUTER"] side
  let hint := skipOneOf ["HASH", "LOOP", "MERGE", "REMOTE"] outer
  (dropOneOf? ["JOIN", "APPLY"] hint.2).map fun _ => hint.1 + 1

def isCursorNameChar (c : Char) : Bool :=
  isLetter c || isDigit c || c == '_' || c == '$' || c == '@' || c == '#'

/-- Whether a phrase declares a cursor: a name, at most two options, and the word `CURSOR`. -/
def declaresCursor (phrase : Phrase) : Bool :=
  match dropWord? "DECLARE" phrase.text with
  | none => false
  | some text =>
      match text.takeWhile isCursorNameChar, text.dropWhile isCursorNameChar with
      | _ :: _, ' ' :: rest =>
          let options := ["INSENSITIVE", "SCROLL"]
          let afterOptions := (skipOneOf options (skipOneOf options (0, rest))).2
          (dropWord? "CURSOR" afterOptions).isSome
      | _, _ => false

def triggerActions : List String := ["INSERT", "UPDATE", "DELETE"]

/-- A comma and a further trigger action, if they are there. -/
def skipFurtherAction (matched : Nat × List Char) : Nat × List Char :=
  match (dropWord? "," matched.2).bind (dropOneOf? triggerActions) with
  | some rest => (matched.1 + 2, rest)
  | none => matched

/-- The number of words of the trigger condition at the front of a phrase: when it fires, and up to
three actions between commas. -/
def triggerLength? (phrase : Phrase) : Option Nat :=
  let timing :=
    match dropOneOf? ["FOR", "AFTER"] phrase.text with
    | some rest => some (1, rest)
    | none => ((dropWord? "INSTEAD" phrase.text).bind (dropWord? "OF")).map fun rest => (2, rest)
  timing.bind fun (words, rest) =>
    (dropOneOf? triggerActions rest).map fun rest =>
      (skipFurtherAction (skipFurtherAction (words + 1, rest))).1

/-- Whether a phrase creates or alters an object with a body. -/
def isProceduralDefinition (phrase : Phrase) : Bool :=
  let objects := ["PROC", "PROCEDURE", "FUNCTION", "TRIGGER", "VIEW"]
  if phrase.word 0 == "CREATE" && phrase.word 1 == "OR" && phrase.word 2 == "ALTER" then
    objects.contains (phrase.word 3)
  else (phrase.word 0 == "CREATE" || phrase.word 0 == "ALTER") && objects.contains (phrase.word 1)

end Phrase

end SqlLayout
