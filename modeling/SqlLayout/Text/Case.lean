import SqlLayout.Text.Case.Context
import SqlLayout.Text.Case.Lower
import SqlLayout.Text.Case.Upper

/-!
# Upper and lower case of texts

Upper case goes character by character. Lower case does too, except for the capital sigma, whose
lower case at the end of a word is the final sigma.
-/

namespace SqlLayout.Text

def upperChars (text : List Char) : List Char :=
  text.flatMap upperChar

def upper (text : String) : String :=
  String.ofList (upperChars text.toList)

/-- Whether the first character that is not case-ignorable is cased. -/
def meetsCased (text : List Char) : Bool :=
  match text.dropWhile isCaseIgnorable with
  | [] => false
  | c :: _ => isCased c

/-- Whether a capital sigma between two texts ends a word; `before` is written backwards. -/
def endsWord (before after : List Char) : Bool :=
  meetsCased before && !meetsCased after

/-- The lower case of `text` after the characters `before`, which are written backwards. -/
def lowerAfter (before : List Char) : List Char → List Char
  | [] => []
  | c :: rest =>
      if c = 'Σ' then
        (if endsWord before rest then 'ς' else 'σ') :: lowerAfter (c :: before) rest
      else lowerChar c ++ lowerAfter (c :: before) rest

def lower (text : String) : String :=
  String.ofList (lowerAfter [] text.toList)

/-- Equality of texts up to the case of the ASCII letters. -/
def eqIgnoringAsciiCase (left right : String) : Bool :=
  left.toList.map Char.toLower == right.toList.map Char.toLower

end SqlLayout.Text
