import SqlLayout.Token.Basic

/-!
# Spelling of tokens

The source text of a token is its value with the delimiters of its kind put back. Quotations double
their closing delimiter inside.
-/

namespace SqlLayout

/-- A body with each closing delimiter written twice. -/
def doubleDelimiter (close : Char) (body : List Char) : List Char :=
  body.flatMap fun c => if c = close then [close, close] else [c]

/-- A body between an opening text and a closing delimiter. -/
def quoteBody (opening : String) (close : Char) (body : String) : String :=
  opening ++ String.ofList (doubleDelimiter close body.toList ++ [close])

def bracketQuote (name : String) : String :=
  quoteBody "[" ']' name

/-- The warning line written before the text of a script that needed error recovery. -/
def defaultWarning : String :=
  "--WARNING! ERRORS ENCOUNTERED DURING SQL PARSING!"

/-- A warning on a line of its own; an empty warning is left out. -/
def warningLine (warning : String) : String :=
  if warning.isEmpty then "" else warning ++ "\n"

namespace Token

def spelling (token : Token) : String :=
  match token.kind with
  | .lineComment => "--" ++ token.value
  | .slashComment => "//" ++ token.value
  | .blockComment => "/*" ++ token.value ++ "*/"
  | .string => quoteBody "'" '\'' token.value
  | .nationalString => quoteBody "N'" '\'' token.value
  | .quotedString => quoteBody "\"" '"' token.value
  | .bracketName => bracketQuote token.value
  | _ => token.value

end Token

namespace TokenList

/-- The source text of a token list, after a warning if its last token was left open. -/
def spelling (list : TokenList) (warning : String) : String :=
  (if list.unfinished then warningLine warning else "") ++
    String.join (list.tokens.map Token.spelling)

end TokenList

end SqlLayout
