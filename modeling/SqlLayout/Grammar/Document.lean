import SqlLayout.Grammar.Punctuation
import SqlLayout.Grammar.Words
import SqlLayout.Token.Lexer

/-!
# Documents

The tree of a script: its tokens are read one after the other, and the end of the script closes what
is complete. A script that ends in an unfinished token or inside an open construct is marked as
needing recovery.
-/

namespace SqlLayout

namespace Reading

/-- The rule for the token in hand. -/
def take (reading : Reading) (builder : Builder) : Step :=
  match reading.token.kind with
  | .openParens => .done (openParens builder)
  | .closeParens => .done (closeParens builder)
  | .word => reading.takeWord builder
  | .semicolon => .ok ((builder.saveLeaf .semicolon reading.value).setStatementDue, 0)
  | .colon => .ok (reading.colon builder)
  | .comma => .done (reading.comma builder)
  | .equalsSign => .done (reading.equalsSign builder)
  | kind =>
      if kind.isTrivia then .done (reading.trivia builder)
      else .ok (builder.saveLeaf kind.leafKind reading.value, 0)

end Reading

namespace Builder

/-- Reads tokens to the end; `previous` is the token before them. -/
def readAll (builder : Builder) (previous : Option Token) : List Token → Except TreeError Builder
  | [] => .ok builder
  | token :: rest =>
      match Reading.take { previous, token, rest, phrase := .ofTokens (token :: rest) } builder with
      | .error error => .error error
      | .ok (builder, used) =>
          builder.readAll ((token :: rest)[used]?.or previous) (rest.drop used)
termination_by tokens => tokens.length

/-- Closes the document after its last token. -/
def finish (builder : Builder) (unfinished : Bool) : Except TreeError Tree := do
  let builder := if unfinished then builder.markError else builder
  let (builder, valid) ← builder.findBatchEnd
  return (if valid then builder else builder.markError).tree

end Builder

namespace Tree

def ofTokens (list : TokenList) : Except TreeError Tree := do
  (← Builder.start.readAll none list.tokens).finish list.unfinished

def ofText (script : String) : Except TreeError Tree :=
  ofTokens (.ofText script)

end Tree

end SqlLayout
