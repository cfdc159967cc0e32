import SqlLayout.Grammar.Reading

/-!
# Parentheses, colons and commas

An opening parenthesis is classified by what stands before it; the other marks are leaves.
-/

namespace SqlLayout.Reading

/-- Whether the last content of the cursor's container is a compound keyword that names a data
type. -/
def followsCompoundType (builder : Builder) : Bool :=
  match builder.lastContent? with
  | none => false
  | some last =>
      builder.tree.kind last == .compoundKeyword &&
        match builder.tree.attributeOf last .simpleText with
        | none => false
        | some text => Keyword.endsInDataType text

/-- Whether the cursor is in a clause that takes a list in parentheses after its keyword. -/
def isInListClause (builder : Builder) : Bool :=
  builder.isIn [.clause] &&
    match builder.firstContent?.bind builder.tree.keywordText? with
    | some keyword => ["OPTION", "INSERT", "INSERT INTO", "VALUES"].contains keyword
    | none => false

/-- Whether the last content of the cursor's container is the operator `IN`. -/
def followsIn (builder : Builder) : Bool :=
  match builder.lastContent? with
  | none => false
  | some last =>
    builder.tree.kind last == .alphaOperator && Text.upper (builder.tree.text last) == "IN"

def openParens (builder : Builder) : Except TreeError Builder :=
  let cursorKind := builder.cursorKind
  if [NodeKind.ddlProceduralBlock, .ddlOtherBlock, .ddlDeclareBlock, .cteAlias].contains
        cursorKind || isInListClause builder then
    builder.enter .ddlParens
  else if builder.isIn [.containerContentBody, .cteAsBlock] then builder.enter .expressionParens
  else if cursorKind == .selectionTarget && !builder.hasContent then
    builder.enter .selectionTargetParens
  else if builder.lastContentIs .setOperatorClause then do
    (← builder.considerClause).enter .selectionTargetParens
  else if builder.lastContentIs .dataTypeKeyword || followsCompoundType builder then
    builder.enter .ddlDetailParens
  else if followsIn builder then builder.enter .inParens
  else if builder.lastContentIs .other || builder.lastContentIs .bracketName ||
      builder.lastContentIs .functionKeyword || builder.lastContentIs .quotedString then
    builder.enter .functionParens
  else builder.enter .expressionParens

/-- Leaves a parenthesis group. The body of a common table expression ends with its parentheses. -/
def leaveParens (builder : Builder) (levels : Nat) : Except TreeError Builder := do
  let builder ← builder.moveUp levels
  if builder.isIn [.containerContentBody, .cteAsBlock] then
    builder.moveUpTo 2 .containerContentBody
  else return builder

/-- Closes a parenthesis group. Where none is open, the parenthesis is a stray character. -/
def closeParens (builder : Builder) : Except TreeError Builder := do
  let builder ← builder.leaveStatementContainers
  let parentIsParens :=
    match builder.tree.parent builder.cursor with
    | some parent => (builder.tree.kind parent).isParens
    | none => false
  if builder.cursorKind.isParens then leaveParens builder 1
  else if builder.cursorKind == .clause && parentIsParens then leaveParens builder 2
  else return builder.saveLeafWithError .other ")"

/-- Two colons resolve a scope, a colon before a word makes a host variable, and any other colon is
a stray character. -/
def colon (reading : Reading) (builder : Builder) : Builder × Nat :=
  match reading.rest with
  | next :: _ =>
      if next.kind = .colon then (builder.saveLeaf .scopeResolutionOperator "::", 1)
      else if next.kind = .word then (builder.saveLeaf .other (":" ++ next.value), 1)
      else (builder.saveLeafWithError .other ":", 0)
  | [] => (builder.saveLeafWithError .other ":", 0)

/-- A comma. In a list of common table expressions it starts the next one. -/
def comma (reading : Reading) (builder : Builder) : Except TreeError Builder :=
  let builder := builder.saveLeaf .comma reading.value
  if builder.isIn [.containerContentBody, .cteWithClause] then builder.enter .cteAlias
  else .ok builder

/-- An equals sign. In a declaration it starts the initial value. -/
def equalsSign (reading : Reading) (builder : Builder) : Except TreeError Builder :=
  let builder := builder.saveLeaf .equalsSign reading.value
  if builder.isIn [.ddlDeclareBlock] then builder.enter .containerContentBody else .ok builder

/-- A blank or a comment. In front of an empty clause it stays outside the clause. -/
def trivia (reading : Reading) (builder : Builder) : Except TreeError Builder :=
  let kind := reading.token.kind.leafKind
  if builder.isIn [.clause, .statement] && builder.isEmpty then
    builder.saveLeafBefore kind reading.value builder.cursor
  else .ok (builder.saveLeaf kind reading.value)

end SqlLayout.Reading
