import SqlLayout.Grammar.Blocks
import SqlLayout.Grammar.Definitions
import SqlLayout.Grammar.Queries

/-!
# Words

A word is taken by the first rule that applies: permissions, labels, definitions, cursors, triggers
and joins by their surroundings, then the keywords with a rule of their own, and the rest by the
tables.
-/

namespace SqlLayout.Reading

/-- Whether the word in hand is a label: one colon follows it directly. -/
def isLabel (reading : Reading) : Bool :=
  match reading.rest with
  | next :: after =>
      next.kind == .colon &&
        match after with
        | second :: _ => second.kind != .colon
        | [] => true
  | [] => false

def label (reading : Reading) (builder : Builder) : Step := do
  let builder ← builder.considerStatement
  return (builder.saveLeaf .label (reading.value ++ ":"), 1)

/-- A word without a rule of its own. Statement and clause starters begin what they start; keywords
of several words become compounds. -/
def otherWord (reading : Reading) (builder : Builder) : Step := do
  let word := reading.word
  let afterCte := isAfterCte builder
  let builder ←
    if (Keyword.isStatementStarter word || builder.statementDue) && !afterCte then
      builder.considerStatement
    else .ok builder
  let isOption := builder.isIn [.containerContentBody, .ddlWithClause]
  let builder ←
    if (Keyword.isClauseStarter word && !isOption) ||
        (Keyword.isStatementStarter word && afterCte) then
      builder.considerClause
    else .ok builder
  match reading.phrase.compoundLength? with
  | none => return (reading.saveTyped builder, 0)
  | some count =>
      let builder ←
        if (reading.phrase.startsWith ["ORDER", "BY"] ||
            reading.phrase.startsWith ["GROUP", "BY"]) &&
            !builder.isIn [.expressionParens] then
          builder.considerClause
        else .ok builder
      return reading.saveKeyword builder builder.cursor count

/-- A word with a rule of its own. -/
def keywordRule (reading : Reading) (builder : Builder) : Step :=
  match reading.word with
  | "CASE" => .done (reading.enter builder .caseStatement .caseInput)
  | "WHEN" => .done (reading.when_ builder)
  | "THEN" => .done (reading.then_ builder)
  | "ELSE" => .done (reading.else_ builder)
  | "END" => reading.end_ builder
  | "BEGIN" => reading.begin_ builder
  | "COMMIT" => reading.transaction builder .commitTransaction
  | "ROLLBACK" => reading.transaction builder .rollbackTransaction
  | "SAVE" =>
      if reading.phrase.compoundLength?.isSome then reading.transaction builder .saveTransaction
      else reading.otherWord builder
  | "GO" => .done (reading.batchSeparator builder)
  | "IF" => .done (reading.conditional builder .ifStatement)
  | "WHILE" => .done (reading.conditional builder .whileLoop)
  | "DECLARE" => .done (reading.definition builder .ddlDeclareBlock)
  | "CREATE" | "ALTER" => .done (reading.definition builder .ddlOtherBlock)
  | "GRANT" | "DENY" | "REVOKE" => .done (reading.permissions builder)
  | "TO" =>
      if builder.isIn [.containerContentBody, .permissionsTarget] then
        .done (reading.permissionsRecipient builder)
      else reading.otherWord builder
  | "FROM" =>
      if builder.isIn [.containerContentBody, .permissionsTarget] then
        .done (reading.permissionsRecipient builder)
      else .done (reading.from_ builder)
  | "CASCADE" => .done (reading.cascade builder)
  | "RETURNS" =>
      if builder.isIn [.ddlProceduralBlock] then .ok (reading.returns builder, 0)
      else reading.otherWord builder
  | "AS" => .done (reading.as_ builder)
  | "FOR" => .done (reading.for_ builder)
  | "WITH" => .done (reading.with_ builder)
  | "ON" => .done (reading.on_ builder)
  | "USING" =>
      if builder.isIn [.mergeTarget] then .done (reading.mergeUsing builder)
      else reading.otherWord builder
  | "MERGE" => .done (reading.merge builder)
  | "SELECT" => .done (reading.select builder)
  | "UPDATE" => .done (reading.update builder)
  | "SET" => .done (reading.set builder)
  | "EXEC" | "EXECUTE" => reading.execute builder
  | "BETWEEN" => .done (reading.enter builder .between .lowerBound)
  | "AND" => .done (reading.and_ builder)
  | "OR" => .done (reading.logicalOperator builder .or)
  | "UNION" | "INTERSECT" | "EXCEPT" => reading.setOperator builder
  | _ => reading.otherWord builder

/-- The trigger condition at the front of the phrase, if the cursor is where one may stand. -/
def triggerWords? (reading : Reading) (builder : Builder) : Option Nat :=
  if isInProcedureHead builder then reading.phrase.triggerLength? else none

def takeWord (reading : Reading) (builder : Builder) : Step :=
  if builder.isIn [.permissionsDetail] then .done (reading.permissionsDetail builder)
  else if reading.isLabel then reading.label builder
  else if reading.phrase.isProceduralDefinition then
    .done (reading.definition builder .ddlProceduralBlock)
  else if reading.phrase.declaresCursor then .done (reading.definition builder .cursorDeclaration)
  else match reading.triggerWords? builder with
  | some words => reading.triggerCondition builder words
  | none =>
      match reading.phrase.joinLength? with
      | some words => reading.join builder words
      | none => reading.keywordRule builder

end SqlLayout.Reading
