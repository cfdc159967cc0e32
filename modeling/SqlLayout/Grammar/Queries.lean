import SqlLayout.Grammar.Reading

/-!
# Queries, changes of data and expressions
-/

namespace SqlLayout.Reading

/-- Whether the cursor is right after the last common table expression of a list, where the
statement that uses the list begins. -/
def isAfterCte (builder : Builder) : Bool :=
  builder.isIn [.containerContentBody, .cteWithClause]

/-- Starts a new statement, unless the word belongs to a list of common table expressions. -/
def considerStatementUnlessCte (builder : Builder) : Except TreeError Builder :=
  if isAfterCte builder then .ok builder else builder.considerStatement

/-- A join keyword, which covers the first `words` words of the phrase, and the target after it. -/
def join (reading : Reading) (builder : Builder) (words : Nat) : Step := do
  let builder ← builder.leaveBetween
  let builder ← builder.leaveSelectionTarget
  let builder ← builder.leaveJoinCondition
  let (builder, target) := builder.save .joinTarget ""
  let (builder, opening) := builder.saveIn target .containerOpen ""
  if 1 < words then
    let (builder, used) := reading.saveKeyword builder opening words
    return (← builder.moveTo target, used)
  else
    let (builder, compound) := builder.saveIn opening .compoundKeyword ""
    let builder := builder.setAttribute compound .simpleText (reading.phrase.joined 1)
    let builder := builder.saveLeafIn compound .otherKeyword reading.value
    return (← builder.moveTo target, 0)

/-- `FROM` starts a clause and what is selected from. -/
def from_ (reading : Reading) (builder : Builder) : Except TreeError Builder := do
  let builder ← builder.considerClause
  (reading.saveWord builder).enter .selectionTarget

/-- `ON` starts the condition of a join or of a `MERGE`. -/
def on_ (reading : Reading) (builder : Builder) : Except TreeError Builder := do
  let builder ←
    if builder.isIn [.selectionTarget] || builder.isIn [.joinTarget] then
      builder.leaveSelectionTarget
    else .ok builder
  if builder.isIn [.mergeUsing] then
    reading.enter (← builder.moveUpTo 1 .mergeClause) .mergeCondition .containerContentBody
  else if builder.lastContentIs .joinTarget then reading.enter builder .joinOn .containerContentBody
  else return reading.saveWord builder

/-- `USING` after the target of a `MERGE`. -/
def mergeUsing (reading : Reading) (builder : Builder) : Except TreeError Builder := do
  reading.enter (← builder.moveUpTo 1 .mergeClause) .mergeUsing .selectionTarget

def merge (reading : Reading) (builder : Builder) : Except TreeError Builder := do
  let builder ← considerStatementUnlessCte builder
  reading.enter (← builder.considerClause) .mergeClause .mergeTarget

/-- `SELECT` starts a statement, unless it continues a set operation, an `INSERT` without values, or
a list of common table expressions. -/
def select (reading : Reading) (builder : Builder) : Except TreeError Builder := do
  let continuesInsert :=
    builder.statementStartsWith ["INSERT", "INSERT INTO"] && builder.isIn [.clause] &&
      !builder.hasClauseStartingWith ["SELECT", "VALUES"]
  let builder ←
    if builder.lastContentIs .setOperatorClause || continuesInsert || isAfterCte builder then
      .ok builder
    else builder.considerStatement
  return reading.saveWord (← builder.considerClause)

/-- `UPDATE` starts a statement, unless it is an option of a cursor or is called like a function. -/
def update (reading : Reading) (builder : Builder) : Except TreeError Builder := do
  if builder.isIn [.containerContentBody, .cursorForOptions] ||
      reading.nextSignificant? == some .openParens then
    return reading.saveWord builder
  else
    let builder ← considerStatementUnlessCte builder
    return reading.saveWord (← builder.considerClause)

/-- `SET` starts a statement or the assignments of an `UPDATE`. -/
def set (reading : Reading) (builder : Builder) : Except TreeError Builder := do
  if builder.isIn [.ddlOtherBlock] then return reading.saveWord builder
  else if builder.statementStartsWith ["UPDATE"] && !builder.hasClauseStartingWith ["SET"] then
    return reading.saveWord (← builder.considerClause)
  else return reading.saveWord (← builder.considerStatement)

/-- `EXECUTE` starts a statement or feeds an `INSERT`; `EXECUTE AS` changes the security context. -/
def execute (reading : Reading) (builder : Builder) : Step := do
  if reading.phrase.word 1 == "AS" then
    let builder ←
      if builder.isIn [.containerContentBody, .ddlWithClause] then .ok builder
      else (← builder.considerStatement).considerClause
    return reading.saveKeyword builder builder.cursor 2
  else if builder.statementStartsWith ["INSERT", "INSERT INTO"] && builder.isIn [.clause] then
    reading.keyword (← builder.considerClause)
  else reading.keyword (← builder.considerStatement)

/-- A logical operator in a node of its own. -/
def logicalOperator (reading : Reading) (builder : Builder) (kind : NodeKind) :
    Except TreeError Builder := do
  let builder ← builder.leaveBetween
  let (builder, operator) := builder.save kind ""
  return builder.saveLeafIn operator .otherKeyword reading.value

/-- `AND` separates the bounds of a `BETWEEN` and joins conditions elsewhere. -/
def and_ (reading : Reading) (builder : Builder) : Except TreeError Builder := do
  if builder.isIn [.lowerBound] then
    let builder ← builder.moveUpTo 1 .between
    let (builder, close) := builder.save .containerClose ""
    (builder.saveLeafIn close .otherKeyword reading.value).enter .upperBound
  else reading.logicalOperator builder .and

/-- `UNION`, `INTERSECT` and `EXCEPT` stand in a clause of their own. -/
def setOperator (reading : Reading) (builder : Builder) : Step := do
  let builder ← builder.considerClause
  let (builder, clause) := builder.save .setOperatorClause ""
  let count := if reading.phrase.startsWith ["UNION", "ALL"] then 2 else 1
  return reading.saveKeyword builder clause count

end SqlLayout.Reading
