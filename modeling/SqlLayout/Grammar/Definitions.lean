import SqlLayout.Grammar.Reading

/-!
# Declarations, definitions, cursors and permissions
-/

namespace SqlLayout.Reading

/-- A statement that opens a wrapper of the given kind with the token in hand. -/
def definition (reading : Reading) (builder : Builder) (kind : NodeKind) :
    Except TreeError Builder := do
  let builder ← builder.considerStatement
  let builder ← builder.enter kind
  return reading.saveWord builder

def isInProcedureHead (builder : Builder) : Bool :=
  builder.isIn [.ddlProceduralBlock] ||
    builder.isIn [.containerContentBody, .ddlWithClause, .ddlProceduralBlock]

/-- Leaves the options of a procedural definition for its head. -/
def leaveProcedureOptions (builder : Builder) : Except TreeError Builder :=
  if builder.isIn [.containerContentBody, .ddlWithClause, .ddlProceduralBlock] then
    builder.moveUpTo 2 .ddlProceduralBlock
  else .ok builder

/-- The condition of a trigger, which covers the first `words` words of the phrase. -/
def triggerCondition (reading : Reading) (builder : Builder) (words : Nat) : Step := do
  let builder ← leaveProcedureOptions builder
  let (builder, condition) := builder.save .triggerCondition ""
  let timingWords := if reading.word == "INSTEAD" then 2 else 1
  let (builder, used) := reading.saveKeyword builder condition timingWords
  match reading.phrase.lastPlace? words with
  | none => return (builder, used)
  | some last => return (builder.saveTokens condition (reading.tokens (used + 1) last), last)

def returns (reading : Reading) (builder : Builder) : Builder :=
  let (builder, returns) := builder.save .ddlReturns ""
  builder.saveLeafIn returns .otherKeyword reading.value

/-- `AS` starts the body of a procedural definition or of a common table expression; before a data
type it is a plain keyword. -/
def as_ (reading : Reading) (builder : Builder) : Except TreeError Builder := do
  let builder ← leaveProcedureOptions builder
  if builder.isIn [.ddlProceduralBlock] then
    if Keyword.isDataType (reading.phrase.word 1) then return reading.saveWord builder
    else
      let builder ← reading.enter builder .ddlAsBlock .containerContentBody
      return builder.startStatement
  else if builder.isIn [.cteAlias] then
    reading.enter (← builder.moveUp 1) .cteAsBlock .containerContentBody
  else return reading.saveWord builder

/-- `FOR` starts the query of a cursor, then its options; elsewhere it may start a clause. -/
def for_ (reading : Reading) (builder : Builder) : Except TreeError Builder := do
  if builder.isIn [.cursorDeclaration] then
    let builder ← reading.enter builder .cursorForBlock .containerContentBody
    return builder.startStatement
  else
    let builder ← builder.leaveSelectionTarget
    if builder.isIn [.clause, .statement, .containerContentBody, .cursorForBlock] then
      reading.enter (← builder.moveUpTo 4 .cursorDeclaration) .cursorForOptions
        .containerContentBody
    else
      let builder ←
        if builder.isIn [.clause, .statement] then builder.considerClause else .ok builder
      return reading.saveWord builder

/-- `WITH` starts a list of common table expressions at the front of a statement, options in a
definition or a permission, and hints elsewhere. -/
def with_ (reading : Reading) (builder : Builder) : Except TreeError Builder := do
  let builder ← if builder.statementDue then builder.considerStatement else .ok builder
  if builder.isIn [.clause, .statement] && !builder.hasContent then
    (← reading.enter builder .cteWithClause .containerContentBody).enter .cteAlias
  else if builder.isIn [.containerContentBody, .permissionsRecipient] then
    reading.enter (← builder.moveUpTo 2 .permissionsBlock) .ddlWithClause .containerContentBody
  else if builder.isIn [.ddlProceduralBlock] || builder.isIn [.ddlOtherBlock] then
    reading.enter builder .ddlWithClause .containerContentBody
  else if builder.isIn [.selectionTarget] || builder.isIn [.joinTarget] then
    return reading.saveWord builder
  else return reading.saveWord (← builder.considerClause)

/-- A word among the permissions that a statement names. -/
def permissionsDetail (reading : Reading) (builder : Builder) : Except TreeError Builder := do
  match reading.word with
  | "ON" =>
      reading.enter (← builder.moveUpTo 1 .permissionsBlock) .permissionsTarget
        .containerContentBody
  | "TO" | "FROM" =>
      reading.enter (← builder.moveUpTo 1 .permissionsBlock) .permissionsRecipient
        .containerContentBody
  | _ => return reading.saveTyped builder

/-- `GRANT`, `DENY` and `REVOKE` are statements, except in `WITH GRANT OPTION`. -/
def permissions (reading : Reading) (builder : Builder) : Except TreeError Builder := do
  if reading.word == "GRANT" &&
      builder.isIn [.containerContentBody, .ddlWithClause, .permissionsBlock] &&
      !builder.hasContent then
    return reading.saveWord builder
  else reading.enter (← builder.considerStatement) .permissionsBlock .permissionsDetail

/-- `TO` or `FROM` after the target of a permission. -/
def permissionsRecipient (reading : Reading) (builder : Builder) : Except TreeError Builder := do
  reading.enter (← builder.moveUpTo 2 .permissionsBlock) .permissionsRecipient .containerContentBody

/-- `CASCADE` is an option of a permission and a plain keyword elsewhere. -/
def cascade (reading : Reading) (builder : Builder) : Except TreeError Builder := do
  if builder.isIn [.containerContentBody, .permissionsRecipient, .permissionsBlock] ||
      builder.isIn [.containerContentBody, .ddlWithClause, .permissionsBlock] then
    reading.enter (← builder.moveUpTo 2 .permissionsBlock) .ddlWithClause .containerContentBody
  else return reading.saveWord builder

end SqlLayout.Reading
