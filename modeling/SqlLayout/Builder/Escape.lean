import SqlLayout.Builder.Basic

/-!
# Leaving finished containers

When a construct is complete the cursor goes back up, by a number of levels fixed for the construct,
to where parsing goes on. The order of the steps inside the larger operations decides how malformed
scripts are recovered.
-/

namespace SqlLayout.Builder

/-- Leaves a `BETWEEN` condition whose upper bound is being read. -/
def leaveBetween (builder : Builder) : Except TreeError Builder :=
  if builder.isIn [.upperBound, .between] then builder.moveUp 2 else .ok builder

/-- Leaves the action statement of a `MERGE` branch once it has content. -/
def leaveMergeAction (builder : Builder) : Except TreeError Builder :=
  if builder.isIn [.clause, .statement, .mergeAction] && builder.hasMeaningfulContent then
    builder.moveUp 4
  else .ok builder

/-- Leaves the wrappers of partial data definitions, cursors, permissions, common table expressions
and `MERGE` branches. -/
def leavePartialStatement (builder : Builder) : Except TreeError Builder :=
  if builder.isIn [.ddlProceduralBlock] || builder.isIn [.ddlOtherBlock] ||
      builder.isIn [.ddlDeclareBlock] then
    builder.moveUp 1
  else if builder.isIn [.containerContentBody, .cursorForOptions] then builder.moveUp 3
  else if builder.isIn [.containerContentBody, .permissionsRecipient] then builder.moveUp 3
  else if builder.isIn [.containerContentBody, .ddlWithClause, .permissionsBlock] ||
      builder.isIn [.containerContentBody, .ddlWithClause, .ddlProceduralBlock] ||
      builder.isIn [.containerContentBody, .ddlWithClause, .ddlOtherBlock] ||
      builder.isIn [.containerContentBody, .ddlWithClause, .ddlDeclareBlock] then
    builder.moveUp 3
  else if builder.isIn [.mergeWhen] then builder.moveUp 2
  else if builder.isIn [.containerContentBody, .cteWithClause] ||
      builder.isIn [.containerContentBody, .ddlDeclareBlock] then
    builder.moveUp 2
  else .ok builder

def leaveCursorQuery (builder : Builder) : Except TreeError Builder :=
  if builder.isIn [.clause, .statement, .containerContentBody, .cursorForBlock] &&
      builder.hasMeaningfulContent then
    builder.moveUp 5
  else .ok builder

/-- Leaves a selection target, and then a join target. -/
def leaveSelectionTarget (builder : Builder) : Except TreeError Builder := do
  let builder ← if builder.isIn [.selectionTarget] then builder.moveUp 1 else .ok builder
  if builder.isIn [.joinTarget] then builder.moveUp 1 else .ok builder

def leaveJoinCondition (builder : Builder) : Except TreeError Builder :=
  if builder.isIn [.containerContentBody, .joinOn] then builder.moveUp 2 else .ok builder

/-- Leaves the finished bodies of `IF`, `ELSE` and `WHILE`, at most `bound` of them. A body lies two
levels below the clause of its `IF` or `WHILE`, and three levels if it belongs to an `ELSE`. -/
def leaveSingleBodies (builder : Builder) : Nat → Except TreeError Builder
  | 0 => .ok builder
  | bound + 1 =>
      if builder.isIn [.clause, .statement, .containerSingleStatementBody] then
        match builder.tree.ancestor builder.cursor 2 with
        | none => .error (.noSuchAncestor 2 builder.cursorKind)
        | some body =>
            let levels := if builder.tree.ancestorIs body 1 .elseClause then 3 else 2
            match builder.tree.ancestor body levels with
            | none => .error (.noSuchAncestor levels .containerSingleStatementBody)
            | some target => do (← builder.moveTo target).leaveSingleBodies bound
      else .ok builder

/-- Leaves everything that ends with a statement. -/
def leaveStatementContainers (builder : Builder) : Except TreeError Builder := do
  let builder ← builder.leaveBetween
  let builder ← builder.leaveSelectionTarget
  let builder ← builder.leaveJoinCondition
  if builder.hasMeaningfulContent then
    let builder ← builder.leaveCursorQuery
    let builder ← builder.leaveMergeAction
    let builder ← builder.leavePartialStatement
    builder.leaveSingleBodies builder.tree.size
  else .ok builder

/-- Leaves everything that ends with a statement, and finds the container in which the next
statement may begin, if there is one. After the condition of an `IF` or `WHILE` it is a new body. An
empty clause is left only if `leaveEmpty` says so. -/
def nextStatementContainer (builder : Builder) (leaveEmpty : Bool) :
    Except TreeError (Builder × Option NodeId) := do
  let builder ← builder.leaveStatementContainers
  if builder.isIn [.booleanExpression, .ifStatement] ||
      builder.isIn [.booleanExpression, .whileLoop] then
    match builder.tree.parent builder.cursor with
    | none => return (builder, none)
    | some owner =>
        let (builder, body) := builder.saveIn owner .containerSingleStatementBody ""
        return (builder, some body)
  else if builder.isIn [.clause, .statement] && (leaveEmpty || builder.hasMeaningfulContent) then
    return (builder, builder.tree.ancestor builder.cursor 2)
  else return (builder, none)

/-- Leaves everything that ends with a statement, and tells whether a batch may end there: at the
root, or right inside the body of a procedural definition. -/
def findBatchEnd (builder : Builder) : Except TreeError (Builder × Bool) := do
  let (builder, container?) ← builder.nextStatementContainer true
  match container? with
  | none => return (builder, false)
  | some container =>
      return (builder, builder.tree.kind container == .root ||
        builder.tree.pathIs container [.containerContentBody, .ddlAsBlock])

end SqlLayout.Builder
