import SqlLayout.Grammar.Reading

/-!
# Control flow, blocks, transactions and batches
-/

namespace SqlLayout.Reading

/-- `IF` and `WHILE` start a statement and read their condition. -/
def conditional (reading : Reading) (builder : Builder) (kind : NodeKind) :
    Except TreeError Builder := do
  reading.enter (← builder.considerStatement) kind .booleanExpression

/-- `WHEN` starts a branch of a `CASE` or of a `MERGE`. -/
def when_ (reading : Reading) (builder : Builder) : Except TreeError Builder := do
  let builder ← builder.leaveBetween
  if builder.isIn [.caseInput] then
    reading.enter (← builder.moveUpTo 1 .caseStatement) .caseWhen .containerContentBody
  else if builder.isIn [.containerContentBody, .caseThen] then
    reading.enter (← builder.moveUpTo 3 .caseStatement) .caseWhen .containerContentBody
  else
    let builder ← builder.leaveSelectionTarget
    let builder ← builder.leaveMergeAction
    let builder ←
      if builder.isIn [.mergeWhen] then builder.moveUpTo 1 .mergeClause
      else if builder.isIn [.containerContentBody, .mergeCondition] then
        builder.moveUpTo 2 .mergeClause
      else .ok builder
    if builder.isIn [.mergeClause] then reading.enter builder .mergeWhen .containerContentBody
    else return builder.saveLeafWithError .otherKeyword reading.value

/-- `THEN` starts the result of a `CASE` branch or the action of a `MERGE` branch. -/
def then_ (reading : Reading) (builder : Builder) : Except TreeError Builder := do
  let builder ← builder.leaveBetween
  if builder.isIn [.containerContentBody, .caseWhen] then
    reading.enter (← builder.moveUpTo 1 .caseWhen) .caseThen .containerContentBody
  else if builder.isIn [.containerContentBody, .mergeWhen] then
    let builder ← reading.enter (← builder.moveUpTo 1 .mergeWhen) .mergeThen .mergeAction
    return builder.startStatement
  else return builder.saveLeafWithError .otherKeyword reading.value

/-- The `IF` that an `ELSE` after a body belongs to, at most `bound` bodies up: the nearest one
whose body has just ended and that has no `ELSE` yet. -/
def elseOwnerAbove (tree : Tree) (body : NodeId) : Nat → Option NodeId
  | 0 => none
  | bound + 1 =>
      if tree.kind body = .containerSingleStatementBody then
        match tree.parent body with
        | none => none
        | some owner =>
            match tree.kind owner with
            | .ifStatement => some owner
            | .elseClause =>
              (tree.ancestor body 5).bind fun outer => elseOwnerAbove tree outer bound
            | .whileLoop => (tree.ancestor body 4).bind fun outer => elseOwnerAbove tree outer bound
            | _ => none
      else none

/-- The `IF` that an `ELSE` at the cursor belongs to. -/
def elseOwner? (builder : Builder) : Option NodeId :=
  if builder.isIn [.clause, .statement, .containerSingleStatementBody] then
    (builder.tree.ancestor builder.cursor 2).bind fun body =>
      elseOwnerAbove builder.tree body builder.tree.size
  else none

/-- `ELSE` starts the last branch of a `CASE` or the second body of an `IF`. -/
def else_ (reading : Reading) (builder : Builder) : Except TreeError Builder := do
  let builder ← builder.leaveBetween
  if builder.isIn [.containerContentBody, .caseThen] then
    reading.enter (← builder.moveUpTo 3 .caseStatement) .caseElse .containerContentBody
  else
    let builder ← builder.leaveSelectionTarget
    let builder ← builder.leaveJoinCondition
    let builder ← builder.leavePartialStatement
    match elseOwner? builder with
    | some owner =>
        let builder ← builder.moveTo owner
        let builder ← reading.enter builder .elseClause .containerSingleStatementBody
        return builder.startStatement
    | none => return builder.saveLeafWithError .otherKeyword reading.value

def endHandler (reading : Reading) (builder : Builder) (kind : NodeKind) : Step := do
  let builder ← builder.leaveStatementContainers
  if builder.isIn [.clause, .statement, .containerMultiStatementBody, kind] then
    let builder ← builder.moveUpTo 3 kind
    let (builder, close) := builder.save .containerClose ""
    let (builder, used) := reading.saveKeyword builder close 2
    let builder ← builder.moveUp 1
    return (builder.setStatementDue, used)
  else
    let (builder, used) := reading.saveKeyword builder builder.cursor 2
    return (builder.markError, used)

/-- Closes the cursor's container with the token in hand and leaves it. -/
def close (reading : Reading) (builder : Builder) : Except TreeError Builder :=
  let (builder, close) := builder.save .containerClose ""
  (builder.saveLeafIn close .otherKeyword reading.value).moveUp 1

/-- `END` closes a `CASE` or a block. -/
def end_ (reading : Reading) (builder : Builder) : Step := do
  if reading.phrase.startsWith ["END", "TRY"] then reading.endHandler builder .tryBlock
  else if reading.phrase.startsWith ["END", "CATCH"] then reading.endHandler builder .catchBlock
  else
    let builder ← builder.leaveBetween
    if builder.isIn [.containerContentBody, .caseThen] then
      Step.done (reading.close (← builder.moveUpTo 3 .caseStatement))
    else if builder.isIn [.containerContentBody, .caseElse] then
      Step.done (reading.close (← builder.moveUpTo 2 .caseStatement))
    else
      let builder ← builder.leaveStatementContainers
      if builder.isIn [.clause, .statement, .containerMultiStatementBody, .beginEndBlock] then
        let builder ← reading.close (← builder.moveUpTo 3 .beginEndBlock)
        return (builder.setStatementDue, 0)
      else return (builder.saveLeafWithError .otherKeyword reading.value, 0)

def beginHandler (reading : Reading) (builder : Builder) (kind : NodeKind) : Step := do
  let (builder, block) := builder.save kind ""
  let (builder, opening) := builder.saveIn block .containerOpen ""
  let (builder, used) := reading.saveKeyword builder opening 2
  let (builder, body) := builder.saveIn block .containerMultiStatementBody ""
  let builder ← builder.moveTo body
  return (builder.startStatement, used)

/-- `BEGIN` opens a block or starts a transaction. -/
def begin_ (reading : Reading) (builder : Builder) : Step := do
  let builder ← builder.considerStatement
  if reading.phrase.word 1 == "TRY" then reading.beginHandler builder .tryBlock
  else if reading.phrase.word 1 == "CATCH" then reading.beginHandler builder .catchBlock
  else
    match reading.phrase.compoundLength? with
    | some count =>
        let (builder, transaction) := builder.save .beginTransaction ""
        return reading.saveKeyword builder transaction count
    | none =>
        let builder ← reading.enter builder .beginEndBlock .containerMultiStatementBody
        return (builder.startStatement, 0)

def transaction (reading : Reading) (builder : Builder) (kind : NodeKind) : Step := do
  let builder ← builder.considerStatement
  let (builder, transaction) := builder.save kind ""
  return reading.saveKeyword builder transaction (reading.phrase.compoundLength?.getD 1)

/-- Whether the token in hand is the only thing on its line, up to blanks and a comment after it. -/
def isAloneOnLine (reading : Reading) : Bool :=
  let startsLine := reading.previous.all Token.endsLine
  let endsLine :=
    match reading.rest with
    | [] => true
    | next :: after =>
        next.endsLine || (next.kind == .whiteSpace && after.head?.all Token.endsLine)
  startsLine && endsLine

/-- `GO` on a line of its own ends a batch. -/
def batchSeparator (reading : Reading) (builder : Builder) : Except TreeError Builder := do
  let builder ← builder.leaveStatementContainers
  if reading.isAloneOnLine then
    let (builder, valid) ← builder.findBatchEnd
    if valid then
      let (builder, separator) := builder.saveIn Tree.root .batchSeparator ""
      let builder := builder.saveLeafIn separator .otherKeyword reading.value
      return builder.startStatementIn Tree.root
    else return builder.saveLeafWithError .other reading.value
  else return builder.saveLeaf .other reading.value

end SqlLayout.Reading
