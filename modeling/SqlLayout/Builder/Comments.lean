import SqlLayout.Builder.Escape

/-!
# Comments between statements

A comment on a line of its own belongs to what follows it, and a comment behind something belongs to
that. So when a new statement or clause starts, the comments on lines of their own at the end of the
previous one move in front of it.
-/

namespace SqlLayout

namespace Tree

/-- Whether a node is a comment that starts its line: the node right before it is a blank with a
line break. -/
def startsLine (tree : Tree) (comment before : NodeId) : Bool :=
  (tree.kind comment).isComment && tree.kind before == .whiteSpace &&
    containsLineBreak (tree.text before)

/-- What follows the last content of a container. -/
structure Tail where
  /-- The nodes from the first comment that starts its line to the end. -/
  moving : List NodeId
  /-- The last content, if comments may hide inside it. -/
  inner : Option NodeId
deriving DecidableEq, Repr, Inhabited

/-- Reads the children of a container backwards. `passed` holds the nodes read since the last
comment that starts its line, and `moving` that comment with everything after it, both in document
order. -/
def readTail (tree : Tree) (passed moving : List NodeId) : List NodeId → Tail
  | [] => { moving, inner := none }
  | id :: before =>
      if tree.kind id = .whiteSpace then tree.readTail (id :: passed) moving before
      else match (tree.kind id).isComment, before with
      | true, previous :: _ =>
          if tree.startsLine id previous then tree.readTail [] (id :: passed ++ moving) before
          else if (tree.kind previous).isTrivia then tree.readTail (id :: passed) moving before
          else { moving, inner := if tree.text id = "" then some id else none }
      | _, _ => { moving, inner := if tree.text id = "" then some id else none }

def tail (tree : Tree) (container : NodeId) : Tail :=
  tree.readTail [] [] (tree.children container).reverse

/-- Nodes leave their places and go, in order, right before another node. -/
def moveBefore (tree : Tree) (anchor : NodeId) : List NodeId → Except TreeError Tree
  | [] => .ok tree
  | id :: rest => do
      let tree ← (tree.detach id).insertBefore id anchor
      tree.moveBefore anchor rest

/-- The comments on lines of their own at the end of a container go right before the anchor. They
are looked for at most `bound` containers deep. -/
def moveOwnLineComments (tree : Tree) (container anchor : NodeId) : Nat → Except TreeError Tree
  | 0 => .ok tree
  | bound + 1 => do
      let tail := tree.tail container
      let tree ← tree.moveBefore anchor tail.moving
      match tail.inner with
      | none => return tree
      | some inner => tree.moveOwnLineComments inner (tail.moving.headD anchor) bound

end Tree

namespace Builder

/-- The comments on lines of their own at the end of a container go before the cursor's
container. -/
def takeComments (builder : Builder) (container : NodeId) : Except TreeError Builder := do
  let { tree, cursor, statementDue } := builder
  let bound := tree.size
  return { tree := ← tree.moveOwnLineComments container cursor bound, cursor, statementDue }

/-- Starts a new statement if the current one is complete. -/
def considerStatement (builder : Builder) : Except TreeError Builder := do
  let builder ← builder.leaveBetween
  let builder ← builder.leaveSelectionTarget
  let builder ← builder.leaveJoinCondition
  let previous := builder.cursor
  let (builder, target?) ← builder.nextStatementContainer false
  match target? with
  | none => return builder
  | some target =>
      let between := builder.cursor
      let builder := builder.startStatementIn target
      let builder ← if between = previous then .ok builder else builder.takeComments between
      builder.takeComments previous

/-- Starts a new clause if the current one has content, or if the cursor's container takes
clauses. -/
def considerClause (builder : Builder) : Except TreeError Builder := do
  let builder ← builder.leaveSelectionTarget
  let builder ← builder.leaveBetween
  let builder ← builder.leavePartialStatement
  let builder ← builder.leaveJoinCondition
  match builder.cursorKind with
  | .clause =>
      if builder.hasContent then
        let previous := builder.cursor
        match builder.tree.parent previous with
        | none => return builder
        | some statement =>
            let (builder, clause) := builder.saveIn statement .clause ""
            let builder ← builder.moveTo clause
            builder.takeComments previous
      else return builder
  | .expressionParens | .inParens | .selectionTargetParens | .statement => builder.enter .clause
  | _ => return builder

end Builder

end SqlLayout
