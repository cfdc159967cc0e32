import SqlLayout.Text.Case
import SqlLayout.Tree.Basic

/-!
# Building a tree

A builder is a tree under construction with a cursor: the container that takes the next node. Every
structural decision of the grammar is one of the operations here and in the modules beside this one.
Moving the cursor checks that it stays inside the document.
-/

namespace SqlLayout

structure Builder where
  tree : Tree
  /-- The container that takes the next node. -/
  cursor : NodeId
  /-- A statement has ended, and the next word starts a new one. -/
  statementDue : Bool
deriving DecidableEq, Repr, Inhabited

namespace Builder

def cursorKind (builder : Builder) : NodeKind :=
  builder.tree.kind builder.cursor

/-- The cursor goes to a node, which must be part of the document. -/
def moveTo (builder : Builder) (id : NodeId) : Except TreeError Builder :=
  if builder.tree.isAttached id then .ok { builder with cursor := id }
  else .error .cursorOutsideTree

def setStatementDue (builder : Builder) : Builder :=
  { builder with statementDue := true }

/-- The cursor's container and the whole document are marked as needing recovery. -/
def markError (builder : Builder) : Builder :=
  let { tree, cursor, statementDue } := builder
  { tree := (tree.setAttribute cursor .hasError "1").setAttribute Tree.root .errorFound "1"
    cursor, statementDue }

def setAttribute (builder : Builder) (id : NodeId) (key : Attribute) (value : String) : Builder :=
  let { tree, cursor, statementDue } := builder
  { tree := tree.setAttribute id key value, cursor, statementDue }

/-- A new last node of a container, and its number. -/
def saveIn (builder : Builder) (parent : NodeId) (kind : NodeKind) (text : String) :
    Builder × NodeId :=
  let { tree, cursor, statementDue } := builder
  let (tree, id) := tree.append parent kind text
  ({ tree, cursor, statementDue }, id)

def save (builder : Builder) (kind : NodeKind) (text : String) : Builder × NodeId :=
  builder.saveIn builder.cursor kind text

def saveLeafIn (builder : Builder) (parent : NodeId) (kind : NodeKind) (text : String) : Builder :=
  (builder.saveIn parent kind text).1

def saveLeaf (builder : Builder) (kind : NodeKind) (text : String) : Builder :=
  builder.saveLeafIn builder.cursor kind text

/-- A new leaf in the cursor's container, which is marked as needing recovery. -/
def saveLeafWithError (builder : Builder) (kind : NodeKind) (text : String) : Builder :=
  (builder.saveLeaf kind text).markError

def saveLeafBefore (builder : Builder) (kind : NodeKind) (text : String) (sibling : NodeId) :
    Except TreeError Builder := do
  let { tree, cursor, statementDue } := builder
  let (tree, id) := tree.create kind text
  return { tree := ← tree.insertBefore id sibling, cursor, statementDue }

/-- A new container at the cursor, with the cursor inside. -/
def enter (builder : Builder) (kind : NodeKind) : Except TreeError Builder :=
  let (builder, id) := builder.save kind ""
  builder.moveTo id

/-- A new container that opens with a keyword, with the cursor inside its body. -/
def enterContainer (builder : Builder) (kind : NodeKind) (keyword : String) (body : NodeKind) :
    Except TreeError Builder :=
  let (builder, container) := builder.save kind ""
  let (builder, opening) := builder.saveIn container .containerOpen ""
  let (builder, body) := builder.saveIn container body ""
  do
    let builder ← builder.moveTo body
    return builder.saveLeafIn opening .otherKeyword keyword

/-- A new statement in a container, with the cursor in its first clause. -/
def startStatementIn (builder : Builder) (target : NodeId) : Builder :=
  let (tree, statement) := builder.tree.append target .statement ""
  let (tree, clause) := tree.append statement .clause ""
  { tree, cursor := clause, statementDue := false }

def startStatement (builder : Builder) : Builder :=
  builder.startStatementIn builder.cursor

/-- The builder of an empty document, with the cursor in the first clause of its first statement. -/
def start : Builder :=
  { tree := .empty, cursor := Tree.root, statementDue := false : Builder }.startStatementIn
    Tree.root

/-! ### The cursor's path -/

end Builder

/-- Whether a node and the containers around it have the given kinds, nearest first. -/
def Tree.pathIs (tree : Tree) (id : NodeId) : List NodeKind → Bool
  | [] => true
  | [kind] => tree.kind id == kind
  | kind :: outer :: others =>
      tree.kind id == kind &&
        match tree.parent id with
        | some parent => tree.pathIs parent (outer :: others)
        | none => false

namespace Builder

/-- Whether the cursor's container and the containers around it have the given kinds, nearest
first. -/
def isIn (builder : Builder) (kinds : List NodeKind) : Bool :=
  builder.tree.pathIs builder.cursor kinds

def moveUp (builder : Builder) (levels : Nat) : Except TreeError Builder :=
  match builder.tree.ancestor builder.cursor levels with
  | some target => builder.moveTo target
  | none => .error (.noSuchAncestor levels builder.cursorKind)

/-- The cursor goes up to a container of a given kind. -/
def moveUpTo (builder : Builder) (levels : Nat) (expected : NodeKind) : Except TreeError Builder :=
  match builder.tree.ancestor builder.cursor levels with
  | some target =>
      if builder.tree.kind target = expected then builder.moveTo target
      else .error (.ancestorMismatch levels expected (some (builder.tree.kind target)))
  | none => .error (.ancestorMismatch levels expected none)

/-! ### What the cursor's container holds -/

def hasContent (builder : Builder) : Bool :=
  builder.tree.hasContent builder.cursor

def hasMeaningfulContent (builder : Builder) : Bool :=
  builder.tree.hasMeaningfulContent builder.cursor

def isEmpty (builder : Builder) : Bool :=
  (builder.tree.children builder.cursor).isEmpty

def firstContent? (builder : Builder) : Option NodeId :=
  (builder.tree.contentChildren builder.cursor).head?

def lastContent? (builder : Builder) : Option NodeId :=
  (builder.tree.contentChildren builder.cursor).getLast?

/-- Whether the last content of the cursor's container has a given kind. -/
def lastContentIs (builder : Builder) (kind : NodeKind) : Bool :=
  match builder.lastContent? with
  | some last => builder.tree.kind last == kind
  | none => false

end Builder

namespace Tree

/-- The text of a keyword node in upper case; keywords of several words have it as an attribute. -/
def keywordText? (tree : Tree) (id : NodeId) : Option String :=
  match tree.kind id with
  | .otherKeyword => some (Text.upper (tree.text id))
  | .compoundKeyword => tree.attributeOf id .simpleText
  | _ => none

def enclosingStatement? (tree : Tree) (id : NodeId) : Option NodeId :=
  (tree.lineage id tree.size).find? fun ancestor => tree.kind ancestor == .statement

/-- The first keyword of a statement. After a list of common table expressions the statement proper
starts in its second clause. -/
def firstKeyword? (tree : Tree) (statement : NodeId) : Option String := do
  let first ← tree.firstSemanticElement statement
  if tree.kind first = .cteWithClause then
    let clause ← (tree.childrenOfKind statement .clause)[1]?
    tree.keywordText? (← tree.firstSemanticElement clause)
  else tree.keywordText? first

end Tree

namespace Builder

/-- The first keyword of the statement around the cursor. -/
def statementKeyword? (builder : Builder) : Option String :=
  (builder.tree.enclosingStatement? builder.cursor).bind builder.tree.firstKeyword?

/-- Whether the statement around the cursor starts with one of the given keywords. -/
def statementStartsWith (builder : Builder) (keywords : List String) : Bool :=
  match builder.statementKeyword? with
  | some keyword => keywords.contains keyword
  | none => false

/-- Whether some clause of the statement around the cursor starts with one of the given keywords. -/
def hasClauseStartingWith (builder : Builder) (keywords : List String) : Bool :=
  match builder.tree.enclosingStatement? builder.cursor with
  | none => false
  | some statement =>
      (builder.tree.childrenOfKind statement .clause).any fun clause =>
        match (builder.tree.contentChildren clause).head?.bind builder.tree.keywordText? with
        | some keyword => keywords.contains keyword
        | none => false

end Builder

end SqlLayout
