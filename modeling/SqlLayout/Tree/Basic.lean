import SqlLayout.Token.Basic
import SqlLayout.Tree.Node

/-!
# Trees

A tree is the collection of all nodes ever created, addressed by number. Nodes are never removed:
they are created detached, attached to a parent, and possibly detached and inserted elsewhere.
Parents and children are numbers, so the way up is as cheap as the way down.
-/

namespace SqlLayout

/-- A numbered collection of nodes; node `0` is the root. -/
structure Tree where
  nodes : Array Node
deriving DecidableEq, Repr, Inhabited

/-- A failure of navigation or insertion in a tree. No script leads to one. -/
inductive TreeError where
  /-- The ancestor that many levels up is not of the expected kind. -/
  | ancestorMismatch (levels : Nat) (expected : NodeKind) (found : Option NodeKind)
  /-- There are not that many ancestors. -/
  | noSuchAncestor (levels : Nat) (start : NodeKind)
  /-- The cursor was to be set to a node outside the document. -/
  | cursorOutsideTree
  /-- A node was to be inserted before a node that has no parent. -/
  | detachedSibling (sibling : NodeKind)
deriving DecidableEq, Repr, Inhabited

namespace Tree

def empty : Tree :=
  { nodes := #[{ kind := .root, text := "" }] }

def root : NodeId := 0

/-- How many nodes were ever created. -/
def size (tree : Tree) : Nat :=
  tree.nodes.size

/-- The node with a number; numbers that were never given out stand for a blank node. -/
def node (tree : Tree) (id : NodeId) : Node :=
  tree.nodes.getD id default

def contains (tree : Tree) (id : NodeId) : Bool :=
  id < tree.size

def kind (tree : Tree) (id : NodeId) : NodeKind :=
  (tree.node id).kind

def text (tree : Tree) (id : NodeId) : String :=
  (tree.node id).text

def parent (tree : Tree) (id : NodeId) : Option NodeId :=
  (tree.node id).parent

def children (tree : Tree) (id : NodeId) : List NodeId :=
  (tree.node id).children

def attributeOf (tree : Tree) (id : NodeId) (key : Attribute) : Option String :=
  (tree.node id).attributes.get? key

def update (tree : Tree) (id : NodeId) (change : Node → Node) : Tree :=
  { nodes := tree.nodes.modify id change }

def setAttribute (tree : Tree) (id : NodeId) (key : Attribute) (value : String) : Tree :=
  tree.update id fun node => { node with attributes := node.attributes.set key value }

/-- Whether the document needed error recovery. -/
def hasError (tree : Tree) : Bool :=
  tree.attributeOf root .errorFound == some "1"

/-! ### Growth -/

/-- A new detached node, and its number. -/
def create (tree : Tree) (kind : NodeKind) (text : String) : Tree × NodeId :=
  let id := tree.size
  ({ nodes := tree.nodes.push { kind, text } }, id)

/-- A detached node becomes the last child of a parent. -/
def attach (tree : Tree) (parent child : NodeId) : Tree :=
  (tree.update child fun node => { node with parent := some parent }).update parent fun node =>
    { node with children := node.children ++ [child] }

/-- A new last child of a parent, and its number. -/
def append (tree : Tree) (parent : NodeId) (kind : NodeKind) (text : String) : Tree × NodeId :=
  let (tree, id) := tree.create kind text
  (tree.attach parent id, id)

/-- A list with an element put in front of the first occurrence of another. -/
def insertInto (element sibling : NodeId) : List NodeId → List NodeId
  | [] => []
  | id :: rest =>
    if id = sibling then element :: id :: rest else id :: insertInto element sibling rest

/-- A detached node goes right before a node that has a parent. -/
def insertBefore (tree : Tree) (id sibling : NodeId) : Except TreeError Tree :=
  match tree.parent sibling with
  | some parent =>
      if (tree.children parent).contains sibling then
        .ok ((tree.update id fun node => { node with parent := some parent }).update parent
          fun node => { node with children := insertInto id sibling node.children })
      else .error (.detachedSibling (tree.kind sibling))
  | none => .error (.detachedSibling (tree.kind sibling))

def detach (tree : Tree) (id : NodeId) : Tree :=
  match tree.parent id with
  | some parent =>
      (tree.update id fun node => { node with parent := none }).update parent fun node =>
        { node with children := node.children.filter (· != id) }
  | none => tree

/-! ### Navigation -/

/-- The ancestor that many levels up; zero levels up is the node itself. -/
def ancestor (tree : Tree) (id : NodeId) : Nat → Option NodeId
  | 0 => some id
  | levels + 1 =>
      match tree.parent id with
      | some parent => tree.ancestor parent levels
      | none => none

/-- Whether there is an ancestor that many levels up and it has a given kind. -/
def ancestorIs (tree : Tree) (id : NodeId) (levels : Nat) (kind : NodeKind) : Bool :=
  match tree.ancestor id levels with
  | some ancestor => tree.kind ancestor == kind
  | none => false

/-- A node and its ancestors, nearest first, as far as `bound` of them. -/
def lineage (tree : Tree) (id : NodeId) : Nat → List NodeId
  | 0 => []
  | bound + 1 =>
      match tree.parent id with
      | some parent => id :: tree.lineage parent bound
      | none => [id]

/-- Whether a node's ancestry reaches the root. -/
def isAttached (tree : Tree) (id : NodeId) : Bool :=
  (tree.lineage id tree.size).contains root

def firstChild (tree : Tree) (id : NodeId) : Option NodeId :=
  (tree.children id).head?

def lastChild (tree : Tree) (id : NodeId) : Option NodeId :=
  (tree.children id).getLast?

/-- The element right after the first occurrence of another. -/
def successor (id : NodeId) : List NodeId → Option NodeId
  | [] => none
  | other :: rest => if other = id then rest.head? else successor id rest

/-- The element right before the first occurrence of another. -/
def predecessor (id : NodeId) : List NodeId → Option NodeId
  | before :: after :: rest =>
      if before = id then none
      else if after = id then some before
      else predecessor id (after :: rest)
  | _ => none

def nextSibling (tree : Tree) (id : NodeId) : Option NodeId :=
  (tree.parent id).bind fun parent => successor id (tree.children parent)

def previousSibling (tree : Tree) (id : NodeId) : Option NodeId :=
  (tree.parent id).bind fun parent => predecessor id (tree.children parent)

def childrenOfKind (tree : Tree) (id : NodeId) (kind : NodeKind) : List NodeId :=
  (tree.children id).filter fun child => tree.kind child == kind

def childOfKind (tree : Tree) (id : NodeId) (kind : NodeKind) : Option NodeId :=
  (tree.childrenOfKind id kind).head?

def contentChildren (tree : Tree) (id : NodeId) : List NodeId :=
  (tree.children id).filter fun child => !(tree.kind child).isTrivia

def hasContent (tree : Tree) (id : NodeId) : Bool :=
  !(tree.contentChildren id).isEmpty

/-- Whether a node counts when statements are told apart: everything but blanks, comments to the end
of a line, and block comments on one line. -/
def isMeaningful (tree : Tree) (id : NodeId) : Bool :=
  match tree.kind id with
  | .whiteSpace | .lineComment | .slashComment => false
  | .blockComment => containsLineBreak (tree.text id)
  | _ => true

def hasMeaningfulContent (tree : Tree) (id : NodeId) : Bool :=
  (tree.children id).any tree.isMeaningful

/-- The first content below a node, seen through at most `bound` wrappers. -/
def firstContentWithin (tree : Tree) (id : NodeId) : Nat → Option NodeId
  | 0 => none
  | bound + 1 =>
      match (tree.contentChildren id).head? with
      | some first =>
        if (tree.kind first).isWrapper then tree.firstContentWithin first bound else some first
      | none => none

/-- The first content below a node, seen through clauses and the wrappers of data definitions. -/
def firstSemanticElement (tree : Tree) (id : NodeId) : Option NodeId :=
  tree.firstContentWithin id tree.size

end Tree

end SqlLayout
