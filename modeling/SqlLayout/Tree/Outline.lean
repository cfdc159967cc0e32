import SqlLayout.Tree.Basic

/-!
# Outlines

An outline is a tree in nested form, as its readers want it: a node together with the outlines of
its children. It keeps the node numbers, so that a place in the outline is a place in the tree.
-/

namespace SqlLayout

/-- A node with everything below it. -/
inductive Outline where
  | node (id : NodeId) (kind : NodeKind) (text : String) (attributes : Attributes)
      (children : List Outline)
deriving Repr, Inhabited

namespace Outline

def id : Outline → NodeId
  | node id _ _ _ _ => id

def kind : Outline → NodeKind
  | node _ kind _ _ _ => kind

def text : Outline → String
  | node _ _ text _ _ => text

def attributes : Outline → Attributes
  | node _ _ _ attributes _ => attributes

def children : Outline → List Outline
  | node _ _ _ _ children => children

/-- Whether some child is neither a blank nor a comment. -/
def hasContent (outline : Outline) : Bool :=
  outline.children.any fun child => !child.kind.isTrivia

/-- A line of a listing: a node and how deep it lies. -/
structure Row where
  depth : Nat
  kind : NodeKind
  text : String
  attributes : Attributes
deriving DecidableEq, Repr, Inhabited

mutual

def rows (depth : Nat) : Outline → List Row
  | node _ kind text attributes children =>
      { depth, kind, text, attributes } :: rowsOfList (depth + 1) children

def rowsOfList (depth : Nat) : List Outline → List Row
  | [] => []
  | first :: rest => rows depth first ++ rowsOfList depth rest

end

mutual

/-- The first content below an outline, seen through clauses and the wrappers of data
definitions. -/
def firstSemanticElement : Outline → Option Outline
  | node _ _ _ _ children => firstSemanticOfList children

/-- The first content among sibling outlines, seen through wrappers. -/
def firstSemanticOfList : List Outline → Option Outline
  | [] => none
  | first :: rest =>
      if first.kind.isTrivia then firstSemanticOfList rest
      else if first.kind.isWrapper then firstSemanticElement first
      else some first

end

end Outline

namespace Tree

/-- The outline of a node to a depth of `bound` levels. -/
def outlineWithin (tree : Tree) : Nat → NodeId → Outline
  | 0, id => .node id (tree.kind id) (tree.text id) (tree.node id).attributes []
  | bound + 1, id =>
      .node id (tree.kind id) (tree.text id) (tree.node id).attributes
        ((tree.children id).map (tree.outlineWithin bound))

/-- The outline of a node. A tree is never deeper than it has nodes. -/
def outline (tree : Tree) (id : NodeId) : Outline :=
  tree.outlineWithin tree.size id

def rows (tree : Tree) : List Outline.Row :=
  (tree.outline root).rows 0

end Tree

end SqlLayout
