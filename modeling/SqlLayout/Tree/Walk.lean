import SqlLayout.Token.Spelling
import SqlLayout.Tree.Basic

/-!
# Walking a tree

A walk lists the nodes of a document in order, each once when it is entered and once when it is
left. The source text of a document, of a subtree, or of what lies between two leaves is read off
the walk.
-/

namespace SqlLayout

/-- A step of a walk through a document. -/
inductive WalkEvent where
  | enter (id : NodeId)
  | leave (id : NodeId)
deriving DecidableEq, Repr, Inhabited

/-- The source text of a node of a kind, given the text it captured and without its children. -/
def NodeKind.ownText (kind : NodeKind) (text : String) : String :=
  match kind with
  | .lineComment => "--" ++ text
  | .slashComment => "//" ++ text
  | .blockComment => "/*" ++ text ++ "*/"
  | .string => quoteBody "'" '\'' text
  | .nationalString => quoteBody "N'" '\'' text
  | .quotedString => quoteBody "\"" '"' text
  | .bracketName => bracketQuote text
  | kind => if kind.isParens then "(" else text

namespace Tree

/-- At most `bound` events of a walk whose next steps are pending. -/
def walkFrom (tree : Tree) : Nat → List WalkEvent → List WalkEvent
  | 0, _ => []
  | _ + 1, [] => []
  | bound + 1, .leave id :: pending => .leave id :: tree.walkFrom bound pending
  | bound + 1, .enter id :: pending =>
      .enter id ::
        tree.walkFrom bound ((tree.children id).map WalkEvent.enter ++ .leave id :: pending)

/-- The walk through the whole document. A node is entered and left at most once. -/
def walk (tree : Tree) : List WalkEvent :=
  tree.walkFrom (2 * tree.size) [.enter root]

/-! ### Source text -/

/-- The source text that a node contributes before its children. -/
def ownText (tree : Tree) (id : NodeId) : String :=
  (tree.kind id).ownText (tree.text id)

def eventText (tree : Tree) : WalkEvent → String
  | .enter id => tree.ownText id
  | .leave id => if (tree.kind id).isParens then ")" else ""

def renderEvents (tree : Tree) (events : List WalkEvent) : String :=
  String.join (events.map tree.eventText)

/-- The events at the front of a walk while a node is open or the node `id` is entered; `depth`
nodes are open already. -/
def takeOpen (id : NodeId) (depth : Nat) : List WalkEvent → List WalkEvent
  | [] => []
  | .enter other :: rest =>
      if 0 < depth ∨ other = id then .enter other :: takeOpen id (depth + 1) rest else []
  | .leave other :: rest => if 0 < depth then .leave other :: takeOpen id (depth - 1) rest else []

/-- The source text of the subtree under a node. -/
def renderSubtree (tree : Tree) (id : NodeId) : String :=
  tree.renderEvents (takeOpen id 0 (tree.walk.dropWhile (· != .enter id)))

/-- The source text after the leaf `start` and before the leaf `stop`, or to the end of the
document. -/
def renderBetween (tree : Tree) (start : NodeId) (stop : Option NodeId) : String :=
  let after := (tree.walk.dropWhile (· != .leave start)).drop 1
  tree.renderEvents (after.takeWhile fun event => some event != stop.map WalkEvent.enter)

/-- The source text of the document, after a warning if it needed error recovery. -/
def spelling (tree : Tree) (warning : String) : String :=
  (if tree.hasError then warningLine warning else "") ++ tree.renderEvents tree.walk

end Tree

end SqlLayout
