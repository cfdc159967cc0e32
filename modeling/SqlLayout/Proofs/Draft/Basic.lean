import SqlLayout.Tree.Outline

/-!
# Drafts

A draft is a document under construction, seen from the container that takes the next node: that
container with what it holds so far, and around it the open containers, each with what it holds
before and after the one that is open inside it. `Tree.Shows` says that a tree stores exactly the
nodes of a draft. Going up in a draft and entering an empty container change the view and not the
tree.
-/

namespace SqlLayout

namespace Outline

def leaf (id : NodeId) (kind : NodeKind) (text : String) : Outline :=
  .node id kind text {} []

/-- What holds of a node whenever it holds of its children holds of every outline. -/
@[elab_as_elim, induction_eliminator]
theorem inductionOnChildren {motive : Outline → Prop}
    (node : ∀ id kind text attributes children,
      (∀ child ∈ children, motive child) → motive (.node id kind text attributes children)) :
    ∀ outline, motive outline
  | .node id kind text attributes children =>
      node id kind text attributes children fun child _ => inductionOnChildren node child
termination_by outline => sizeOf outline
decreasing_by
  have := List.sizeOf_lt_of_mem ‹child ∈ children›
  simp only [Outline.node.sizeOf_spec]
  omega

mutual

/-- The nodes of an outline under a parent, as a tree stores them, each with its number. -/
def records (parent : Option NodeId) : Outline → List (NodeId × Node)
  | node id kind text attributes children =>
      (id, { kind, text, attributes, parent, children := children.map Outline.id }) ::
        recordsOfList (some id) children

def recordsOfList (parent : Option NodeId) : List Outline → List (NodeId × Node)
  | [] => []
  | first :: rest => records parent first ++ recordsOfList parent rest

end

@[simp]
theorem recordsOfList_nil (parent : Option NodeId) : recordsOfList parent [] = [] := by
  rw [recordsOfList]

@[simp]
theorem recordsOfList_cons (parent : Option NodeId) (first : Outline) (rest : List Outline) :
    recordsOfList parent (first :: rest) = records parent first ++ recordsOfList parent rest := by
  rw [recordsOfList]

@[simp]
theorem recordsOfList_append (parent : Option NodeId) (front back : List Outline) :
    recordsOfList parent (front ++ back) =
      recordsOfList parent front ++ recordsOfList parent back := by
  induction front with
  | nil => simp
  | cons first rest ih => simp [ih]

theorem records_node (parent : Option NodeId) (id : NodeId) (kind : NodeKind) (text : String)
    (attributes : Attributes) (children : List Outline) :
    records parent (.node id kind text attributes children) =
      (id, { kind, text, attributes, parent, children := children.map Outline.id }) ::
        recordsOfList (some id) children := by
  rw [records]

@[simp]
theorem records_leaf (parent : Option NodeId) (id : NodeId) (kind : NodeKind) (text : String) :
    records parent (leaf id kind text) = [(id, { kind, text, parent })] := by
  simp [leaf, records_node]

@[simp]
theorem leaf_id (id : NodeId) (kind : NodeKind) (text : String) : (leaf id kind text).id = id :=
  rfl

@[simp]
theorem leaf_kind (id : NodeId) (kind : NodeKind) (text : String) :
    (leaf id kind text).kind = kind :=
  rfl

@[simp]
theorem node_id (id : NodeId) (kind : NodeKind) (text : String) (attributes : Attributes)
    (children : List Outline) : (Outline.node id kind text attributes children).id = id :=
  rfl

@[simp]
theorem node_kind (id : NodeId) (kind : NodeKind) (text : String) (attributes : Attributes)
    (children : List Outline) : (Outline.node id kind text attributes children).kind = kind :=
  rfl

mutual

def nodes : Outline → List Outline
  | node id kind text attributes children =>
      node id kind text attributes children :: nodesOfList children

def nodesOfList : List Outline → List Outline
  | [] => []
  | first :: rest => nodes first ++ nodesOfList rest

end

theorem nodesOfList_eq (outlines : List Outline) :
    nodesOfList outlines = outlines.flatMap nodes := by
  induction outlines with
  | nil => rw [nodesOfList, List.flatMap_nil]
  | cons first rest ih => rw [nodesOfList, List.flatMap_cons, ih]

theorem nodes_eq (outline : Outline) :
    outline.nodes = outline :: outline.children.flatMap nodes := by
  cases outline
  rw [nodes, nodesOfList_eq]
  rfl

theorem ids_sublist_keys (parent : Option NodeId) (outlines : List Outline) :
    (outlines.map Outline.id).Sublist ((recordsOfList parent outlines).map Prod.fst) := by
  induction outlines with
  | nil => simp
  | cons first rest ih =>
    cases first with
    | node id kind text attributes children =>
      rw [recordsOfList_cons, records_node, List.map_append]
      exact ((List.nil_sublist _).cons_cons id).append ih

end Outline

/-- An open container around another one, with what it holds before and after that one. -/
structure Frame where
  id : NodeId
  kind : NodeKind
  attributes : Attributes := {}
  before : List Outline := []
  after : List Outline := []

namespace Frame

def close (frame : Frame) (inside : Outline) : Outline :=
  .node frame.id frame.kind "" frame.attributes (frame.before ++ inside :: frame.after)

/-- Open containers, the innermost first, closed around what is inside them. -/
def plug (outer : List Frame) (inside : Outline) : Outline :=
  outer.foldl (fun inside frame => frame.close inside) inside

/-- The nodes of open containers, the innermost first, around a node with the number `inside`. -/
def records (inside : NodeId) : List Frame → List (NodeId × Node)
  | [] => []
  | frame :: outer =>
      (frame.id,
        { kind := frame.kind, text := "", attributes := frame.attributes
          parent := outer.head?.map Frame.id
          children := frame.before.map Outline.id ++ inside :: frame.after.map Outline.id }) ::
        (Outline.recordsOfList (some frame.id) frame.before ++
          Outline.recordsOfList (some frame.id) frame.after ++ records frame.id outer)

end Frame

/-- A document under construction, seen from the container that takes the next node. -/
structure Draft where
  id : NodeId
  kind : NodeKind
  attributes : Attributes := {}
  /-- What the container holds so far. -/
  children : List Outline := []
  /-- The containers around it, the innermost first. -/
  outer : List Frame := []

namespace Draft

/-- The kinds of the open containers, the innermost first. -/
def path (draft : Draft) : List NodeKind :=
  draft.kind :: draft.outer.map Frame.kind

def closed (draft : Draft) : Outline :=
  .node draft.id draft.kind "" draft.attributes draft.children

/-- The container in hand as a frame around a node that follows what it holds. -/
def frame (draft : Draft) : Frame :=
  { id := draft.id, kind := draft.kind, attributes := draft.attributes, before := draft.children }

def records (draft : Draft) : List (NodeId × Node) :=
  (draft.id,
    { kind := draft.kind, text := "", attributes := draft.attributes
      parent := draft.outer.head?.map Frame.id, children := draft.children.map Outline.id }) ::
    (Outline.recordsOfList (some draft.id) draft.children ++ Frame.records draft.id draft.outer)

/-- The whole document, with every open container closed. -/
def outline (draft : Draft) : Outline :=
  Frame.plug draft.outer draft.closed

/-! ### Changes of the view -/

def add (draft : Draft) (outline : Outline) : Draft :=
  { draft with children := draft.children ++ [outline] }

def addAll (draft : Draft) (outlines : List Outline) : Draft :=
  { draft with children := draft.children ++ outlines }

def enter (draft : Draft) (id : NodeId) (kind : NodeKind) : Draft :=
  { id, kind, outer := draft.frame :: draft.outer }

/-- A new container is opened in the container in hand, in front of nodes that are closed. -/
def beside (draft : Draft) (id : NodeId) (kind : NodeKind) (after : List Outline) : Draft :=
  { id, kind, outer := { draft.frame with after } :: draft.outer }

/-- The container in hand is closed, and the one around it is taken in hand. -/
def up (draft : Draft) : Draft :=
  match draft.outer with
  | [] => draft
  | frame :: outer =>
      { id := frame.id, kind := frame.kind, attributes := frame.attributes
        children := frame.before ++ draft.closed :: frame.after, outer }

def ups (draft : Draft) : Nat → Draft
  | 0 => draft
  | levels + 1 => draft.up.ups levels

def slip (draft : Draft) (outline : Outline) : Draft :=
  match draft.outer with
  | [] => draft
  | frame :: outer =>
      { draft with outer := { frame with before := frame.before ++ [outline] } :: outer }

/-- A closed node is put behind everything in the container around the one in hand. -/
def follow (draft : Draft) (outline : Outline) : Draft :=
  match draft.outer with
  | [] => draft
  | frame :: outer =>
      { draft with outer := { frame with after := frame.after ++ [outline] } :: outer }

end Draft

/-- A tree stores exactly the given nodes, each once and under its number. -/
structure Tree.Holds (tree : Tree) (records : List (NodeId × Node)) : Prop where
  stored : ∀ record ∈ records, tree.nodes[record.1]? = some record.2
  distinct : (records.map Prod.fst).Nodup
  complete : records.length = tree.size

/-- A tree stores exactly the document of a draft. -/
structure Tree.Shows (tree : Tree) (draft : Draft) : Prop where
  document : tree.Holds (draft.outline.records none)
  rooted : draft.outline.id = Tree.root

namespace Draft

variable {draft : Draft}

theorem up_eq {frame : Frame} {outer : List Frame} (around : draft.outer = frame :: outer) :
    draft.up =
      { id := frame.id, kind := frame.kind, attributes := frame.attributes
        children := frame.before ++ draft.closed :: frame.after, outer } := by
  simp [up, around]

@[simp]
theorem path_enter (draft : Draft) (id : NodeId) (kind : NodeKind) :
    (draft.enter id kind).path = kind :: draft.path :=
  rfl

@[simp]
theorem path_add (draft : Draft) (outline : Outline) : (draft.add outline).path = draft.path :=
  rfl

@[simp]
theorem path_addAll (draft : Draft) (outlines : List Outline) :
    (draft.addAll outlines).path = draft.path :=
  rfl

@[simp]
theorem addAll_nil (draft : Draft) : draft.addAll [] = draft := by
  simp [addAll]

theorem path_up (enclosed : draft.outer ≠ []) : draft.up.path = draft.path.tail := by
  obtain ⟨frame, outer, around⟩ := List.exists_cons_of_ne_nil enclosed
  simp [up_eq around, path, around]

@[simp]
theorem up_enter (draft : Draft) (id : NodeId) (kind : NodeKind) :
    (draft.enter id kind).up = draft.add (.leaf id kind "") := by
  simp [up, enter, add, frame, closed, Outline.leaf]

@[simp]
theorem closed_id (draft : Draft) : draft.closed.id = draft.id :=
  rfl

@[simp]
theorem closed_kind (draft : Draft) : draft.closed.kind = draft.kind :=
  rfl

@[simp]
theorem add_id (draft : Draft) (outline : Outline) : (draft.add outline).id = draft.id :=
  rfl

@[simp]
theorem enter_id (draft : Draft) (id : NodeId) (kind : NodeKind) : (draft.enter id kind).id = id :=
  rfl

theorem outline_up (draft : Draft) : draft.up.outline = draft.outline := by
  unfold up
  split
  · rfl
  next frame outer around => simp [outline, Frame.plug, around, closed, Frame.close]

theorem outline_enter (draft : Draft) (id : NodeId) (kind : NodeKind) :
    (draft.enter id kind).outline = (draft.add (.leaf id kind "")).outline := by
  rw [← outline_up, up_enter]

theorem outline_follow (enclosed : draft.outer ≠ []) (outline : Outline) :
    (draft.follow outline).outline = (draft.up.add outline).outline := by
  obtain ⟨frame, outer, around⟩ := List.exists_cons_of_ne_nil enclosed
  rw [← outline_up, up_eq around]
  simp [follow, around, up, add, closed]

theorem records_up (draft : Draft) : draft.up.records.Perm draft.records := by
  unfold up
  split
  · exact .refl _
  next frame outer around =>
    simp only [records, around, Frame.records, Outline.recordsOfList_append,
      Outline.recordsOfList_cons, closed, Outline.records_node, List.head?_cons, Option.map_some,
      List.map_append, List.map_cons, Outline.node_id]
    -- Both sides hold the frame's node, the node in hand, and the same four lists around them.
    grind

/-- The nodes of a draft are those of its document. -/
theorem records_perm (draft : Draft) : draft.records.Perm (draft.outline.records none) := by
  obtain ⟨id, kind, attributes, children, outer⟩ := draft
  induction outer generalizing id kind attributes children with
  | nil => simp [records, outline, Frame.plug, Frame.records, closed, Outline.records_node]
  | cons frame outer ih =>
    have above := ih frame.id frame.kind frame.attributes
      (frame.before ++ Outline.node id kind "" attributes children :: frame.after)
    have here := records_up { id, kind, attributes, children, outer := frame :: outer }
    rw [up_eq rfl] at here
    exact here.symm.trans above

end Draft

namespace Tree.Holds

variable {tree : Tree} {records : List (NodeId × Node)}

theorem perm {others : List (NodeId × Node)} (holds : tree.Holds records)
    (same : others.Perm records) : tree.Holds others where
  stored record member := holds.stored record (same.mem_iff.mp member)
  distinct := (same.map Prod.fst).nodup_iff.mpr holds.distinct
  complete := same.length_eq.trans holds.complete

end Tree.Holds

namespace Tree.Shows

variable {tree : Tree} {draft : Draft}

/-- A tree that shows a draft stores the nodes of the draft. -/
theorem holds (shown : tree.Shows draft) : tree.Holds draft.records :=
  shown.document.perm draft.records_perm

theorem of_holds (holds : tree.Holds draft.records) (rooted : draft.outline.id = Tree.root) :
    tree.Shows draft :=
  ⟨holds.perm draft.records_perm.symm, rooted⟩

theorem of_outline {other : Draft} (shown : tree.Shows draft)
    (same : other.outline = draft.outline) :
    tree.Shows other :=
  ⟨same ▸ shown.document, same ▸ shown.rooted⟩

theorem up (shown : tree.Shows draft) : tree.Shows draft.up :=
  shown.of_outline draft.outline_up

theorem ups (shown : tree.Shows draft) (levels : Nat) : tree.Shows (draft.ups levels) := by
  induction levels generalizing draft with
  | zero => exact shown
  | succ levels ih => exact ih shown.up

theorem enter {id : NodeId} {kind : NodeKind} (shown : tree.Shows (draft.add (.leaf id kind ""))) :
    tree.Shows (draft.enter id kind) :=
  shown.of_outline (draft.outline_enter id kind)

end Tree.Shows

end SqlLayout
