import SqlLayout.Proofs.Draft.Built
import SqlLayout.Tree.Walk

/-!
# Reading stored documents

A tree that stores an outline gives the outline back, and a walk through it enters and leaves the
nodes of the outline in document order. Whatever is read off a walk, event by event, is read off the
symbols of the outline.
-/

namespace SqlLayout

def WalkEvent.entered? : WalkEvent → Option NodeId
  | enter id => some id
  | leave _ => none

def Tree.entered (tree : Tree) : List NodeId :=
  tree.walk.filterMap WalkEvent.entered?

namespace Outline

mutual

def events : Outline → List WalkEvent
  | node id _ _ _ children => .enter id :: (eventsOfList children ++ [WalkEvent.leave id])

def eventsOfList : List Outline → List WalkEvent
  | [] => []
  | first :: rest => events first ++ eventsOfList rest

end

@[simp]
theorem eventsOfList_nil : eventsOfList [] = [] := by
  rw [eventsOfList]

@[simp]
theorem eventsOfList_cons (first : Outline) (rest : List Outline) :
    eventsOfList (first :: rest) = events first ++ eventsOfList rest := by
  rw [eventsOfList]

theorem events_node (id : NodeId) (kind : NodeKind) (text : String) (attributes : Attributes)
    (children : List Outline) :
    (node id kind text attributes children).events =
      .enter id :: (eventsOfList children ++ [WalkEvent.leave id]) := by
  rw [events]

theorem records_subset_recordsOfList {outlines : List Outline} {outline : Outline}
    (member : outline ∈ outlines) (parent : Option NodeId) :
    (outline.records parent).Sublist (recordsOfList parent outlines) := by
  obtain ⟨before, after, rfl⟩ := List.append_of_mem member
  rw [recordsOfList_append, recordsOfList_cons]
  exact (List.sublist_append_left _ _).trans (List.sublist_append_right _ _)

theorem length_records_pos (outline : Outline) (parent : Option NodeId) :
    0 < (outline.records parent).length := by
  cases outline
  simp [records_node]

end Outline

namespace Tree

variable {tree : Tree} {parent : Option NodeId} {outline : Outline} {outlines : List Outline}

/-- A tree stores the nodes of an outline under a parent. -/
def Stores (tree : Tree) (parent : Option NodeId) (outline : Outline) : Prop :=
  ∀ record ∈ outline.records parent, tree.nodes[record.1]? = some record.2

theorem Stores.node_eq {id : NodeId} {kind : NodeKind} {text : String} {attributes : Attributes}
    (stored : tree.Stores parent (.node id kind text attributes outlines)) :
    tree.node id = { kind, text, attributes, parent, children := outlines.map Outline.id } := by
  have found := stored _ (by rw [Outline.records_node]; exact .head _)
  simp only at found
  rw [node, Array.getD_eq_getD_getElem?, found, Option.getD_some]

theorem Stores.child {id : NodeId} {kind : NodeKind} {text : String} {attributes : Attributes}
    (stored : tree.Stores parent (.node id kind text attributes outlines)) :
    ∀ child ∈ outlines, tree.Stores (some id) child := by
  intro child member record inside
  refine stored record ?_
  rw [Outline.records_node]
  exact .tail _ ((Outline.records_subset_recordsOfList member _).subset inside)

/-! ### Outlines -/

/-- A tree that stores an outline gives it back, to a depth that is large enough. -/
theorem outlineWithin_eq (stored : tree.Stores parent outline) {bound : Nat}
    (large : (outline.records parent).length ≤ bound + 1) :
    tree.outlineWithin bound outline.id = outline := by
  induction outline generalizing parent bound with
  | node id kind text attributes children ih =>
    have here := stored.node_eq
    rw [Outline.records_node, List.length_cons, Nat.add_le_add_iff_right] at large
    cases bound with
    | zero =>
      -- A child would be one more node than fits.
      obtain rfl : children = [] := by
        cases children with
        | nil => rfl
        | cons first rest =>
          have positive := first.length_records_pos (some id)
          rw [Outline.recordsOfList_cons, List.length_append] at large
          omega
      simp [outlineWithin, Tree.kind, Tree.text, here]
    | succ bound =>
      have below : children.map (tree.outlineWithin bound ∘ Outline.id) = children.map fun child =>
          child :=
        List.map_congr_left fun child member => ih child member (stored.child child member)
          ((Outline.records_subset_recordsOfList member _).length_le.trans large)
      simp [outlineWithin, Tree.kind, Tree.text, Tree.children, here, below]

/-! ### Walks -/

@[simp]
theorem walkFrom_nil (tree : Tree) (bound : Nat) : tree.walkFrom bound [] = [] := by
  cases bound <;> rfl

theorem walkFrom_siblings
    (each : ∀ outline ∈ outlines, ∀ bound pending,
      tree.walkFrom (2 * (outline.records parent).length + bound) (.enter outline.id :: pending) =
        outline.events ++ tree.walkFrom bound pending) (bound : Nat) (pending : List WalkEvent) :
    tree.walkFrom (2 * (Outline.recordsOfList parent outlines).length + bound)
        (outlines.map (fun outline => .enter outline.id) ++ pending) =
      Outline.eventsOfList outlines ++ tree.walkFrom bound pending := by
  induction outlines generalizing bound with
  | nil => simp
  | cons first rest ih =>
    have later := ih (fun outline member => each outline (.tail _ member)) bound
    have room : 2 * (Outline.recordsOfList parent (first :: rest)).length + bound =
        2 * (first.records parent).length +
          (2 * (Outline.recordsOfList parent rest).length + bound) := by
      rw [Outline.recordsOfList_cons, List.length_append]
      omega
    rw [room, List.map_cons, List.cons_append, each first (.head _), later,
      Outline.eventsOfList_cons, List.append_assoc]

/-- A walk passes through a stored outline, with two events for each node. -/
theorem walkFrom_enter (stored : tree.Stores parent outline) (bound : Nat)
    (pending : List WalkEvent) :
    tree.walkFrom (2 * (outline.records parent).length + bound) (.enter outline.id :: pending) =
      outline.events ++ tree.walkFrom bound pending := by
  induction outline generalizing parent bound pending with
  | node id kind text attributes children ih =>
    have room : 2 * ((Outline.node id kind text attributes children).records parent).length +
        bound = 2 * (Outline.recordsOfList (some id) children).length + (bound + 1) + 1 := by
      rw [Outline.records_node, List.length_cons]
      omega
    have inside := walkFrom_siblings
      (fun child member => ih child member (stored.child child member)) (bound + 1)
      (.leave id :: pending)
    have ids : (tree.children id).map WalkEvent.enter =
        children.map fun child => .enter child.id := by
      simp [Tree.children, stored.node_eq]
    rw [room, Outline.node_id, walkFrom, ids, inside, walkFrom, Outline.events_node]
    simp

/-- What is read off a walk, event by event, is read off the symbols. -/
theorem flatMap_events {β : Type} {onEvent : WalkEvent → List β} {onSymbol : Symbol → List β}
    (enters : ∀ id, onEvent (.enter id) = ((tree.kind id).symbols (tree.text id)).flatMap onSymbol)
    (leaves : ∀ id, onEvent (.leave id) = (tree.kind id).ending.flatMap onSymbol)
    (stored : tree.Stores parent outline) :
    outline.events.flatMap onEvent = outline.symbols.flatMap onSymbol := by
  induction outline generalizing parent with
  | node id kind text attributes children ih =>
    have below : ∀ siblings : List Outline, siblings ⊆ children →
        (Outline.eventsOfList siblings).flatMap onEvent =
          (Outline.symbolsOfList siblings).flatMap onSymbol := by
      intro siblings inside
      induction siblings with
      | nil => simp
      | cons first rest rest_ih =>
        obtain ⟨member, others⟩ := List.cons_subset.mp inside
        rw [Outline.eventsOfList_cons, Outline.symbolsOfList_cons, List.flatMap_append,
          List.flatMap_append, ih first member (stored.child first member), rest_ih others]
    have here : tree.kind id = kind ∧ tree.text id = text := by
      simp [Tree.kind, Tree.text, stored.node_eq]
    rw [Outline.events_node, Outline.symbols_node, List.flatMap_cons, List.flatMap_append,
      below children (List.Subset.refl _), enters, here.1, here.2]
    simp [leaves, here.1]

end Tree

namespace Tree.Shows

variable {tree : Tree} {draft : Draft}

theorem stores (shown : tree.Shows draft) : tree.Stores none draft.outline :=
  shown.document.stored

theorem outline_eq (shown : tree.Shows draft) : tree.outline Tree.root = draft.outline := by
  rw [Tree.outline, ← shown.rooted]
  refine Tree.outlineWithin_eq shown.stores ?_
  exact shown.document.complete.le.trans (Nat.le_succ _)

theorem walk_eq (shown : tree.Shows draft) : tree.walk = draft.outline.events := by
  have whole := Tree.walkFrom_enter shown.stores 0 []
  rw [shown.document.complete, Nat.add_zero, shown.rooted, Tree.walkFrom_nil, List.append_nil]
    at whole
  exact whole

/-- What is read off the nodes in document order is read off the symbols, if nothing is read off the
end of a group. -/
theorem flatMap_entered (shown : tree.Shows draft) {β : Type} {onNode : NodeKind → String → List β}
    {onSymbol : Symbol → List β}
    (agrees : ∀ kind text, onNode kind text = (kind.symbols text).flatMap onSymbol)
    (silent : onSymbol .closing = []) :
    tree.entered.flatMap (fun id => onNode (tree.kind id) (tree.text id)) =
      draft.outline.symbols.flatMap onSymbol := by
  rw [Tree.entered, shown.walk_eq, List.filterMap_eq_flatMap_toList, List.flatMap_assoc]
  refine Tree.flatMap_events (fun id => ?_) (fun id => ?_) shown.stores
  · simp [WalkEvent.entered?, agrees]
  · rw [NodeKind.ending]
    split <;> simp [WalkEvent.entered?, silent]

/-- The document needed error recovery if the draft is marked. -/
theorem hasError_iff (shown : tree.Shows draft) : tree.hasError = true ↔ draft.Flagged := by
  have last : ∀ (outer : List Frame) (inside : Outline),
      ((inside.attributes :: outer.map Frame.attributes).getLast?) =
        some (Frame.plug outer inside).attributes := by
    intro outer
    induction outer with
    | nil => intro inside; rfl
    | cons frame outer ih =>
      intro inside
      rw [List.map_cons, List.getLast?_cons_cons]
      exact ih (frame.close inside)
  have here : (tree.node Tree.root).attributes = draft.outline.attributes := by
    have stored := shown.stores
    rw [← shown.rooted]
    cases outline : draft.outline with
    | node id kind text attributes children =>
      rw [outline] at stored
      exact congrArg Node.attributes stored.node_eq
  have marked : draft.Flagged ↔ draft.outline.attributes.get? .errorFound = some "1" := by
    have ending := last draft.outer draft.closed
    rw [Draft.Flagged, show draft.attributes = draft.closed.attributes from rfl, ending]
    simp [Draft.outline]
  rw [Tree.hasError, Tree.attributeOf, here, marked, beq_iff_eq]

end Tree.Shows

end SqlLayout
