import SqlLayout.Proofs.Draft.Basic

/-!
# Changes of a stored draft

What the changes of a tree do to the draft that the tree shows. Every change is a sequence of
updates of single nodes (`Tree.Holds.update_head`) and of creations (`Tree.Holds.create`), so each
one is first a statement about the list of stored nodes and then one about the draft.
-/

namespace SqlLayout

variable {id : NodeId}

def Node.addChild (child : NodeId) (node : Node) : Node :=
  { node with children := node.children ++ [child] }

def Node.setAttribute (key : Attribute) (value : String) (node : Node) : Node :=
  { node with attributes := node.attributes.set key value }

/-- A record after a change of the node with a number. -/
def alterAt (id : NodeId) (alter : Node → Node) (record : NodeId × Node) : NodeId × Node :=
  (record.1, if record.1 = id then alter record.2 else record.2)

@[simp]
theorem alterAt_fst (id : NodeId) (alter : Node → Node) (record : NodeId × Node) :
    (alterAt id alter record).1 = record.1 :=
  rfl

theorem map_alterAt_eq_self {records : List (NodeId × Node)} (alter : Node → Node)
    (absent : id ∉ records.map Prod.fst) : records.map (alterAt id alter) = records := by
  induction records with
  | nil => rfl
  | cons first rest ih =>
    simp only [List.map_cons, List.mem_cons, not_or] at absent
    simp [alterAt, ih absent.2, Ne.symm absent.1]

namespace Tree

variable {tree : Tree} {node : Node}

@[simp]
theorem getElem?_update (tree : Tree) (id other : NodeId) (change : Node → Node) :
    (tree.update id change).nodes[other]? =
      if id = other then tree.nodes[other]?.map change else tree.nodes[other]? := by
  simp [update, Array.getElem?_modify]

@[simp]
theorem size_update (tree : Tree) (id : NodeId) (change : Node → Node) :
    (tree.update id change).size = tree.size := by
  simp [update, size]

@[simp]
theorem size_setAttribute (tree : Tree) (id : NodeId) (key : Attribute) (value : String) :
    (tree.setAttribute id key value).size = tree.size := by
  simp [setAttribute]

@[simp]
theorem append_id (tree : Tree) (parent : NodeId) (kind : NodeKind) (text : String) :
    (tree.append parent kind text).2 = tree.size :=
  rfl

theorem node_eq (stored : tree.nodes[id]? = some node) : tree.node id = node := by
  simp [Tree.node, Array.getD_eq_getD_getElem?, stored]

theorem insertInto_append {element sibling : NodeId} {before : List NodeId} (after : List NodeId)
    (absent : sibling ∉ before) :
    insertInto element sibling (before ++ sibling :: after) =
      before ++ element :: sibling :: after := by
  induction before with
  | nil => simp [insertInto]
  | cons first rest ih =>
    simp only [List.mem_cons, not_or] at absent
    simp [insertInto, Ne.symm absent.1, ih absent.2]

namespace Holds

variable {records : List (NodeId × Node)}

theorem lt_size (holds : tree.Holds records) {record : NodeId × Node} (member : record ∈ records) :
    record.1 < tree.size :=
  (Array.getElem?_eq_some_iff.mp (holds.stored record member)).1

theorem node_eq (holds : tree.Holds records) {record : NodeId × Node} (member : record ∈ records) :
    tree.node record.1 = record.2 :=
  Tree.node_eq (holds.stored record member)

theorem update (holds : tree.Holds records) (id : NodeId) (change : Node → Node) :
    (tree.update id change).Holds (records.map (alterAt id change)) where
  stored record member := by
    obtain ⟨source, sourceMem, rfl⟩ := List.mem_map.mp member
    simp only [getElem?_update, alterAt, holds.stored source sourceMem, Option.map_some, eq_comm]
    split <;> rfl
  distinct := by simpa [Function.comp_def] using holds.distinct
  complete := by simpa using holds.complete

theorem update_head (holds : tree.Holds ((id, node) :: records)) (change : Node → Node) :
    (tree.update id change).Holds ((id, change node) :: records) := by
  have apart : id ∉ records.map Prod.fst := (List.nodup_cons.mp holds.distinct).1
  have updated := holds.update id change
  rw [List.map_cons, map_alterAt_eq_self change apart] at updated
  simpa [alterAt] using updated

theorem create (holds : tree.Holds records) (kind : NodeKind) (text : String) :
    (tree.create kind text).1.Holds ((tree.size, { kind, text }) :: records) where
  stored record member := by
    rcases List.mem_cons.mp member with rfl | old
    · simp [Tree.create, Tree.size]
    · have inside : record.1 < tree.nodes.size := holds.lt_size old
      simp [Tree.create, Array.getElem?_push, Nat.ne_of_lt inside, holds.stored record old]
  distinct := by
    refine List.nodup_cons.mpr ⟨fun member => ?_, holds.distinct⟩
    obtain ⟨record, old, same⟩ := List.mem_map.mp member
    exact absurd (holds.lt_size old) (same ▸ Nat.lt_irrefl _)
  complete := by simp [Tree.create, Tree.size, holds.complete]

/-- A new last child: its parent lists it, and no other node changes. -/
theorem append {parent : NodeId} {node : Node} (holds : tree.Holds ((parent, node) :: records))
    (kind : NodeKind) (text : String) :
    (tree.append parent kind text).1.Holds
      ((parent, node.addChild tree.size) :: (tree.size, { kind, text, parent := some parent }) ::
        records) := by
  have created := holds.create kind text
  have below := created.update_head fun node => { node with parent := some parent }
  exact (below.perm (.swap _ _ _)).update_head (Node.addChild tree.size)

/-- A detached node goes right before a sibling: the parent lists it there, and no other node
changes. -/
theorem insertBefore {parent sibling : NodeId} {moved : Node} {front back : List NodeId}
    (holds : tree.Holds ((parent, node) :: (id, moved) :: records))
    (below : tree.parent sibling = some parent)
    (listed : node.children = front ++ sibling :: back) (first : sibling ∉ front) :
    ∃ grown, tree.insertBefore id sibling = .ok grown ∧
      grown.Holds ((parent, { node with children := front ++ id :: sibling :: back }) ::
        (id, { moved with parent := some parent }) :: records) := by
  have among : (tree.children parent).contains sibling = true := by
    have stored : tree.node parent = node := holds.node_eq List.mem_cons_self
    simp [Tree.children, stored, listed]
  simp only [Tree.insertBefore, below, among, if_true]
  refine ⟨_, rfl, ?_⟩
  have attached := (holds.perm (.swap _ _ _)).update_head fun node =>
    { node with parent := some parent }
  have inserted := (attached.perm (.swap _ _ _)).update_head fun node =>
    { node with children := insertInto id sibling node.children }
  rwa [listed, insertInto_append back first] at inserted

theorem detach {parent : NodeId} {moved : Node}
    (holds : tree.Holds ((parent, node) :: (id, moved) :: records))
    (below : moved.parent = some parent) :
    (tree.detach id).Holds ((parent, { node with children := node.children.filter (· != id) }) ::
      (id, { moved with parent := none }) :: records) := by
  have stored : tree.node id = moved :=
    holds.node_eq (List.mem_cons_of_mem _ List.mem_cons_self)
  simp only [Tree.detach, Tree.parent, stored, below]
  have alone := (holds.perm (.swap _ _ _)).update_head fun node => { node with parent := none }
  exact (alone.perm (.swap _ _ _)).update_head fun node =>
    { node with children := node.children.filter (· != id) }

end Holds

end Tree

namespace Frame

theorem keys_perm (inside : NodeId) (outer : List Frame) :
    ((records inside outer).map Prod.fst).Perm
      (outer.map Frame.id ++ outer.flatMap fun frame =>
        (Outline.recordsOfList (some frame.id) frame.before ++
          Outline.recordsOfList (some frame.id) frame.after).map Prod.fst) := by
  induction outer generalizing inside with
  | nil => simp [records]
  | cons frame outer ih =>
    have := ih frame.id
    simp only [records, List.map_cons, List.flatMap_cons, List.map_append, List.cons_append]
    grind

def setAttributes (id : NodeId) (key : Attribute) (value : String) (outer : List Frame) :
    List Frame :=
  outer.map fun frame =>
    if frame.id = id then { frame with attributes := frame.attributes.set key value } else frame

@[simp]
theorem map_id_setAttributes (id : NodeId) (key : Attribute) (value : String) (outer : List Frame) :
    (setAttributes id key value outer).map Frame.id = outer.map Frame.id := by
  simp only [setAttributes, List.map_map, List.map_inj_left, Function.comp_apply]
  intro frame _
  split <;> rfl

@[simp]
theorem map_kind_setAttributes (id : NodeId) (key : Attribute) (value : String)
    (outer : List Frame) :
    (setAttributes id key value outer).map Frame.kind = outer.map Frame.kind := by
  simp only [setAttributes, List.map_map, List.map_inj_left, Function.comp_apply]
  intro frame _
  split <;> rfl

theorem records_setAttributes (key : Attribute) (value : String) (inside : NodeId)
    {outer : List Frame}
    (elsewhere : ∀ frame ∈ outer, id ∉ (Outline.recordsOfList (some frame.id) frame.before ++
      Outline.recordsOfList (some frame.id) frame.after).map Prod.fst) :
    records inside (setAttributes id key value outer) =
      (records inside outer).map (alterAt id (Node.setAttribute key value)) := by
  induction outer generalizing inside with
  | nil => rfl
  | cons frame outer ih =>
    have parent : (setAttributes id key value outer).head?.map Frame.id =
        outer.head?.map Frame.id := by
      rw [← List.head?_map, ← List.head?_map, map_id_setAttributes]
    have held := elsewhere frame List.mem_cons_self
    simp only [List.map_append, List.mem_append, not_or] at held
    have rest := ih frame.id fun other member => elsewhere other (List.mem_cons_of_mem _ member)
    have frames : setAttributes id key value (frame :: outer) =
        (if frame.id = id then { frame with attributes := frame.attributes.set key value }
          else frame) :: setAttributes id key value outer := rfl
    rw [frames]
    split
    next found =>
      subst found
      simp [records, parent, rest, map_alterAt_eq_self _ held.1, map_alterAt_eq_self _ held.2,
        alterAt, Node.setAttribute]
    next other =>
      simp [records, parent, rest, map_alterAt_eq_self _ held.1, map_alterAt_eq_self _ held.2,
        alterAt, other]

end Frame

namespace Draft

/-- The numbers of the open containers, the innermost first. -/
def pathIds (draft : Draft) : List NodeId :=
  draft.id :: draft.outer.map Frame.id

def setAttribute (draft : Draft) (id : NodeId) (key : Attribute) (value : String) : Draft :=
  { draft with
    attributes := if draft.id = id then draft.attributes.set key value else draft.attributes
    outer := Frame.setAttributes id key value draft.outer }

theorem outline_id (draft : Draft) : some draft.outline.id = draft.pathIds.getLast? := by
  have closing : ∀ (outer : List Frame) (inside : Outline),
      some (Frame.plug outer inside).id = (inside.id :: outer.map Frame.id).getLast? := by
    intro outer
    induction outer with
    | nil => simp [Frame.plug]
    | cons frame outer ih =>
      intro inside
      have above := ih (frame.close inside)
      rw [List.map_cons, List.getLast?_cons_cons]
      exact above
  exact closing draft.outer draft.closed

theorem rooted_of_pathIds {draft other : Draft} (rooted : draft.outline.id = Tree.root)
    (same : other.pathIds = draft.pathIds) : other.outline.id = Tree.root := by
  apply Option.some_inj.mp
  rw [outline_id, same, ← outline_id, rooted]

@[simp]
theorem pathIds_setAttribute (draft : Draft) (id : NodeId) (key : Attribute) (value : String) :
    (draft.setAttribute id key value).pathIds = draft.pathIds := by
  simp [pathIds, setAttribute]

@[simp]
theorem path_setAttribute (draft : Draft) (id : NodeId) (key : Attribute) (value : String) :
    (draft.setAttribute id key value).path = draft.path := by
  simp [path, setAttribute]

end Draft

namespace Tree.Shows

variable {tree : Tree} {draft : Draft}

theorem node_id (shown : tree.Shows draft) :
    tree.node draft.id =
      { kind := draft.kind, text := "", attributes := draft.attributes
        parent := draft.outer.head?.map Frame.id, children := draft.children.map Outline.id } :=
  shown.holds.node_eq List.mem_cons_self

theorem rooted_of_pathIds {other : Draft} (shown : tree.Shows draft)
    (same : other.pathIds = draft.pathIds) : other.outline.id = Tree.root :=
  Draft.rooted_of_pathIds shown.rooted same

theorem append (shown : tree.Shows draft) (kind : NodeKind) (text : String) :
    (tree.append draft.id kind text).1.Shows (draft.add (.leaf tree.size kind text)) := by
  refine of_holds ((shown.holds.append kind text).perm ?_) (shown.rooted_of_pathIds rfl)
  simp only [Draft.records, Draft.add, Node.addChild, List.map_append, List.map_cons, List.map_nil,
    Outline.recordsOfList_append, Outline.recordsOfList_cons, Outline.records_leaf,
    Outline.recordsOfList_nil, Outline.leaf_id]
  grind

theorem setOwnAttribute (shown : tree.Shows draft) (key : Attribute) (value : String) :
    (tree.setAttribute draft.id key value).Shows
      { draft with attributes := draft.attributes.set key value } :=
  of_holds (shown.holds.update_head (Node.setAttribute key value)) (shown.rooted_of_pathIds rfl)

/-- The containers in hand and around it are stored apart from everything that is closed. -/
theorem closed_apart (shown : tree.Shows draft) (isOpen : id ∈ draft.pathIds) :
    id ∉ (Outline.recordsOfList (some draft.id) draft.children).map Prod.fst ∧
      ∀ frame ∈ draft.outer, id ∉ (Outline.recordsOfList (some frame.id) frame.before ++
        Outline.recordsOfList (some frame.id) frame.after).map Prod.fst := by
  have keys := Frame.keys_perm draft.id draft.outer
  have distinct := shown.holds.distinct
  simp only [Draft.records, List.map_cons, List.map_append, List.nodup_cons, List.nodup_append,
    keys.nodup_iff, keys.mem_iff, List.mem_append, not_or] at distinct
  rcases distinct with ⟨⟨notHeld, notAround, notBeside⟩, -, ⟨-, -, aroundApart⟩, heldApart⟩
  rcases List.mem_cons.mp isOpen with rfl | around
  · refine ⟨notHeld, fun frame member held => notBeside ?_⟩
    exact List.mem_flatMap.mpr ⟨frame, member, by simpa using held⟩
  · refine ⟨fun held => heldApart id held id (Or.inl around) rfl, fun frame member held => ?_⟩
    exact aroundApart id around id (List.mem_flatMap.mpr ⟨frame, member, by simpa using held⟩) rfl

theorem setAttribute (shown : tree.Shows draft) (isOpen : id ∈ draft.pathIds) (key : Attribute)
    (value : String) :
    (tree.setAttribute id key value).Shows (draft.setAttribute id key value) := by
  obtain ⟨notHeld, elsewhere⟩ := shown.closed_apart isOpen
  refine of_holds ((shown.holds.update id (Node.setAttribute key value)).perm ?_)
    (shown.rooted_of_pathIds (by simp))
  have parent : (Frame.setAttributes id key value draft.outer).head?.map Frame.id =
      draft.outer.head?.map Frame.id := by
    rw [← List.head?_map, ← List.head?_map, Frame.map_id_setAttributes]
  simp only [Draft.records, Draft.setAttribute, parent, List.map_cons, List.map_append,
    map_alterAt_eq_self _ notHeld,
    Frame.records_setAttributes key value draft.id elsewhere, alterAt]
  split <;> exact .refl _

end Tree.Shows

/-! ### Children that move -/

/-- The node of an outline under a parent. -/
def Outline.stored (parent : Option NodeId) (outline : Outline) : Node :=
  { kind := outline.kind, text := outline.text, attributes := outline.attributes, parent
    children := outline.children.map Outline.id }

theorem Outline.records_eq (parent : Option NodeId) (outline : Outline) :
    outline.records parent = (outline.id, outline.stored parent) ::
      recordsOfList (some outline.id) outline.children := by
  cases outline
  exact records_node ..

namespace Draft

def stored (draft : Draft) : Node :=
  { kind := draft.kind, text := "", attributes := draft.attributes
    parent := draft.outer.head?.map Frame.id, children := draft.children.map Outline.id }

theorem records_children (draft : Draft) (front back : List Outline) (child : Outline) :
    { draft with children := front ++ child :: back }.records.Perm
      ((draft.id, { draft with children := front ++ child :: back }.stored) ::
        (child.id, child.stored (some draft.id)) ::
        (Outline.recordsOfList (some child.id) child.children ++
          { draft with children := front ++ back }.records.tail)) := by
  simp only [records, Outline.recordsOfList_append, Outline.recordsOfList_cons, Outline.records_eq,
    List.tail_cons]
  refine .cons _ ?_
  generalize Outline.recordsOfList (some draft.id) front = before
  generalize Outline.recordsOfList (some draft.id) back = after
  grind

theorem child_mem_records (draft : Draft) (front back : List Outline) (child : Outline) :
    (child.id, child.stored (some draft.id)) ∈
      { draft with children := front ++ child :: back }.records :=
  (draft.records_children front back child).mem_iff.mpr
    (List.mem_cons_of_mem _ List.mem_cons_self)

theorem nodup_children (draft : Draft) (distinct : (draft.records.map Prod.fst).Nodup) :
    (draft.children.map Outline.id).Nodup := by
  simp only [records, List.map_cons, List.map_append, List.nodup_cons, List.nodup_append]
    at distinct
  exact distinct.2.1.sublist (Outline.ids_sublist_keys _ _)

end Draft

namespace Tree.Shows

variable {tree : Tree} {draft : Draft}

theorem node_child {front back : List Outline} {child : Outline}
    (shown : tree.Shows { draft with children := front ++ child :: back }) :
    tree.node child.id = child.stored (some draft.id) :=
  shown.holds.node_eq (draft.child_mem_records front back child)

theorem detach {front back : List Outline} {moved : Outline}
    (shown : tree.Shows { draft with children := front ++ moved :: back }) :
    (tree.detach moved.id).Holds
      ({ draft with children := front ++ back }.records ++ moved.records none) := by
  have distinct := Draft.nodup_children _ shown.holds.distinct
  have removed :=
    (shown.holds.perm (draft.records_children front back moved).symm).detach rfl
  have others : (List.map Outline.id (front ++ moved :: back)).filter (· != moved.id) =
      List.map Outline.id (front ++ back) := by
    simp only [List.map_append, List.map_cons, List.nodup_append, List.nodup_cons, List.mem_cons]
      at distinct
    rw [List.map_append, List.map_cons, List.filter_append, List.filter_cons_of_neg (by simp),
      List.filter_eq_self.mpr, List.filter_eq_self.mpr, List.map_append]
    · intro id member
      have apart : id ≠ moved.id := fun same => distinct.2.1.1 (same ▸ member)
      simpa using apart
    · intro id member
      simpa using distinct.2.2 id member moved.id (Or.inl rfl)
  refine removed.perm ?_
  simp only [Draft.stored, others, Outline.records_eq, Outline.stored,
    Draft.records, List.tail_cons, List.cons_append]
  refine .cons _ (List.perm_middle.trans (.cons _ ?_))
  exact List.perm_append_comm

theorem insertBefore {front back : List Outline} {moved sibling : Outline}
    (holds : tree.Holds ({ draft with children := front ++ sibling :: back }.records ++
      moved.records none))
    (rooted : draft.outline.id = Tree.root) :
    ∃ grown, tree.insertBefore moved.id sibling.id = .ok grown ∧
      grown.Shows { draft with children := front ++ moved :: sibling :: back } := by
  have below : tree.parent sibling.id = some draft.id := by
    have stored := holds.node_eq
      (List.mem_append_left _ (draft.child_mem_records front back sibling))
    simp only at stored
    simp [Tree.parent, stored, Outline.stored]
  have distinct := holds.distinct
  rw [List.map_append] at distinct
  have siblings := Draft.nodup_children _ (List.nodup_append.mp distinct).1
  simp only [List.map_append, List.map_cons, List.nodup_append] at siblings
  have first : sibling.id ∉ front.map Outline.id := fun member =>
    siblings.2.2 _ member _ List.mem_cons_self rfl
  rw [Outline.records_eq, Draft.records, List.cons_append] at holds
  obtain ⟨grown, inserted, stored⟩ :=
    (holds.perm (.cons _ List.perm_middle.symm)).insertBefore below (List.map_append ..) first
  refine ⟨grown, inserted, of_holds (stored.perm ?_) (Draft.rooted_of_pathIds rooted rfl)⟩
  refine (draft.records_children front (sibling :: back) moved).trans ?_
  simp only [Draft.stored, List.map_append, List.map_cons, Draft.records, List.tail_cons]
  exact .cons _ (.cons _ List.perm_append_comm)

theorem slip (shown : tree.Shows draft) (enclosed : draft.outer ≠ []) (kind : NodeKind)
    (text : String) :
    ∃ grown, (tree.create kind text).1.insertBefore tree.size draft.id = .ok grown ∧
      grown.Shows (draft.slip (.leaf tree.size kind text)) := by
  obtain ⟨frame, outer, around⟩ := List.exists_cons_of_ne_nil enclosed
  have above := shown.up
  rw [Draft.up_eq around] at above
  have loose := (above.holds.create kind text).perm (List.perm_append_singleton _ _)
  rw [← Outline.records_leaf] at loose
  obtain ⟨grown, inserted, stored⟩ := insertBefore loose (above.rooted_of_pathIds rfl)
  refine ⟨grown, inserted, stored.of_outline ?_⟩
  simp [Draft.slip, around, Draft.outline, Frame.plug, Frame.close, Draft.closed]

end Tree.Shows

end SqlLayout
