import SqlLayout.Proofs.Grammar.Document
import SqlLayout.Proofs.Tree.Links

/-!
# Comments that move to a new clause

When a statement or a clause starts behind a clause, exactly the comments on lines of their own at
the end of that clause move, in order, to right before the new one. No other node changes its parent
or its place.
-/

namespace SqlLayout

/-! ### What moves and what stays -/

/-- Blanks and comments behind the last content of a container fall apart where a comment first
starts its line. -/
structure Tree.Parts (tree : Tree) (last : NodeId) (tail kept moving : List NodeId) : Prop where
  whole : tail = kept ++ moving
  /-- What moves begins with a comment right behind a blank with a line break. -/
  starts : ∀ comment ∈ moving.head?, tree.startsLine comment (kept.getLastD last) = true
  /-- In what stays there is no such comment. -/
  stays : ∀ front comment back, kept = front ++ comment :: back →
    tree.startsLine comment (front.getLastD last) = false

/-- Nodes have moved from the end of a container to right before a new clause, and that is all that
has happened to the nodes of a tree. -/
structure Tree.Migrates (tree grown : Tree) (container clause : NodeId)
    (kept moving : List NodeId) :
    Prop where
  isNew : tree.size ≤ clause
  isClause : grown.kind clause = .clause
  keeps : grown.children container = kept
  /-- What has moved comes right before the clause, behind everything that was there. -/
  lands : ∃ parent, grown.parent clause = some parent ∧
    grown.children parent = tree.children parent ++ moving ++ [clause] ∧
    ∀ id ∈ moving, grown.parent id = some parent
  /-- The other nodes keep their parents. -/
  others : ∀ id < tree.size, id ∉ moving → grown.parent id = tree.parent id
  /-- The other containers keep their children, with new nodes and what has moved behind them. -/
  places : ∀ id < tree.size, id ≠ container →
    ∃ added, grown.children id = tree.children id ++ added ∧
    ∀ child ∈ added, child ∈ moving ∨ tree.size ≤ child
  same : ∀ id < tree.size, grown.kind id = tree.kind id ∧ grown.text id = tree.text id ∧
    (grown.node id).attributes = (tree.node id).attributes
  /-- Looking for comments ends by itself: with the new clause in its place and nothing moved yet,
  every bound that is not less than the size of the tree leads to the same tree, from a container
  around the one that is left and then from this one. -/
  settles : ∃ (opened : Tree) (levels : Nat) (around : NodeId),
    tree.ancestor container levels = some around ∧
    opened.size = grown.size ∧ (∀ id < tree.size, opened.parent id = tree.parent id) ∧
    ∀ bound, grown.size ≤ bound → opened.moveOwnLineComments around clause bound = .ok grown ∧
      grown.moveOwnLineComments container clause bound = .ok grown

theorem Tree.parts_splitOwnLine {tree : Tree} {last : Outline} {tail : List Outline}
    (known : ∀ outline ∈ last :: tail, tree.Knows outline) :
    tree.Parts last.id (tail.map Outline.id)
      ((Outline.splitOwnLine last.breaksLine tail).1.map Outline.id)
      ((Outline.splitOwnLine last.breaksLine tail).2.map Outline.id) := by
  induction tail generalizing last with
  | nil => exact ⟨rfl, nofun, by simp [Outline.splitOwnLine]⟩
  | cons first rest ih =>
    have starts := startsLine_eq (known first (by simp)) (known last (by simp))
    rw [Outline.splitOwnLine]
    split
    next breaks => exact ⟨rfl, by simpa using starts.trans breaks, by simp⟩
    next unbroken =>
      obtain ⟨whole, begins, stays⟩ := ih fun outline member => known outline (.tail _ member)
      dsimp only
      rw [List.map_cons, List.map_cons]
      refine ⟨by rw [whole, List.cons_append], fun comment isFirst => ?_,
        fun front comment back parts => ?_⟩
      · rw [List.getLastD_cons]
        exact begins comment isFirst
      · cases front with
        | nil =>
          obtain ⟨rfl, _⟩ := List.cons.inj parts
          exact starts.trans (by simpa using unbroken)
        | cons head front =>
          obtain ⟨rfl, others⟩ := List.cons.inj parts
          rw [List.getLastD_cons]
          exact stays front comment back others

/-! ### Records of a document with a new clause -/

namespace Outline

theorem keys_recordsOfList (outlines : List Outline) (parent other : Option NodeId) :
    (recordsOfList parent outlines).map Prod.fst = (recordsOfList other outlines).map Prod.fst := by
  induction outlines with
  | nil => rfl
  | cons first rest ih =>
    obtain ⟨id, kind, text, attributes, children⟩ := first
    simp [records_node, ih]

theorem records_childless {outline : Outline} (childless : outline.children = [])
    (parent : Option NodeId) : outline.records parent = [(outline.id, outline.stored parent)] := by
  obtain ⟨id, kind, text, attributes, children⟩ := outline
  obtain rfl : children = [] := childless
  rw [records_node, recordsOfList_nil]
  rfl

theorem keys_nest (outlines : List Outline) (opened : List (NodeId × NodeKind))
    (parent : Option NodeId) :
    (recordsOfList parent (Draft.nest outlines opened)).map Prod.fst =
      opened.map Prod.fst ++ (recordsOfList parent outlines).map Prod.fst := by
  induction opened generalizing parent with
  | nil => rfl
  | cons first rest ih =>
    simp [Draft.nest, records_node, ih (some first.1),
      keys_recordsOfList outlines (some first.1) parent]

/-- Outlines in new containers are children of the innermost one. -/
theorem exists_landing (outlines : List Outline) (opened : List (NodeId × NodeKind))
    (parent : NodeId) :
    ∃ landing, recordsOfList (some landing) outlines ⊆
        recordsOfList (some parent) (Draft.nest outlines opened) ∧
      (opened = [] ∧ landing = parent ∨ landing ∈ opened.map Prod.fst ∧ ∃ node,
        (landing, node) ∈ recordsOfList (some parent) (Draft.nest outlines opened) ∧
        node.children = outlines.map Outline.id) := by
  induction opened generalizing parent with
  | nil => exact ⟨parent, List.Subset.refl _, .inl ⟨rfl, rfl⟩⟩
  | cons first rest ih =>
    obtain ⟨landing, inside, place⟩ := ih first.1
    have deeper : recordsOfList (some first.1) (Draft.nest outlines rest) ⊆
        recordsOfList (some parent) (Draft.nest outlines (first :: rest)) := by
      simp [Draft.nest, records_node]
    refine ⟨landing, List.Subset.trans inside deeper, .inr ?_⟩
    rcases place with ⟨rfl, rfl⟩ | ⟨among, node, stored, children⟩
    · simp only [Draft.nest, recordsOfList_cons, records_node]
      exact ⟨.head _, _, .head _, rfl⟩
    · exact ⟨.tail _ among, node, deeper stored, children⟩

end Outline

/-- The nodes of open containers up to a frame do not depend on what the frame holds. -/
theorem Frame.exists_records_append (inside : NodeId) (inner : List Frame) :
    ∃ (below : NodeId → List (NodeId × Node)) (hole : NodeId), ∀ frame outer,
      records inside (inner ++ frame :: outer) =
        below frame.id ++ records hole (frame :: outer) := by
  induction inner generalizing inside with
  | nil => exact ⟨fun _ => [], inside, fun _ _ => rfl⟩
  | cons first rest ih =>
    obtain ⟨below, hole, split⟩ := ih first.id
    refine ⟨fun id => (first.id,
      { kind := first.kind, text := "", attributes := first.attributes
        parent := (rest.head?.map Frame.id).or (some id)
        children := first.before.map Outline.id ++ inside :: first.after.map Outline.id }) ::
      (Outline.recordsOfList (some first.id) first.before ++
        Outline.recordsOfList (some first.id) first.after ++ below id), hole, fun frame outer => ?_⟩
    rw [List.cons_append, records, split]
    cases rest <;> simp

/-- A tree shows a container with what moves at its end, and another tree shows it with that before
a new clause, which stands in new containers behind everything in a frame around the container. -/
structure Draft.Grafts (draft : Draft) (kept moved : List Outline)
    (inner : List Frame) (frame : Frame)
    (outer : List Frame) (opened : List (NodeId × NodeKind)) (clause : NodeId) (tree grown : Tree) :
    Prop where
  old : tree.Shows { draft with children := kept ++ moved, outer := inner ++ frame :: outer }
  new : grown.Shows { draft with
    children := kept
    outer := inner ++ { frame with
      after := frame.after ++ nest (moved ++ [.leaf clause .clause ""]) opened } :: outer }
  childless : ∀ outline ∈ moved, outline.children = []

namespace Draft.Grafts

variable {draft : Draft} {kept moved : List Outline} {inner outer : List Frame} {frame : Frame}
  {id : NodeId} {opened : List (NodeId × NodeKind)} {clause : NodeId} {tree grown : Tree}

theorem old_mem (grafts : draft.Grafts kept moved inner frame outer opened clause tree grown)
    (known : id < tree.size) :
    (id, tree.node id) ∈
      records { draft with children := kept ++ moved, outer := inner ++ frame :: outer } :=
  (Draft.records_perm _).mem_iff.mpr (grafts.old.record_of_lt known)

theorem size_le (grafts : draft.Grafts kept moved inner frame outer opened clause tree grown)
    (isNew : id ∈ opened.map Prod.fst ++ [clause]) : tree.size ≤ id := by
  obtain ⟨below, hole, split⟩ := Frame.exists_records_append draft.id inner
  have distinct := grafts.new.holds.distinct
  refine Nat.le_of_not_lt fun known => ?_
  have member := List.mem_map_of_mem (f := Prod.fst) (grafts.old_mem known)
  simp only [records, split, Frame.records, List.map_cons, List.map_append,
    Outline.recordsOfList_append, Outline.keys_nest,
    Outline.keys_recordsOfList moved (some frame.id) (some draft.id), Outline.recordsOfList_cons,
    Outline.recordsOfList_nil, Outline.records_leaf, List.nodup_cons,
    List.nodup_append, List.append_nil, List.map_nil] at distinct member
  simp only [List.mem_append, List.mem_cons] at distinct member isNew
  grind

theorem node_nest (grafts : draft.Grafts kept moved inner frame outer opened clause tree grown)
    {record : NodeId × Node}
    (member : record ∈ Outline.recordsOfList (some frame.id)
      (nest (moved ++ [.leaf clause .clause ""]) opened)) : grown.node record.1 = record.2 := by
  obtain ⟨below, hole, split⟩ := Frame.exists_records_append draft.id inner
  refine grafts.new.holds.node_eq ?_
  simp only [records, split, Frame.records, Outline.recordsOfList_append, List.mem_cons,
    List.mem_append]
  tauto

theorem node_frame (grafts : draft.Grafts kept moved inner frame outer opened clause tree grown) :
    grown.node frame.id = { tree.node frame.id with
      children := tree.children frame.id ++
        (nest (moved ++ [.leaf clause .clause ""]) opened).map Outline.id } := by
  obtain ⟨below, hole, split⟩ := Frame.exists_records_append draft.id inner
  have before : tree.node frame.id =
      { kind := frame.kind, text := "", attributes := frame.attributes,
        parent := outer.head?.map Frame.id
        children := frame.before.map Outline.id ++ hole :: frame.after.map Outline.id } :=
    grafts.old.holds.node_eq (by rw [records, split]; simp [Frame.records] : (frame.id, _) ∈ _)
  have after : grown.node frame.id =
      { kind := frame.kind, text := "", attributes := frame.attributes,
        parent := outer.head?.map Frame.id
        children := frame.before.map Outline.id ++ hole :: (frame.after ++
          nest (moved ++ [.leaf clause .clause ""]) opened).map Outline.id } :=
    grafts.new.holds.node_eq (by rw [records, split]; simp [Frame.records] : (frame.id, _) ∈ _)
  rw [after, Tree.children, before]
  simp

theorem node_container
    (grafts : draft.Grafts kept moved inner frame outer opened clause tree grown) :
    grown.node draft.id = { tree.node draft.id with children := kept.map Outline.id } := by
  rw [grafts.new.node_id, grafts.old.node_id]
  cases inner <;> rfl

theorem exists_parent
    (grafts : draft.Grafts kept moved inner frame outer opened clause tree grown) :
    ∃ parent, grown.parent clause = some parent ∧ grown.kind clause = .clause ∧
      grown.children parent = tree.children parent ++ moved.map Outline.id ++ [clause] ∧
      ∀ outline ∈ moved, grown.node outline.id =
        { tree.node outline.id with parent := some parent } := by
  obtain ⟨landing, lands, place⟩ :=
    Outline.exists_landing (moved ++ [.leaf clause .clause ""]) opened frame.id
  have isClause : grown.node clause = { kind := .clause, text := "", parent := some landing } :=
    grafts.node_nest (lands (by simp) : (clause, _) ∈ _)
  refine ⟨landing, by rw [Tree.parent, isClause], by rw [Tree.kind, isClause], ?_,
    fun outline among => ?_⟩
  · rcases place with ⟨rfl, rfl⟩ | ⟨isNew, node, stored, children⟩
    · rw [Tree.children, grafts.node_frame]
      simp [nest]
    · have old : tree.children landing = [] := by
        rw [Tree.children, Tree.node_of_le (grafts.size_le (List.mem_append_left _ isNew))]
        rfl
      rw [Tree.children, grafts.node_nest stored, children, old]
      simp
  · have childless := grafts.childless outline among
    have before : tree.node outline.id = outline.stored (some draft.id) :=
      grafts.old.node_of_mem (List.mem_append_right _ among)
    have after : grown.node outline.id = outline.stored (some landing) := by
      refine grafts.node_nest (lands ?_ : (outline.id, _) ∈ _)
      refine Outline.mem_recordsOfList.mpr ⟨outline, List.mem_append_left _ among, ?_⟩
      rw [Outline.records_childless childless]
      exact .head _
    rw [after, before]
    rfl

/-- What becomes of a node: only the container, the frame and what moves change. -/
theorem node_cases (grafts : draft.Grafts kept moved inner frame outer opened clause tree grown)
    (known : id < tree.size) :
    id = draft.id ∨ id = frame.id ∨ id ∈ moved.map Outline.id ∨ grown.node id = tree.node id := by
  obtain ⟨below, hole, split⟩ := Frame.exists_records_append draft.id inner
  have stored := grafts.old_mem known
  have stays : (id, tree.node id) ∈ _ → grown.node id = tree.node id := grafts.new.holds.node_eq
  simp only [records, split, Frame.records, Outline.recordsOfList_append, List.mem_cons,
    List.mem_append] at stored stays
  rcases stored with isTop | (inKept | inMoved) | inBelow | isFrame | (inBefore | inAfter) | inOuter
  · exact .inl (Prod.mk.inj isTop).1
  · exact .inr (.inr (.inr (stays (by simp [inKept]))))
  · obtain ⟨outline, among, inside⟩ := Outline.mem_recordsOfList.mp inMoved
    rw [Outline.records_childless (grafts.childless outline among), List.mem_singleton] at inside
    exact .inr (.inr (.inl (List.mem_map.mpr ⟨outline, among, (Prod.mk.inj inside).1.symm⟩)))
  · exact .inr (.inr (.inr (stays (by simp [inBelow]))))
  · exact .inr (.inl (Prod.mk.inj isFrame).1)
  · exact .inr (.inr (.inr (stays (by simp [inBefore]))))
  · exact .inr (.inr (.inr (stays (by simp [inAfter]))))
  · exact .inr (.inr (.inr (stays (by simp [inOuter]))))

theorem size_eq (grafts : draft.Grafts kept moved inner frame outer opened clause tree grown) :
    grown.size = tree.size + opened.length + 1 := by
  obtain ⟨below, hole, split⟩ := Frame.exists_records_append draft.id inner
  have old := grafts.old.holds.complete
  have new := grafts.new.holds.complete
  rw [← List.length_map Prod.fst] at old new
  simp only [records, split, Frame.records, List.map_cons, List.map_append,
    Outline.recordsOfList_append, Outline.keys_nest,
    Outline.keys_recordsOfList moved (some frame.id) (some draft.id), Outline.recordsOfList_cons,
    Outline.recordsOfList_nil, Outline.records_leaf, List.length_append,
    List.length_cons, List.length_map, List.map_nil, List.length_nil] at old new
  omega

theorem parent_eq (grafts : draft.Grafts kept moved inner frame outer opened clause tree grown)
    (known : id < tree.size) (stays : id ∉ moved.map Outline.id) :
    grown.parent id = tree.parent id := by
  rw [Tree.parent, Tree.parent]
  rcases grafts.node_cases known with rfl | rfl | moves | same
  · rw [grafts.node_container]
  · rw [grafts.node_frame]
  · exact absurd moves stays
  · rw [same]

theorem children_eq (grafts : draft.Grafts kept moved inner frame outer opened clause tree grown)
    (known : id < tree.size) (other : id ≠ draft.id) :
    ∃ added, grown.children id = tree.children id ++ added ∧
      ∀ child ∈ added, child ∈ moved.map Outline.id ∨ tree.size ≤ child := by
  rw [Tree.children]
  rcases grafts.node_cases known with isContainer | rfl | moves | same
  · exact absurd isContainer other
  · refine ⟨_, by rw [grafts.node_frame], fun child among => ?_⟩
    cases opened with
    | nil =>
      rw [nest, List.map_append, List.mem_append] at among
      refine among.imp_right fun isClause => grafts.size_le ?_
      simpa using isClause
    | cons first rest =>
      refine .inr (grafts.size_le ?_)
      obtain rfl : child = first.1 := by simpa [nest] using among
      simp
  · obtain ⟨outline, among, rfl⟩ := List.mem_map.mp moves
    obtain ⟨parent, _, _, _, node⟩ := grafts.exists_parent
    exact ⟨[], by rw [node outline among, List.append_nil]; rfl, by simp⟩
  · exact ⟨[], by rw [same, List.append_nil]; rfl, by simp⟩

theorem same (grafts : draft.Grafts kept moved inner frame outer opened clause tree grown)
    (known : id < tree.size) :
    grown.kind id = tree.kind id ∧ grown.text id = tree.text id ∧
      (grown.node id).attributes = (tree.node id).attributes := by
  rw [Tree.kind, Tree.text]
  rcases grafts.node_cases known with rfl | rfl | moves | same
  · simp [grafts.node_container, Tree.kind, Tree.text]
  · simp [grafts.node_frame, Tree.kind, Tree.text]
  · obtain ⟨outline, among, rfl⟩ := List.mem_map.mp moves
    obtain ⟨parent, _, _, _, node⟩ := grafts.exists_parent
    simp [node outline among, Tree.kind, Tree.text]
  · simp [same, Tree.kind, Tree.text]

end Draft.Grafts

/-! ### New statements and clauses -/

namespace Builder

variable {builder begun taken : Builder} {tokens : List Token} {draft other : Draft} {levels : Nat}
  {opened : List (NodeId × NodeKind)} {clause : NodeId}

/-- The comments that leave a container move to the new clause, if nothing but its children leaves
it. -/
theorem Begins.migrates (located : builder.At tokens draft) (above : draft.Above other)
    (whole : draft.children = draft.shed.children ++ draft.shedding)
    (begins : begun.Begins other levels opened clause)
    (stands : taken.Stands
      ((((other.shed.ups (levels + 1)).enters opened).addAll other.shedding).enter
        clause .clause)) :
    builder.tree.Migrates taken.tree draft.id clause (draft.shed.children.map Outline.id)
      (draft.shedding.map Outline.id) := by
  have sound := located.sound
  have regular := sound.regular
  obtain ⟨below, shedding⟩ := above.shed sound
  obtain ⟨more, within, rfl⟩ := above.exists_ups
  obtain ⟨again, withinShed, up⟩ := below.exists_ups
  have length := Draft.length_outer_ups within
  obtain rfl : again = more := by
    have lengthShed := Draft.length_outer_ups withinShed
    rw [← up] at lengthShed
    change (draft.ups more).outer.length = draft.outer.length - again at lengthShed
    change again ≤ draft.outer.length at withinShed
    omega
  have enough : again + levels < draft.outer.length := by
    have := begins.enough
    omega
  obtain ⟨inner, frame, outer, around, isLength⟩ := Draft.exists_frame enough
  have aroundShed : draft.shed.outer = inner ++ frame :: outer := around
  have sum : inner.length + 1 = again + (levels + 1) := by omega
  have childless : ∀ outline ∈ draft.shedding, outline.children = [] := fun outline member =>
    (regular outline (whole ▸ List.mem_append_right _ member)).childless
      (Outline.isTrivia_of_mem_shedList outline member)
  -- The new document, seen from the container.
  have grafts : draft.Grafts draft.shed.children draft.shedding inner frame outer opened clause
      builder.tree taken.tree := by
    refine ⟨?_, ?_, childless⟩
    · rw [← whole, ← around]
      exact located.stands.shown
    · refine stands.shown.of_outline ?_
      rw [shedding, up, ← Draft.ups_add, ← sum, Draft.outline_across aroundShed]
      rfl
  -- The document with the new clause, before anything moves.
  have grows : draft.Grafts draft.children [] inner frame outer opened clause builder.tree
      begun.tree := by
    refine ⟨?_, ?_, nofun⟩
    · rw [List.append_nil, ← around]
      exact located.stands.shown
    · refine begins.stands.shown.of_outline ?_
      rw [← Draft.addAll_nil ((draft.ups again).ups (levels + 1) |>.enters opened),
        ← Draft.ups_add, ← sum, Draft.outline_across around]
      rfl
  obtain ⟨parent, isParent, isClause, children, nodes⟩ := grafts.exists_parent
  refine ⟨grafts.size_le (by simp), isClause, by rw [Tree.children, grafts.node_container],
    ⟨parent, isParent, children, fun id moves => ?_⟩, fun _ known => grafts.parent_eq known,
    fun _ known => grafts.children_eq known, fun _ known => grafts.same known,
    begun.tree, again, (draft.ups again).id, located.stands.shown.ancestor_ups within, ?_,
    fun id known => grows.parent_eq known (by simp), fun bound large => ⟨?_, ?_⟩⟩
  · obtain ⟨outline, among, rfl⟩ := List.mem_map.mp moves
    rw [Tree.parent, nodes outline among]
  · rw [grows.size_eq, grafts.size_eq]
  · have shown : begun.tree.Shows
        (((((draft.ups again).ups (levels + 1)).enters opened).addAll []).enter
          clause .clause) := by
      rw [Draft.addAll_nil]
      exact begins.stands.shown
    have large : begun.tree.size ≤ bound := by rwa [grows.size_eq, ← grafts.size_eq]
    obtain ⟨grown, moved, _, shown⟩ :=
      shown.moveOwnLineComments begins.enough (sound.ups again).regular large
    rw [moved, shown.eq_of_outline stands.shown rfl]
  · have shown := stands.shown
    rw [shedding, up, ← Draft.ups_add, ← Nat.add_assoc] at shown
    have room : again + levels < draft.shed.outer.length := enough
    obtain ⟨grown, moved, _, final⟩ := shown.moveOwnLineComments room sound.shed.regular large
    rw [(Draft.shed_shed draft).1, (Draft.shed_shed draft).2, List.append_nil] at final
    exact moved.trans (by rw [final.eq_of_outline shown rfl])

theorem Stands.leave_eq (stands : builder.Stands draft) (isClause : draft.kind = .clause) :
    builder.leaveBetween = .ok builder ∧ builder.leaveSelectionTarget = .ok builder ∧
      builder.leaveJoinCondition = .ok builder ∧ builder.leavePartialStatement = .ok builder := by
  have notIn : ∀ kind kinds, kind ≠ .clause → builder.isIn (kind :: kinds) = false := by
    intro kind kinds other
    rw [stands.isIn_eq (List.cons_ne_nil _ _), Draft.path, isClause, List.isPrefixOf_cons_cons,
      beq_eq_false_iff_ne.mpr other, Bool.false_and]
  simp [Builder.leaveBetween, Builder.leaveSelectionTarget, Builder.leaveJoinCondition,
    Builder.leavePartialStatement, ok_bind, notIn]

/-- A statement starts behind a clause: the comments at the end of the clause move, or no statement
can start and the tree stays as it is. -/
theorem At.considerStatement_migrates (located : builder.At tokens draft) (isOpen : draft.IsOpen)
    (isClause : draft.kind = .clause)
    (whole : draft.children = draft.shed.children ++ draft.shedding) :
    ∃ next, builder.considerStatement = .ok next ∧ (next.tree = builder.tree ∨
      builder.tree.Migrates next.tree draft.id next.cursor (draft.shed.children.map Outline.id)
        (draft.shedding.map Outline.id)) := by
  obtain ⟨between, selection, join, _⟩ := located.stands.leave_eq isClause
  obtain ⟨left, _, other, isOk, escapes, built,
      ⟨rfl, stands⟩ | ⟨cursor, target, levels, opened, clause, rfl,
    begins⟩⟩ := located.beginsStatement isOpen
  all_goals
    rw [Builder.considerStatement]
    simp only [between, selection, join, ok_bind, isOk]
  · exact ⟨left, rfl, .inl (stands.shown.eq_of_outline located.stands.shown escapes.above.outline)⟩
  · obtain ⟨taken, both, final⟩ := begins.takeComments escapes.above located.sound built
    rw [← located.stands.cursor, ← cursor] at both
    have isCursor : taken.cursor = clause := final.stands.cursor
    exact ⟨taken, both, .inr (isCursor ▸ begins.migrates located escapes.above whole final.stands)⟩

/-- A clause starts behind one with content: the comments at the end of that move. -/
theorem At.considerClause_migrates (located : builder.At tokens draft) (isOpen : draft.IsOpen)
    (isClause : draft.kind = .clause) (content : builder.hasContent = true)
    (whole : draft.children = draft.shed.children ++ draft.shedding) :
    ∃ next, builder.considerClause = .ok next ∧
      builder.tree.Migrates next.tree draft.id next.cursor (draft.shed.children.map Outline.id)
        (draft.shedding.map Outline.id) := by
  obtain ⟨between, selection, join, part⟩ := located.stands.leave_eq isClause
  have parent : builder.tree.parent builder.cursor = some draft.up.id := by
    rw [located.stands.cursor, located.stands.shown.parent_up (isOpen.enclosed located.sound)]
  obtain ⟨grown, moved, clause, saved, movedTo, begins⟩ := located.beginsClause isOpen isClause
  obtain ⟨taken, both, final⟩ := begins.takeComments .refl located.sound located.built
  rw [if_pos rfl, ← located.stands.cursor] at both
  have isCursor : taken.cursor = clause := final.stands.cursor
  refine ⟨taken, ?_, isCursor ▸ begins.migrates located .refl whole final.stands⟩
  rw [Builder.considerClause]
  simp only [selection, between, part, join, ok_bind, located.stands.cursorKind_eq,
    isClause, content, if_true, parent, saved, movedTo, both]

/-- The states of a builder in which statements and clauses start: between two tokens, and after
containers were left and statements and clauses started for the token in hand. -/
inductive Reached : Builder → Prop where
  | between {list : TokenList} {progress : Progress}
      (advances : (Progress.start list).Advances progress) :
      Reached progress.builder
  | step {builder next : Builder} {operation : Builder → Except TreeError Builder}
      (listed : operation ∈ [leaveBetween, leaveSelectionTarget, leaveJoinCondition,
        leavePartialStatement, considerStatement, considerClause])
      (reached : Reached builder) (isOk : operation builder = .ok next) : Reached next

theorem Reached.at (reached : builder.Reached) :
    ∃ tokens draft, builder.At tokens draft ∧ draft.IsOpen := by
  induction reached with
  | between advances =>
    obtain ⟨tokens, draft, _, located, atRest⟩ := advances.sound (Progress.sound_start _)
    exact ⟨tokens, draft, located, atRest.isOpen⟩
  | @step builder next operation listed _ isOk ih =>
    obtain ⟨tokens, draft, located, isOpen⟩ := ih
    have reaches : Reaches tokens (operation builder) Draft.IsOpen := by
      simp only [List.mem_cons, List.not_mem_nil, or_false] at listed
      rcases listed with rfl | rfl | rfl | rfl | rfl | rfl
      · exact (located.leaveBetween isOpen).imp fun _ escapes => escapes.isOpen
      · exact (located.leaveSelectionTarget isOpen).imp fun _ escapes => escapes.isOpen
      · exact (located.leaveJoinCondition isOpen).imp fun _ escapes => escapes.isOpen
      · exact (located.leavePartialStatement (.inl isOpen)).imp fun _ escapes => escapes.isOpen
      · exact located.considerStatement isOpen
      · exact located.considerClause isOpen
    obtain ⟨_, other, same, located, isOpen⟩ := reaches
    obtain rfl := Except.ok.inj (isOk.symm.trans same)
    exact ⟨tokens, other, located, isOpen⟩

theorem shed_eq_split {before tail : List Outline} {last : Outline}
    (children : draft.children = before ++ last :: tail) (content : last.kind.isTrivia = false)
    (text : last.text ≠ "") (trivia : ∀ outline ∈ tail, outline.kind.isTrivia = true) :
    draft.shed.children = before ++ last :: (Outline.splitOwnLine last.breaksLine tail).1 ∧
      draft.shedding = (Outline.splitOwnLine last.breaksLine tail).2 := by
  have hides : last.mayHide tail = false := by simp [Outline.mayHide, text]
  rw [Draft.shed, Draft.shedding, children, Outline.shedList_before content,
    Outline.shedList_stop (Outline.anyContent_eq_false trivia) hides]
  exact ⟨rfl, rfl⟩

/-- When a statement or a clause starts behind a clause whose content ends in a text, exactly the
blanks and comments from the first comment on that starts its line move to right before the new
clause. -/
theorem Reached.considers_migrate (reached : builder.Reached)
    (inClause : builder.isIn [.clause, .statement] = true) {front tail : List NodeId}
    {last : NodeId} (children : builder.tree.children builder.cursor = front ++ last :: tail)
    (content : (builder.tree.kind last).isTrivia = false) (text : builder.tree.text last ≠ "")
    (trivia : ∀ id ∈ tail, (builder.tree.kind id).isTrivia = true) :
    ∃ kept moving, builder.tree.Parts last tail kept moving ∧
      (∃ next, builder.considerStatement = .ok next ∧ (next.tree = builder.tree ∨
        builder.tree.Migrates next.tree builder.cursor next.cursor
          (front ++ last :: kept) moving)) ∧
      ∃ next, builder.considerClause = .ok next ∧
        builder.tree.Migrates next.tree builder.cursor next.cursor
          (front ++ last :: kept) moving := by
  obtain ⟨tokens, draft, located, isOpen⟩ := reached.at
  have shown := located.stands.shown
  obtain ⟨_, path⟩ := (located.isIn_iff (List.cons_ne_nil _ _)).mp inClause
  have isClause : draft.kind = .clause := Draft.kind_eq path
  rw [located.stands.cursor] at children ⊢
  have hasContent : builder.hasContent = true := by
    have listed : last ∈ builder.tree.contentChildren builder.cursor := by
      rw [Tree.contentChildren, located.stands.cursor, children]
      simp [content]
    rw [Builder.hasContent, Tree.hasContent, Bool.not_eq_true', List.isEmpty_eq_false_iff]
    exact List.ne_nil_of_mem listed
  -- The same children as outlines.
  obtain ⟨before, rest, isChildren, rfl, isRest⟩ :=
    List.map_eq_append_iff.mp (shown.children_id.symm.trans children)
  obtain ⟨final, behind, rfl, rfl, rfl⟩ := List.map_eq_cons_iff.mp isRest
  have known : ∀ outline ∈ final :: behind, builder.tree.Knows outline := fun outline member =>
    shown.knows outline (isChildren ▸ List.mem_append_right _ member)
  have knownFinal := known final (.head _)
  obtain ⟨keeps, leaves⟩ := shed_eq_split isChildren (knownFinal.1 ▸ content) (knownFinal.2 ▸ text)
    fun outline member => (known outline (.tail _ member)).1 ▸ trivia _ (List.mem_map_of_mem member)
  have whole : draft.children = draft.shed.children ++ draft.shedding := by
    rw [keeps, leaves, isChildren, List.append_assoc, List.cons_append, Outline.splitOwnLine_append]
  refine ⟨_, _, Tree.parts_splitOwnLine known, ?_, ?_⟩
  · simpa [keeps, leaves] using located.considerStatement_migrates isOpen isClause whole
  · simpa [keeps, leaves] using located.considerClause_migrates isOpen isClause hasContent whole

/-- A query in the body of an `IF` with two comments behind it, the last of them on a line of its
own. -/
def commentedBranch : TokenList :=
  .ofText "IF a SELECT b -- one\n\n-- two\n"

/-- Behind the query the last comment moves. If a statement starts, the cursor has left the body, so
that comments are looked for around it first and then in the clause of the query. -/
theorem Reached.considers_migrate_commentedBranch :
    ∃ builder next opened : Builder, builder.Reached ∧ builder.cursor = 12 ∧
      builder.tree.children 12 = [13, 14, 15, 16, 17, 18, 19] ∧
      (∃ left, builder.nextStatementContainer false = .ok (left, some 0) ∧ left.cursor = 2) ∧
      builder.considerStatement = .ok next ∧ next.cursor = 21 ∧
      builder.tree.Migrates next.tree 12 21 [13, 14, 15, 16, 17, 18] [19] ∧
      builder.considerClause = .ok opened ∧ opened.cursor = 20 ∧
      builder.tree.Migrates opened.tree 12 20 [13, 14, 15, 16, 17, 18] [19] := by
  obtain ⟨last, _, advances, isLast, _⟩ := Progress.exists_last commentedBranch
  have read : Builder.start.readAll none commentedBranch.tokens = .ok last.builder :=
    advances.readAll.trans (by rw [isLast, Builder.readAll])
  have seen : ((Builder.start.readAll none commentedBranch.tokens).map fun builder =>
      (builder.cursor, builder.isIn [.clause, .statement], builder.tree.children 12,
        (builder.tree.kind 15).isTrivia, builder.tree.text 15,
        [16, 17, 18, 19].all fun id => (builder.tree.kind id).isTrivia)) =
      .ok (12, true, [13, 14, 15, 16, 17, 18, 19], false, "b", true) := by
    decide +kernel
  have left : ((Builder.start.readAll none commentedBranch.tokens).bind fun builder =>
      (builder.nextStatementContainer false).map fun next => (next.1.cursor, next.2)) =
      .ok (2, some 0) := by
    decide +kernel
  have afterStatement : ((Builder.start.readAll none commentedBranch.tokens).bind fun builder =>
      builder.considerStatement.map fun next => (next.cursor, next.tree.children 12)) =
      .ok (21, [13, 14, 15, 16, 17, 18]) := by
    decide +kernel
  have afterClause : ((Builder.start.readAll none commentedBranch.tokens).bind fun builder =>
      builder.considerClause.map fun next => next.cursor) = .ok 20 := by
    decide +kernel
  rw [read] at seen left afterStatement afterClause
  obtain ⟨cursor, inClause, children, content, text, trivia⟩ : _ ∧ _ ∧ _ ∧ _ ∧ _ ∧ _ := by
    simpa only [Except.map, Except.ok.injEq, Prod.mk.injEq] using seen
  have parts : last.builder.tree.children last.builder.cursor =
      [13, 14] ++ 15 :: [16, 17, 18, 19] :=
    cursor ▸ children
  obtain ⟨kept, moving, ⟨whole, _, _⟩, ⟨next, isOk, migrates⟩, opened, isOpened, migratesToo⟩ :=
    considers_migrate (.between advances) inClause parts content (by simp [text])
      (List.all_eq_true.mp trivia)
  obtain ⟨isNext, keeps⟩ : next.cursor = 21 ∧ next.tree.children 12 = [13, 14, 15, 16, 17, 18] := by
    simpa [Except.bind, Except.map, isOk] using afterStatement
  have isCursor : opened.cursor = 20 := by
    simpa [Except.bind, Except.map, isOpened] using afterClause
  rw [cursor, isNext] at migrates
  rw [cursor, isCursor] at migratesToo
  replace migrates := migrates.resolve_left fun same => by simp [same, children] at keeps
  obtain rfl : kept = [16, 17, 18] := by simpa [keeps] using migrates.keeps.symm
  obtain rfl : moving = [19] := by simpa using whole.symm
  refine ⟨last.builder, next, opened, .between advances, cursor, children, ?_, isOk,
    isNext, migrates, isOpened, isCursor, migratesToo⟩
  cases found : last.builder.nextStatementContainer false with
  | error error => simp [Except.bind, Except.map, found] at left
  | ok result =>
    obtain ⟨isLeft, isRoot⟩ : result.1.cursor = 2 ∧ result.2 = some 0 := by
      simpa [Except.bind, Except.map, found] using left
    exact ⟨result.1, by rw [← isRoot], isLeft⟩

end Builder

end SqlLayout
