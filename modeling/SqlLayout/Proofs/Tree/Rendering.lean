import SqlLayout.Proofs.Tree.Grown

/-!
# Texts of documents

A walk with a stack of pending steps is the traversal that goes into the children of a node between
entering and leaving it. So the text of a subtree is put together from the texts of the subtrees
below it, and the text of a document is cut at a leaf into what comes before it, the leaf and what
comes behind it.
-/

namespace SqlLayout

variable {outline : Outline}

namespace Outline

theorem eventsOfList_eq (outlines : List Outline) :
    eventsOfList outlines = outlines.flatMap events := by
  induction outlines with
  | nil => rw [eventsOfList_nil, List.flatMap_nil]
  | cons first rest ih => rw [eventsOfList_cons, List.flatMap_cons, ih]

/-- The walk through an outline passes through every part of it. -/
theorem events_of_mem_nodes {part : Outline} (member : part ∈ outline.nodes) :
    ∃ front back, outline.events = front ++ (part.events ++ back) := by
  induction outline with
  | node id kind text attributes children ih =>
    rw [nodes_eq] at member
    rcases List.mem_cons.mp member with rfl | below
    · exact ⟨[], [], by simp⟩
    · obtain ⟨child, among, inside⟩ := List.mem_flatMap.mp below
      obtain ⟨front, back, walked⟩ := ih child among inside
      obtain ⟨before, after, rfl⟩ := List.append_of_mem (show child ∈ children from among)
      refine ⟨.enter id :: (eventsOfList before ++ front),
        back ++ (eventsOfList after ++ [.leave id]), ?_⟩
      rw [events_node, eventsOfList_append, eventsOfList_cons, walked]
      simp

theorem exists_mem_nodes {parent : Option NodeId} {record : NodeId × Node}
    (member : record ∈ outline.records parent) : ∃ part ∈ outline.nodes, part.id = record.1 := by
  induction outline generalizing parent with
  | node id kind text attributes children ih =>
    rw [nodes_eq]
    rw [records_node] at member
    rcases List.mem_cons.mp member with rfl | inside
    · exact ⟨_, .head _, rfl⟩
    · obtain ⟨child, among, below⟩ := mem_recordsOfList.mp inside
      obtain ⟨part, isPart, same⟩ := ih child among below
      exact ⟨part, .tail _ (List.mem_flatMap.mpr ⟨child, among, isPart⟩), same⟩

end Outline

/-! ### Slices of walks -/

namespace WalkEvent

variable {front back : List WalkEvent} {event : WalkEvent}

theorem ne_of_nodup (distinct : (front ++ event :: back).Nodup) :
    ∀ other ∈ front, (other != event) = true := by
  intro other member
  exact bne_iff_ne.mpr ((List.nodup_append.mp distinct).2.2 other member event (.head _))

theorem takeWhile_of_nodup (distinct : (front ++ event :: back).Nodup) :
    (front ++ event :: back).takeWhile (· != event) = front := by
  rw [List.takeWhile_append_of_pos (ne_of_nodup distinct), List.takeWhile_cons_of_neg (by simp),
    List.append_nil]

theorem dropWhile_of_nodup (distinct : (front ++ event :: back).Nodup) :
    (front ++ event :: back).dropWhile (· != event) = event :: back := by
  rw [List.dropWhile_append_of_pos (ne_of_nodup distinct), List.dropWhile_cons_of_neg (by simp)]

end WalkEvent

namespace Tree

variable {id : NodeId} {rest before : List WalkEvent}

theorem takeOpen_eventsOfList {depth : Nat} {outlines : List Outline}
    (each : ∀ outline ∈ outlines, ∀ rest,
      takeOpen id depth (outline.events ++ rest) = outline.events ++ takeOpen id depth rest)
    (rest : List WalkEvent) :
    takeOpen id depth (Outline.eventsOfList outlines ++ rest) =
      Outline.eventsOfList outlines ++ takeOpen id depth rest := by
  induction outlines with
  | nil => simp
  | cons first others ih =>
    obtain ⟨here, later⟩ := List.forall_mem_cons.mp each
    rw [Outline.eventsOfList_cons, List.append_assoc, here, ih later, List.append_assoc]

/-- Inside an open node, the walk through an outline is taken as a whole. -/
theorem takeOpen_events (id : NodeId) {depth : Nat} (isOpen : 0 < depth) (outline : Outline)
    (rest : List WalkEvent) :
    takeOpen id depth (outline.events ++ rest) = outline.events ++ takeOpen id depth rest := by
  induction outline generalizing depth rest with
  | node top kind text attributes children ih =>
    -- Below the top node one more node is open.
    have below := takeOpen_eventsOfList fun child among => ih child among (Nat.succ_pos depth)
    rw [Outline.events_node, List.cons_append, List.append_assoc, takeOpen,
      if_pos (.inl isOpen), below, List.singleton_append, takeOpen, if_pos (Nat.succ_pos depth),
      Nat.succ_sub_one]
    simp

theorem takeOpen_outline (outline : Outline) (apart : .enter outline.id ∉ rest) :
    takeOpen outline.id 0 (outline.events ++ rest) = outline.events := by
  have stops : takeOpen outline.id 0 rest = [] := by
    rcases rest with _ | ⟨id | id, rest⟩
    · rfl
    · have other : id ≠ outline.id := by
        rintro rfl
        exact apart (.head _)
      rw [takeOpen, if_neg (by simp [other])]
    · rfl
  cases outline with
  | node id kind text attributes children =>
    rw [Outline.node_id] at stops ⊢
    have below := takeOpen_eventsOfList fun child (_ : child ∈ children) =>
      takeOpen_events id Nat.one_pos child
    rw [Outline.events_node, List.cons_append, List.append_assoc, takeOpen, if_pos (.inr rfl),
      Nat.zero_add, below, List.singleton_append, takeOpen, if_pos Nat.one_pos, Nat.sub_self, stops]

variable {tree : Tree} {draft : Draft}

theorem Stores.leaves_leaf {parent : Option NodeId} (stored : tree.Stores parent outline)
    {after : List WalkEvent} (walked : outline.events = before ++ .enter id :: after)
    (childless : tree.children id = []) : ∃ rest, after = .leave id :: rest := by
  induction outline generalizing parent before after with
  | node top kind text attributes children ih =>
    have siblings : ∀ outlines ⊆ children, ∀ {before after},
        Outline.eventsOfList outlines = before ++ .enter id :: after →
        ∃ rest, after = .leave id :: rest := by
      intro outlines inside
      induction outlines with
      | nil => simp
      | cons first others later =>
        obtain ⟨member, inside⟩ := List.cons_subset.mp inside
        intro before after walked
        rw [Outline.eventsOfList_cons] at walked
        rcases List.append_eq_append_iff.mp walked with
          ⟨more, rfl, behind⟩ | ⟨more, isFirst, behind⟩
        · exact later inside behind
        · rcases List.cons_eq_append_iff.mp behind with ⟨rfl, isRest⟩ | ⟨more, rfl, rfl⟩
          · exact later inside (isRest.trans (List.nil_append _).symm)
          · obtain ⟨rest, rfl⟩ := ih first member (stored.child first member) isFirst
            exact ⟨_, rfl⟩
    rw [Outline.events_node] at walked
    rcases List.cons_eq_append_iff.mp walked with ⟨rfl, isTop⟩ | ⟨before, rfl, below⟩
    · obtain ⟨same, rfl⟩ := List.cons.inj isTop
      obtain rfl := WalkEvent.enter.inj same
      rw [Tree.children, stored.node_eq, List.map_eq_nil_iff] at childless
      rw [childless]
      exact ⟨_, rfl⟩
    · rcases List.append_eq_append_iff.mp below with
        ⟨more, rfl, behind⟩ | ⟨more, isChildren, behind⟩
      · simp [List.cons_eq_append_iff] at behind
      · rcases List.cons_eq_append_iff.mp behind with ⟨rfl, isLast⟩ | ⟨more, rfl, rfl⟩
        · simp at isLast
        · obtain ⟨rest, rfl⟩ := siblings children (List.Subset.refl _) isChildren
          exact ⟨_, rfl⟩

theorem Stores.of_mem_nodes {parent : Option NodeId} {part : Outline}
    (stored : tree.Stores parent outline) (member : part ∈ outline.nodes) :
    ∃ above, tree.Stores above part ∧
      (part.records above).length ≤ (outline.records parent).length := by
  induction outline generalizing parent with
  | node id kind text attributes children ih =>
    rw [Outline.nodes_eq] at member
    rcases List.mem_cons.mp member with rfl | below
    · exact ⟨parent, stored, Nat.le_refl _⟩
    · obtain ⟨child, (among : child ∈ children), inside⟩ := List.mem_flatMap.mp below
      obtain ⟨above, isStored, fewer⟩ := ih child among (stored.child child among) inside
      have fits := (Outline.records_subset_recordsOfList among (some id)).length_le
      refine ⟨above, isStored, ?_⟩
      rw [Outline.records_node, List.length_cons]
      omega

/-- The steps of a traversal that goes into the children of a node between entering and leaving
it. -/
def traversal (tree : Tree) (id : NodeId) : List WalkEvent :=
  (tree.outline id).events

namespace Shows

/-- The text between a leaf and a later node, or the end of the document, is the text of the steps
between them. -/
theorem renderBetween_of_leaf (shown : tree.Shows draft) {passed : List WalkEvent}
    {start : NodeId} (walked : tree.walk = before ++ .enter start :: (passed ++ rest))
    (childless : tree.children start = []) (plain : (tree.kind start).isParens = false)
    {stop : Option NodeId} (stops : rest.head? = stop.map WalkEvent.enter) :
    tree.renderBetween start stop = tree.renderEvents passed := by
  have silent : tree.eventText (.leave start) = "" := by
    rw [eventText, plain]
    rfl
  have distinct := shown.nodup_walk
  obtain ⟨more, left⟩ := shown.stores.leaves_leaf (shown.walk_eq.symm.trans walked) childless
  obtain ⟨passed, rfl⟩ : ∃ others, passed = .leave start :: others := by
    rcases List.append_eq_cons_iff.mp left with ⟨rfl, isRest⟩ | ⟨others, rfl, _⟩
    · rw [isRest, List.head?_cons] at stops
      cases stop <;> cases stops
    · exact ⟨others, rfl⟩
  have whole : tree.walk = (before ++ [.enter start]) ++ .leave start :: (passed ++ rest) := by
    rw [walked]
    simp
  rw [whole] at distinct
  have apart : ∀ id, .enter id ∈ rest → .enter id ∉ passed := by
    simp only [List.nodup_append, List.nodup_cons, List.mem_append, List.mem_cons] at distinct
    grind
  have after : (tree.walk.dropWhile (· != .leave start)).drop 1 = passed ++ rest := by
    rw [whole, WalkEvent.dropWhile_of_nodup distinct]
    rfl
  have upTo : (passed ++ rest).takeWhile (fun event => some event != stop.map WalkEvent.enter) =
      passed := by
    have taken : ∀ event ∈ passed, (some event != stop.map WalkEvent.enter) = true := by
      intro event member
      rw [bne_iff_ne]
      intro isStop
      obtain ⟨id, rfl, isEvent⟩ := Option.map_eq_some_iff.mp isStop.symm
      exact apart id (List.mem_of_head? stops) (isEvent ▸ member)
    rw [List.takeWhile_append_of_pos taken, ← stops]
    cases rest <;> simp
  rw [renderBetween, after, upTo, renderEvents, renderEvents, List.map_cons,
    String.join_cons, silent, String.empty_append]

/-- The outline of a node is the part of the document with the node on top. -/
theorem outline_of_mem (shown : tree.Shows draft) {part : Outline}
    (member : part ∈ draft.outline.nodes) : tree.outline part.id = part := by
  obtain ⟨above, stored, fewer⟩ := shown.stores.of_mem_nodes member
  refine outlineWithin_eq stored (fewer.trans ?_)
  exact shown.document.complete.le.trans (Nat.le_succ _)

theorem outline_mem (shown : tree.Shows draft) (known : id < tree.size) :
    tree.outline id ∈ draft.outline.nodes := by
  obtain ⟨part, member, rfl⟩ := Outline.exists_mem_nodes (shown.record_of_lt known)
  rwa [shown.outline_of_mem member]

theorem outline_eq_node (shown : tree.Shows draft) (known : id < tree.size) :
    tree.outline id = .node id (tree.kind id) (tree.text id) (tree.node id).attributes
      ((tree.children id).map tree.outline) := by
  obtain ⟨part, member, isTop⟩ := Outline.exists_mem_nodes (shown.record_of_lt known)
  obtain rfl : part.id = id := isTop
  obtain ⟨above, stored, fewer⟩ := shown.stores.of_mem_nodes member
  rw [shown.outline_of_mem member]
  cases part with
  | node id kind text attributes outlines =>
    have below : ∀ child ∈ outlines, tree.outline child.id = child := by
      intro child among
      refine outlineWithin_eq (stored.child child among) ?_
      have fits := (Outline.records_subset_recordsOfList among (some id)).length_le
      rw [shown.document.complete, Outline.records_node, List.length_cons] at fewer
      omega
    have same : (outlines.map Outline.id).map tree.outline = outlines := by
      rw [List.map_map]
      exact (List.map_congr_left below).trans (List.map_id' outlines)
    rw [Outline.node_id, Tree.kind, Tree.text, Tree.children, stored.node_eq, same]

theorem walk_eq_traversal (shown : tree.Shows draft) : tree.walk = tree.traversal root := by
  rw [traversal, shown.outline_eq, shown.walk_eq]

theorem traversal_eq (shown : tree.Shows draft) (known : id < tree.size) :
    tree.traversal id =
      .enter id :: ((tree.children id).flatMap tree.traversal ++ [.leave id]) := by
  rw [traversal, shown.outline_eq_node known, Outline.events_node, Outline.eventsOfList_eq,
    List.flatMap_map]
  rfl

/-- The slice of a walk that renders a subtree is the traversal below its top. -/
theorem renderSubtree_eq (shown : tree.Shows draft) (known : id < tree.size) :
    tree.renderSubtree id = tree.renderEvents (tree.traversal id) := by
  obtain ⟨front, back, walked⟩ := Outline.events_of_mem_nodes (shown.outline_mem known)
  have isTop : (tree.outline id).id = id := by rw [shown.outline_eq_node known]; rfl
  have starts := shown.traversal_eq known
  rw [← shown.walk_eq, show (tree.outline id).events = _ from starts] at walked
  have distinct := shown.nodup_walk
  rw [walked, List.cons_append] at distinct
  have apart : .enter id ∉ back := by
    simp only [List.nodup_append, List.nodup_cons, List.mem_append] at distinct
    grind
  have taken := takeOpen_outline (tree.outline id) (isTop.symm ▸ apart)
  rw [isTop] at taken
  rw [renderSubtree, walked, List.cons_append, WalkEvent.dropWhile_of_nodup distinct,
    ← List.cons_append, ← starts, traversal, taken]

end Shows

/-! ### Texts -/

theorem renderEvents_append (tree : Tree) (front back : List WalkEvent) :
    tree.renderEvents (front ++ back) = tree.renderEvents front ++ tree.renderEvents back := by
  rw [renderEvents, List.map_append, String.join_append, renderEvents, renderEvents]

theorem renderEvents_cons (tree : Tree) (event : WalkEvent) (rest : List WalkEvent) :
    tree.renderEvents (event :: rest) = tree.eventText event ++ tree.renderEvents rest := by
  rw [renderEvents, List.map_cons, String.join_cons, renderEvents]

theorem renderEvents_flatMap (tree : Tree) (steps : NodeId → List WalkEvent) (ids : List NodeId) :
    tree.renderEvents (ids.flatMap steps) =
      String.join (ids.map fun id => tree.renderEvents (steps id)) := by
  induction ids with
  | nil => rfl
  | cons id rest ih =>
    rw [List.flatMap_cons, renderEvents_append, ih, List.map_cons, String.join_cons]

/-- The text of a document up to a node, the text of the node itself included. -/
def renderThrough (tree : Tree) (id : NodeId) : String :=
  tree.renderEvents (tree.walk.takeWhile (· != .enter id)) ++ tree.ownText id

/-- The text of a document from a node on. -/
def renderFrom (tree : Tree) (id : NodeId) : String :=
  tree.renderEvents (tree.walk.dropWhile (· != .enter id))

namespace Shows

theorem lt_of_mem_children (shown : tree.Shows draft) {child : NodeId}
    (among : child ∈ tree.children id) :
    child < tree.size := by
  by_contra unknown
  have isParent := shown.mem_children_iff.mp among
  rw [Tree.parent, node_of_le (Nat.le_of_not_lt unknown)] at isParent
  cases isParent

/-- The text of a subtree is that of its top, those of the subtrees below it and, for a group, its
end. -/
theorem renderSubtree_node (shown : tree.Shows draft) (known : id < tree.size) :
    tree.renderSubtree id =
      tree.ownText id ++ String.join ((tree.children id).map tree.renderSubtree) ++
      if (tree.kind id).isParens then ")" else "" := by
  have below : (tree.children id).map tree.renderSubtree =
      (tree.children id).map fun child => tree.renderEvents (tree.traversal child) :=
    List.map_congr_left fun child among => shown.renderSubtree_eq (shown.lt_of_mem_children among)
  have ending : tree.renderEvents [.leave id] = if (tree.kind id).isParens then ")" else "" := by
    rw [renderEvents_cons]
    exact String.append_empty
  rw [shown.renderSubtree_eq known, shown.traversal_eq known, renderEvents_cons,
    renderEvents_append, renderEvents_flatMap, below, ending, ← String.append_assoc]
  rfl

/-- The text of a document is cut behind a leaf and before any later place. -/
theorem renderEvents_cut (shown : tree.Shows draft) {passed : List WalkEvent} {start : NodeId}
    (walked : tree.walk = before ++ .enter start :: (passed ++ rest))
    (childless : tree.children start = []) (plain : (tree.kind start).isParens = false)
    {stop : Option NodeId} (stops : rest.head? = stop.map WalkEvent.enter) :
    tree.renderEvents tree.walk =
      tree.renderThrough start ++ tree.renderBetween start stop ++ tree.renderEvents rest := by
  have distinct := shown.nodup_walk
  rw [walked] at distinct
  have front : tree.walk.takeWhile (· != .enter start) = before := by
    rw [walked, WalkEvent.takeWhile_of_nodup distinct]
  rw [renderThrough, front, shown.renderBetween_of_leaf walked childless plain stops, walked,
    renderEvents_append, renderEvents_cons, renderEvents_append]
  simp only [String.append_assoc]
  rfl

theorem renderEvents_cut_end (shown : tree.Shows draft) {leaf : NodeId} (known : leaf < tree.size)
    (childless : tree.children leaf = []) (plain : (tree.kind leaf).isParens = false) :
    tree.renderEvents tree.walk = tree.renderThrough leaf ++ tree.renderBetween leaf none := by
  obtain ⟨before, after, walked⟩ := List.append_of_mem (shown.enter_mem_walk known)
  rw [← List.append_nil after] at walked
  have cut : tree.renderEvents tree.walk =
      tree.renderThrough leaf ++ tree.renderBetween leaf none ++ tree.renderEvents [] :=
    shown.renderEvents_cut walked childless plain rfl
  rw [cut]
  exact String.append_empty

theorem renderEvents_cut_later (shown : tree.Shows draft) {leaf later : NodeId}
    (follows : [.enter leaf, .enter later].Sublist tree.walk) (childless : tree.children leaf = [])
    (plain : (tree.kind leaf).isParens = false) :
    tree.renderEvents tree.walk =
      tree.renderThrough leaf ++ tree.renderBetween leaf (some later) ++ tree.renderFrom later := by
  obtain ⟨first, second, walked, inFirst, inSecond⟩ := List.cons_sublist_iff.mp follows
  obtain ⟨before, passed, rfl⟩ := List.append_of_mem inFirst
  obtain ⟨between, after, rfl⟩ := List.append_of_mem (List.singleton_sublist.mp inSecond)
  have split : tree.walk =
      before ++ .enter leaf :: ((passed ++ between) ++ .enter later :: after) := by
    rw [walked]
    simp
  have distinct := shown.nodup_walk
  have skips : tree.walk = (before ++ .enter leaf :: (passed ++ between)) ++
      .enter later :: after := by
    rw [walked]
    simp
  rw [skips] at distinct
  have back : tree.walk.dropWhile (· != .enter later) = .enter later :: after := by
    rw [skips, WalkEvent.dropWhile_of_nodup distinct]
  rw [renderFrom, back]
  exact shown.renderEvents_cut split childless plain rfl

end Shows

/-- In a tree that was made by appending nodes, a walk is the recursive traversal, and the text of a
subtree is put together from the texts of the subtrees below it. The text of the document is cut at
every leaf that is no group: behind it comes the text between it and any later node, or the end. -/
theorem Grown.renders (grown : tree.Grown) :
    tree.walk = tree.traversal root ∧
      (∀ id < tree.size, tree.traversal id =
        .enter id :: ((tree.children id).flatMap tree.traversal ++ [.leave id])) ∧
      (∀ id < tree.size, tree.renderSubtree id =
        tree.ownText id ++ String.join ((tree.children id).map tree.renderSubtree) ++
          if (tree.kind id).isParens then ")" else "") ∧
      ∀ leaf < tree.size, tree.children leaf = [] → (tree.kind leaf).isParens = false →
        tree.renderEvents tree.walk = tree.renderThrough leaf ++ tree.renderBetween leaf none ∧
        ∀ later, [.enter leaf, .enter later].Sublist tree.walk →
          tree.renderEvents tree.walk =
            tree.renderThrough leaf ++ tree.renderBetween leaf (some later) ++
              tree.renderFrom later := by
  obtain ⟨children, shown⟩ := grown.shows
  refine ⟨shown.walk_eq_traversal, fun _ => shown.traversal_eq,
    fun _ => shown.renderSubtree_node, ?_⟩
  intro leaf known childless plain
  exact ⟨shown.renderEvents_cut_end known childless plain, fun later follows =>
    shown.renderEvents_cut_later follows childless plain⟩

/-- A call with a comment in its group and a word behind it. -/
def sampleCall : Tree :=
  let call := (empty.append root .other "f").1
  let group := (call.append root .functionParens "").1
  let noted := (group.append 2 .blockComment "x").1
  (noted.append root .other "y").1

theorem Grown.renders_sampleCall :
    sampleCall.Grown ∧ sampleCall.walk = sampleCall.traversal root ∧
      sampleCall.renderSubtree 2 = "(/*x*/)" ∧
      sampleCall.renderThrough 1 ++ sampleCall.renderBetween 1 (some 3) ++
        sampleCall.renderFrom 3 = "f(/*x*/)y" ∧
      sampleCall.renderThrough 3 ++ sampleCall.renderBetween 3 none = "f(/*x*/)y" := by
  have grown : sampleCall.Grown :=
    .append (.append (.append (.append .empty (by decide) ..) (by decide) ..) (by decide)
      ..) (by decide) ..
  obtain ⟨walked, _, subtree, cuts⟩ := grown.renders
  have whole : sampleCall.renderEvents sampleCall.walk = "f(/*x*/)y" := by decide +kernel
  refine ⟨grown, walked, ?_, ?_, ?_⟩
  · exact (subtree 2 (by decide)).trans (by decide +kernel)
  · exact ((cuts 1 (by decide) rfl rfl).2 3 (by decide +kernel)).symm.trans whole
  · exact (cuts 3 (by decide) rfl rfl).1.symm.trans whole

end Tree

end SqlLayout
