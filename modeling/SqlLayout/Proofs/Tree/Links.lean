import Mathlib.Data.List.Nodup
import Mathlib.Data.List.Perm.Subperm
import SqlLayout.Proofs.Tree.Walk

/-!
# Links between nodes

In a tree that shows a document every node is part of the document, parents and children agree, and
the way up from every node ends at the root. Behind the container in hand come only bodies that
stayed empty.
-/

namespace SqlLayout

variable {record : NodeId × Node} {id : NodeId}

namespace Outline

theorem mem_recordsOfList {parent : Option NodeId} {outlines : List Outline} :
    record ∈ recordsOfList parent outlines ↔
      ∃ outline ∈ outlines, record ∈ outline.records parent := by
  induction outlines with
  | nil => simp
  | cons first rest ih => simp [ih]

/-- A walk enters the nodes of an outline in the order in which they are stored. -/
theorem entered_events (outline : Outline) (parent : Option NodeId) :
    outline.events.filterMap WalkEvent.entered? = (outline.records parent).map Prod.fst := by
  induction outline generalizing parent with
  | node id kind text attributes children ih =>
    have siblings : ∀ outlines ⊆ children,
        (eventsOfList outlines).filterMap WalkEvent.entered? =
          (recordsOfList (some id) outlines).map Prod.fst := by
      intro outlines inside
      induction outlines with
      | nil => simp
      | cons first rest rest_ih =>
        obtain ⟨member, others⟩ := List.cons_subset.mp inside
        simp [ih first member (some id), rest_ih others]
    rw [events_node, records_node, List.filterMap_cons, List.filterMap_append,
      siblings children (List.Subset.refl _)]
    simp [WalkEvent.entered?]

theorem eventsOfList_append (front back : List Outline) :
    eventsOfList (front ++ back) = eventsOfList front ++ eventsOfList back := by
  induction front with
  | nil => simp
  | cons first rest ih => simp [ih]

theorem count_leave (outline : Outline) (parent : Option NodeId) (id : NodeId) :
    outline.events.count (.leave id) = ((outline.records parent).map Prod.fst).count id := by
  induction outline generalizing parent with
  | node top kind text attributes children ih =>
    have siblings : ∀ outlines ⊆ children,
        (eventsOfList outlines).count (.leave id) =
          ((recordsOfList (some top) outlines).map Prod.fst).count id := by
      intro outlines inside
      induction outlines with
      | nil => simp
      | cons first rest rest_ih =>
        obtain ⟨member, others⟩ := List.cons_subset.mp inside
        simp [ih first member (some top), rest_ih others]
    rw [events_node, records_node, List.count_cons, List.count_append,
      siblings children (List.Subset.refl _), List.map_cons, List.count_cons]
    by_cases same : top = id <;> simp [same]

end Outline

namespace Tree

variable {tree : Tree} {parent : Option NodeId} {outline : Outline} {above : NodeId}

theorem Stores.listed (stored : tree.Stores parent outline)
    (member : record ∈ outline.records parent) :
    record.1 = outline.id ∧ record.2.parent = parent ∨
      ∃ above, record.2.parent = some above ∧ record.1 ∈ tree.children above := by
  induction outline generalizing parent with
  | node id kind text attributes children ih =>
    rw [Outline.records_node] at member
    rcases List.mem_cons.mp member with rfl | inside
    · exact .inl ⟨rfl, rfl⟩
    · obtain ⟨child, among, below⟩ := Outline.mem_recordsOfList.mp inside
      right
      rcases ih child among (stored.child child among) below with ⟨isChild, isParent⟩ | found
      · refine ⟨id, isParent, ?_⟩
        rw [Tree.children, stored.node_eq, isChild]
        exact List.mem_map_of_mem among
      · exact found

theorem Stores.parent_of_mem (stored : tree.Stores parent outline)
    (member : record ∈ outline.records parent) {child : NodeId}
    (isChild : child ∈ record.2.children) :
    tree.parent child = some record.1 := by
  induction outline generalizing parent with
  | node id kind text attributes children ih =>
    rw [Outline.records_node] at member
    rcases List.mem_cons.mp member with rfl | inside
    · obtain ⟨below, among, rfl⟩ := List.mem_map.mp isChild
      cases below
      exact congrArg Node.parent (stored.child _ among).node_eq
    · obtain ⟨below, among, inBelow⟩ := Outline.mem_recordsOfList.mp inside
      exact ih below among (stored.child below among) inBelow

theorem ancestor_succ {levels : Nat} (reached : tree.ancestor id levels = some above) :
    tree.ancestor id (levels + 1) = tree.parent above := by
  induction levels generalizing id with
  | zero =>
    obtain rfl : id = above := Option.some.inj reached
    cases isParent : tree.parent id <;> simp [ancestor, isParent]
  | succ levels ih =>
    rw [ancestor] at reached ⊢
    cases isParent : tree.parent id with
    | none => simp [isParent] at reached
    | some next =>
      simp only [isParent] at reached ⊢
      exact ih reached

/-- The way up from a node of an outline leads to its top. -/
theorem Stores.ancestor (stored : tree.Stores parent outline)
    (member : record ∈ outline.records parent) :
    ∃ levels < (outline.records parent).length, tree.ancestor record.1 levels =
      some outline.id := by
  induction outline generalizing parent with
  | node id kind text attributes children ih =>
    rw [Outline.records_node] at member ⊢
    rcases List.mem_cons.mp member with rfl | inside
    · exact ⟨0, by simp, rfl⟩
    · obtain ⟨child, among, below⟩ := Outline.mem_recordsOfList.mp inside
      obtain ⟨levels, within, reached⟩ := ih child among (stored.child child among) below
      have isParent : tree.parent child.id = some id := by
        cases child
        exact congrArg Node.parent (stored.child _ among).node_eq
      have fewer := (Outline.records_subset_recordsOfList among (some id)).length_le
      exact ⟨levels + 1, by rw [List.length_cons]; omega, (ancestor_succ reached).trans isParent⟩

theorem Stores.nodup_of_mem (stored : tree.Stores parent outline)
    (distinct : ((outline.records parent).map Prod.fst).Nodup)
    (member : record ∈ outline.records parent) : record.2.children.Nodup := by
  induction outline generalizing parent with
  | node id kind text attributes children ih =>
    rw [Outline.records_node] at member distinct
    rw [List.map_cons, List.nodup_cons] at distinct
    rcases List.mem_cons.mp member with rfl | inside
    · exact distinct.2.sublist (Outline.ids_sublist_keys _ _)
    · obtain ⟨child, among, below⟩ := Outline.mem_recordsOfList.mp inside
      refine ih child among (stored.child child among) ?_ below
      exact distinct.2.sublist ((Outline.records_subset_recordsOfList among _).map _)

/-- The way down from a node of an outline ends, if every node is listed by its parent. -/
theorem Stores.acc (stored : tree.Stores parent outline)
    (listed : ∀ child above, tree.parent child = some above → child ∈ tree.children above)
    (member : record ∈ outline.records parent) :
    Acc (fun child above => tree.parent child = some above) record.1 := by
  induction outline generalizing parent record with
  | node id kind text attributes children ih =>
    have below : ∀ child ∈ children, ∀ record ∈ child.records (some id),
        Acc (fun child above => tree.parent child = some above) record.1 :=
      fun child among _ inside => ih child among (stored.child child among) inside
    rw [Outline.records_node] at member
    rcases List.mem_cons.mp member with rfl | inside
    · refine ⟨_, fun child isParent => ?_⟩
      have among := listed child id isParent
      rw [Tree.children, stored.node_eq] at among
      obtain ⟨outline, isChild, rfl⟩ := List.mem_map.mp among
      refine below outline isChild (outline.id, outline.stored (some id)) ?_
      rw [Outline.records_eq]
      exact .head _
    · obtain ⟨child, among, inChild⟩ := Outline.mem_recordsOfList.mp inside
      exact below child among record inChild

theorem mem_lineage_of_ancestor {levels bound : Nat}
    (reached : tree.ancestor id levels = some above) (within : levels < bound) :
    above ∈ tree.lineage id bound := by
  induction levels generalizing id bound with
  | zero =>
    obtain ⟨bound, rfl⟩ := Nat.exists_eq_succ_of_ne_zero (Nat.ne_of_gt within)
    obtain rfl : id = above := Option.some.inj reached
    rw [lineage]
    split <;> exact .head _
  | succ levels ih =>
    obtain ⟨bound, rfl⟩ := Nat.exists_eq_succ_of_ne_zero (Nat.ne_of_gt (Nat.zero_lt_of_lt within))
    rw [Tree.ancestor] at reached
    rw [lineage]
    cases isParent : tree.parent id with
    | none => simp [isParent] at reached
    | some next =>
      simp only [isParent] at reached ⊢
      exact .tail _ (ih reached (by omega))

theorem node_of_le (unknown : tree.size ≤ id) : tree.node id = default := by
  rw [node, Array.getD_eq_getD_getElem?, Array.getElem?_eq_none unknown, Option.getD_none]

theorem kind_of_size_le (tree : Tree) (id : NodeId) (unknown : tree.size ≤ id) :
    tree.kind id = .root := by
  rw [Tree.kind, node_of_le unknown]
  rfl

/-- All nodes of a tree form one document, in which parents and children agree. -/
structure Linked (tree : Tree) : Prop where
  /-- A walk through the document enters every node once. -/
  entered : tree.entered.Perm (List.range tree.size)
  /-- The way up from every node reaches the root. -/
  attached : ∀ id < tree.size, tree.isAttached id = true
  /-- A node lists another one once if it is its parent, and else not at all. -/
  listed : ∀ child above,
    (tree.children above).count child = if tree.parent child = some above then 1 else 0
  /-- Only the root has no parent. -/
  rooted : ∀ id < tree.size, (tree.parent id = none ↔ id = root)
  /-- No node lies below itself. -/
  acyclic : ∀ id, ¬Relation.TransGen (fun child above => tree.parent child = some above) id id

namespace Shows

variable {draft : Draft}

/-- The nodes of a document are all nodes of the tree. -/
theorem keys_perm (shown : tree.Shows draft) :
    ((draft.outline.records none).map Prod.fst).Perm (List.range tree.size) := by
  have holds := shown.document
  have inside : (draft.outline.records none).map Prod.fst ⊆ List.range tree.size := by
    intro id member
    obtain ⟨record, stored, rfl⟩ := List.mem_map.mp member
    exact List.mem_range.mpr (holds.lt_size stored)
  refine (holds.distinct.subperm inside).perm_of_length_le ?_
  rw [List.length_map, holds.complete, List.length_range]

theorem record_of_lt (shown : tree.Shows draft) (known : id < tree.size) :
    (id, tree.node id) ∈ draft.outline.records none := by
  have member := shown.keys_perm.mem_iff.mpr (List.mem_range.mpr known)
  obtain ⟨⟨_, node⟩, stored, rfl⟩ := List.mem_map.mp member
  have isNode : tree.node _ = node := shown.document.node_eq stored
  rwa [isNode]

/-- A tree is known by the document that it shows. -/
theorem eq_of_outline {other : Tree} {twin : Draft} (shown : tree.Shows draft)
    (shows : other.Shows twin) (same : draft.outline = twin.outline) : tree = other := by
  have size : tree.size = other.size := by
    rw [← shown.document.complete, ← shows.document.complete, same]
  refine congrArg Tree.mk (Array.ext size fun id known knownToo => ?_)
  have stored := shows.document.stored _ (same ▸ shown.record_of_lt known)
  rw [Tree.node, Array.getD_eq_getD_getElem?, Array.getElem?_eq_getElem known] at stored
  exact (Option.some_inj.mp ((Array.getElem?_eq_getElem knownToo).symm.trans stored)).symm

theorem isAttached_of_lt (shown : tree.Shows draft) (known : id < tree.size) :
    tree.isAttached id = true := by
  obtain ⟨levels, within, reached⟩ := shown.stores.ancestor (shown.record_of_lt known)
  rw [shown.document.complete] at within
  rw [shown.rooted] at reached
  rw [isAttached, List.contains_iff_mem]
  exact mem_lineage_of_ancestor reached within

theorem parent_eq_none_iff (shown : tree.Shows draft) (known : id < tree.size) :
    tree.parent id = none ↔ id = root := by
  constructor
  · intro none
    rcases shown.stores.listed (shown.record_of_lt known) with ⟨isTop, _⟩ | ⟨above, isParent, _⟩
    · exact isTop.trans shown.rooted
    · exact absurd isParent (by simp [show (tree.node id).parent = _ from none])
  · rintro rfl
    have stored := shown.stores
    rw [← shown.rooted]
    cases outline : draft.outline with
    | node id kind text attributes children =>
      rw [outline] at stored
      exact congrArg Node.parent stored.node_eq

/-- A node lists exactly the nodes whose parent it is. -/
theorem mem_children_iff (shown : tree.Shows draft) {child : NodeId} :
    child ∈ tree.children above ↔ tree.parent child = some above := by
  constructor
  · intro among
    by_cases known : above < tree.size
    · exact shown.stores.parent_of_mem (shown.record_of_lt known) among
    · rw [children, node_of_le (Nat.le_of_not_lt known)] at among
      exact absurd among List.not_mem_nil
  · intro isParent
    by_cases known : child < tree.size
    · rcases shown.stores.listed (shown.record_of_lt known) with
        ⟨isTop, isNone⟩ | ⟨other, same, among⟩
      · rw [show (tree.node child).parent = _ from isParent] at isNone
        exact absurd isNone (by simp)
      · rw [show (tree.node child).parent = _ from isParent] at same
        exact Option.some.inj same ▸ among
    · rw [Tree.parent, node_of_le (Nat.le_of_not_lt known)] at isParent
      exact absurd isParent (Option.some_ne_none above).symm

theorem nodup_children (shown : tree.Shows draft) (above : NodeId) :
    (tree.children above).Nodup := by
  by_cases known : above < tree.size
  · exact shown.stores.nodup_of_mem shown.document.distinct (shown.record_of_lt known)
  · rw [children, node_of_le (Nat.le_of_not_lt known)]
    exact .nil

/-- A tree that shows a document is linked. -/
theorem linked (shown : tree.Shows draft) : tree.Linked where
  entered := by
    rw [Tree.entered, shown.walk_eq, Outline.entered_events _ none]
    exact shown.keys_perm
  attached _ known := shown.isAttached_of_lt known
  listed child above := by
    split
    next isParent =>
      have once := List.nodup_iff_count_eq_one.mp (shown.nodup_children above)
      exact once child (shown.mem_children_iff.mpr isParent)
    next other => exact List.count_eq_zero.mpr fun among => other (shown.mem_children_iff.mp among)
  rooted _ known := shown.parent_eq_none_iff known
  acyclic id := by
    have founded : WellFounded fun child above => tree.parent child = some above := by
      refine ⟨fun id => ?_⟩
      by_cases known : id < tree.size
      · exact shown.stores.acc (fun _ _ => shown.mem_children_iff.mpr) (shown.record_of_lt known)
      · refine ⟨_, fun child isParent => ?_⟩
        rw [← shown.mem_children_iff, children, node_of_le (Nat.le_of_not_lt known)] at isParent
        exact absurd isParent List.not_mem_nil
    exact fun below => founded.transGen.asymmetric id id below below

theorem enter_mem_walk (shown : tree.Shows draft) (known : id < tree.size) :
    .enter id ∈ tree.walk := by
  have member : id ∈ tree.entered := shown.linked.entered.mem_iff.mpr (List.mem_range.mpr known)
  obtain ⟨event, walked, isEnter⟩ := List.mem_filterMap.mp member
  obtain rfl : event = .enter id := by
    cases event <;> simp_all [WalkEvent.entered?]
  exact walked

/-- A walk enters and leaves every node once. -/
theorem nodup_walk (shown : tree.Shows draft) : tree.walk.Nodup := by
  have once := List.nodup_iff_count_le_one.mp shown.document.distinct
  rw [List.nodup_iff_count_le_one, shown.walk_eq]
  rintro (id | id)
  · refine Nat.le_trans (Nat.le_of_eq ?_) (once id)
    rw [← Outline.entered_events, List.count_filterMap]
    refine List.countP_congr fun event _ => ?_
    cases event <;> simp [WalkEvent.entered?]
  · rw [Outline.count_leave _ none]
    exact once id

end Shows

end Tree

/-! ### What comes behind the container in hand -/

def Tree.behind (tree : Tree) (id : NodeId) : List WalkEvent :=
  (tree.walk.dropWhile (· != .leave id)).drop 1

namespace Frame

/-- The steps of a walk through open containers, the innermost first, after what is open inside
them. -/
def eventsBehind : List Frame → List WalkEvent
  | [] => []
  | frame :: outer =>
    Outline.eventsOfList frame.after ++ WalkEvent.leave frame.id :: eventsBehind outer

theorem events_plug (outer : List Frame) (inside : Outline) :
    ∃ front, (plug outer inside).events = front ++ inside.events ++ eventsBehind outer := by
  induction outer generalizing inside with
  | nil => exact ⟨[], by simp [plug, eventsBehind]⟩
  | cons frame outer ih =>
    obtain ⟨front, whole⟩ := ih (frame.close inside)
    refine ⟨front ++ WalkEvent.enter frame.id :: Outline.eventsOfList frame.before, ?_⟩
    rw [show plug (frame :: outer) inside = plug outer (frame.close inside) from rfl, whole, close,
      Outline.events_node, Outline.eventsOfList_append, Outline.eventsOfList_cons, eventsBehind]
    simp

theorem AllSound.enter_eventsBehind {hole : NodeKind} {outer : List Frame}
    (sound : AllSound hole outer) (member : .enter id ∈ eventsBehind outer) (inside : NodeId) :
    ∃ parent, (id, { kind := .containerSingleStatementBody, text := "", parent }) ∈
      records inside outer := by
  induction outer generalizing hole inside with
  | nil => simp [eventsBehind] at member
  | cons frame outer ih =>
    obtain ⟨here, above⟩ := sound
    rw [eventsBehind, List.mem_append, List.mem_cons] at member
    rcases member with among | isLeave | later
    · have bodies := here.behind
      have body : .leaf id .containerSingleStatementBody "" ∈ frame.after := by
        generalize frame.after = after at among bodies
        induction after with
        | nil => simp at among
        | cons first rest rest_ih =>
          obtain ⟨isBody, others⟩ := List.forall_mem_cons.mp bodies
          rw [Outline.eventsOfList_cons, isBody.2, Outline.leaf, Outline.events_node,
            Outline.eventsOfList_nil, List.nil_append, List.mem_append] at among
          rcases among with inFirst | inRest
          · obtain rfl : id = first.id := by simpa using inFirst
            rw [← isBody.2]
            exact .head _
          · exact .tail _ (rest_ih inRest others)
      refine ⟨some frame.id, .tail _ (List.mem_append_left _ (List.mem_append_right _ ?_))⟩
      exact Outline.mem_recordsOfList.mpr ⟨_, body, by simp⟩
    · cases isLeave
    · obtain ⟨parent, stored⟩ := ih above later frame.id
      exact ⟨parent, .tail _ (List.mem_append_right _ stored)⟩

end Frame

namespace Draft

theorem events_outline (draft : Draft) :
    ∃ front, draft.outline.events =
      front ++ WalkEvent.leave draft.id :: Frame.eventsBehind draft.outer := by
  obtain ⟨front, whole⟩ := Frame.events_plug draft.outer draft.closed
  refine ⟨front ++ WalkEvent.enter draft.id :: Outline.eventsOfList draft.children, ?_⟩
  rw [outline, whole, closed, Outline.events_node]
  simp

end Draft

namespace Tree.Shows

variable {tree : Tree} {draft : Draft}

theorem behind_eq (shown : tree.Shows draft) :
    tree.behind draft.id = Frame.eventsBehind draft.outer := by
  obtain ⟨front, whole⟩ := draft.events_outline
  have once : draft.outline.events.count (.leave draft.id) ≤ 1 := by
    rw [Outline.count_leave _ none]
    exact List.nodup_iff_count_le_one.mp shown.document.distinct _
  have early : .leave draft.id ∉ front := by
    rw [whole, List.count_append, List.count_cons_self] at once
    exact List.count_eq_zero.mp (by omega)
  rw [Tree.behind, shown.walk_eq, whole, List.dropWhile_append_of_pos]
  · simp
  · intro event member
    have other : event ≠ .leave draft.id := fun same => early (same ▸ member)
    simpa using other

theorem enter_behind (shown : tree.Shows draft) (sound : draft.Sound)
    (member : .enter id ∈ tree.behind draft.id) :
    tree.kind id = .containerSingleStatementBody ∧ tree.text id = "" ∧ tree.children id = [] := by
  rw [shown.behind_eq] at member
  obtain ⟨parent, stored⟩ := sound.around.enter_eventsBehind member draft.id
  have isBody : tree.node id = { kind := .containerSingleStatementBody, text := "", parent } :=
    shown.holds.node_eq (.tail _ (List.mem_append_right _ stored))
  simp [kind, text, children, isBody]

end Tree.Shows

end SqlLayout
