import SqlLayout.Builder.Basic
import SqlLayout.Proofs.Draft.Storage

/-!
# Navigation in a stored draft

The way up from the container in hand is the path of the draft, so that every question about
ancestors is a question about a list. A builder stands at a draft if its tree shows the draft and
its cursor is the container in hand.
-/

namespace SqlLayout

variable {levels : Nat}

namespace Draft

variable {draft : Draft}

theorem pathIds_up (enclosed : draft.outer ≠ []) : draft.up.pathIds = draft.pathIds.tail := by
  obtain ⟨frame, outer, around⟩ := List.exists_cons_of_ne_nil enclosed
  simp [up_eq around, pathIds, around]

theorem outer_up (enclosed : draft.outer ≠ []) : draft.up.outer = draft.outer.tail := by
  obtain ⟨frame, outer, around⟩ := List.exists_cons_of_ne_nil enclosed
  simp [up_eq around, around]

theorem enclosed_of_lt (enough : levels < draft.outer.length) :
    draft.outer ≠ [] ∧ draft.up.outer.length = draft.outer.length - 1 := by
  have enclosed : draft.outer ≠ [] := by
    intro none
    simp [none] at enough
  rw [outer_up enclosed, List.length_tail]
  exact ⟨enclosed, rfl⟩

theorem length_outer_ups (enough : levels ≤ draft.outer.length) :
    (draft.ups levels).outer.length = draft.outer.length - levels := by
  induction levels generalizing draft with
  | zero => rfl
  | succ levels ih =>
    rcases enclosed_of_lt enough with ⟨enclosed, shorter⟩
    rw [ups, ih (by omega), shorter]
    omega

theorem path_ups (enough : levels ≤ draft.outer.length) :
    (draft.ups levels).path = draft.path.drop levels := by
  induction levels generalizing draft with
  | zero => rfl
  | succ levels ih =>
    rcases enclosed_of_lt enough with ⟨enclosed, shorter⟩
    rw [ups, ih (by omega), path_up enclosed, List.drop_tail]

theorem pathIds_ups (enough : levels ≤ draft.outer.length) :
    (draft.ups levels).pathIds = draft.pathIds.drop levels := by
  induction levels generalizing draft with
  | zero => rfl
  | succ levels ih =>
    rcases enclosed_of_lt enough with ⟨enclosed, shorter⟩
    rw [ups, ih (by omega), pathIds_up enclosed, List.drop_tail]

theorem ups_add (draft : Draft) (levels more : Nat) :
    draft.ups (levels + more) = (draft.ups levels).ups more := by
  induction levels generalizing draft with
  | zero => rw [Nat.zero_add]; rfl
  | succ levels ih => rw [Nat.succ_add]; exact ih draft.up

theorem length_path (draft : Draft) : draft.path.length = draft.outer.length + 1 := by
  simp [path]

/-- A path with more behind some kinds leads out of as many containers. -/
theorem length_le_of_path {inner others : List NodeKind} (path : draft.path = inner ++ others)
    (more : others ≠ []) : inner.length ≤ draft.outer.length := by
  have length := draft.length_path
  have some := List.length_pos_iff.mpr more
  rw [path, List.length_append] at length
  omega

end Draft

namespace Tree.Shows

variable {tree : Tree} {draft : Draft}

theorem kind_id (shown : tree.Shows draft) : tree.kind draft.id = draft.kind := by
  simp [Tree.kind, shown.node_id]

theorem parent_id (shown : tree.Shows draft) :
    tree.parent draft.id = draft.outer.head?.map Frame.id := by
  simp [Tree.parent, shown.node_id]

theorem parent_up (shown : tree.Shows draft) (enclosed : draft.outer ≠ []) :
    tree.parent draft.id = some draft.up.id := by
  obtain ⟨frame, outer, around⟩ := List.exists_cons_of_ne_nil enclosed
  rw [shown.parent_id, around, Draft.up_eq around]
  rfl

theorem children_id (shown : tree.Shows draft) :
    tree.children draft.id = draft.children.map Outline.id := by
  simp [Tree.children, shown.node_id]

theorem ancestor_eq (shown : tree.Shows draft) (levels : Nat) :
    tree.ancestor draft.id levels = draft.pathIds[levels]? := by
  induction levels generalizing draft with
  | zero => rfl
  | succ levels ih =>
    rw [ancestor, shown.parent_id]
    rcases around : draft.outer with _ | ⟨frame, outer⟩
    · simp [Draft.pathIds, around]
    · have next := ih shown.up
      rw [Draft.pathIds_up (by simp [around])] at next
      simp only [Draft.up_eq around] at next
      simpa [Draft.pathIds, around] using next

theorem ancestor_ups (shown : tree.Shows draft) (enough : levels ≤ draft.outer.length) :
    tree.ancestor draft.id levels = some (draft.ups levels).id := by
  rw [shown.ancestor_eq, ← List.head?_drop, ← Draft.pathIds_ups enough]
  rfl

theorem ups_of_ancestor (shown : tree.Shows draft) {id : NodeId}
    (isAncestor : tree.ancestor draft.id levels = some id) :
    levels ≤ draft.outer.length ∧ (draft.ups levels).id = id := by
  have enough : levels ≤ draft.outer.length := by
    rw [shown.ancestor_eq] at isAncestor
    have inside := (List.getElem?_eq_some_iff.mp isAncestor).1
    simpa [Draft.pathIds] using Nat.le_of_lt_succ inside
  exact ⟨enough, Option.some_inj.mp ((shown.ancestor_ups enough).symm.trans isAncestor)⟩

theorem lineage_eq (shown : tree.Shows draft) (bound : Nat) :
    tree.lineage draft.id bound = draft.pathIds.take bound := by
  induction bound generalizing draft with
  | zero => rfl
  | succ bound ih =>
    rw [lineage, shown.parent_id]
    rcases around : draft.outer with _ | ⟨frame, outer⟩
    · simp [Draft.pathIds, around]
    · have next := ih shown.up
      rw [Draft.pathIds_up (by simp [around])] at next
      simp only [Draft.up_eq around] at next
      simpa [Draft.pathIds, around] using next

theorem length_pathIds_le (shown : tree.Shows draft) : draft.pathIds.length ≤ tree.size := by
  have keys := (Frame.keys_perm draft.id draft.outer).length_eq
  have all := shown.holds.complete
  simp only [Draft.records, List.length_cons, List.length_append] at all
  simp only [List.length_map, List.length_append] at keys
  simp only [Draft.pathIds, List.length_cons, List.length_map]
  omega

theorem length_outer_lt (shown : tree.Shows draft) : draft.outer.length < tree.size := by
  have few := shown.length_pathIds_le
  rwa [Draft.pathIds, List.length_cons, List.length_map] at few

theorem root_mem (shown : tree.Shows draft) : Tree.root ∈ draft.pathIds := by
  rw [← shown.rooted]
  exact List.mem_of_getLast? draft.outline_id.symm

theorem isAttached_id (shown : tree.Shows draft) : tree.isAttached draft.id = true := by
  rw [isAttached, shown.lineage_eq, List.take_of_length_le shown.length_pathIds_le]
  simpa using shown.root_mem

/-- The kinds around the container in hand are the path. -/
theorem pathIs_eq (shown : tree.Shows draft) {kinds : List NodeKind} (asked : kinds ≠ []) :
    tree.pathIs draft.id kinds = kinds.isPrefixOf draft.path := by
  induction kinds generalizing draft with
  | nil => exact absurd rfl asked
  | cons kind others ih =>
    rcases others with _ | ⟨next, others⟩
    · simp only [pathIs, shown.kind_id, Draft.path, List.isPrefixOf, Bool.and_true]
      exact Bool.beq_comm
    · rw [pathIs, shown.kind_id, shown.parent_id]
      rcases around : draft.outer with _ | ⟨frame, outer⟩
      · simp [Draft.path, around, List.isPrefixOf]
      · have further := ih shown.up (by simp)
        rw [Draft.path_up (by simp [around])] at further
        simp only [Draft.up_eq around] at further
        simp only [List.head?_cons, Option.map_some, further, Draft.path, List.tail_cons]
        rw [List.isPrefixOf_cons_cons, Bool.beq_comm]

end Tree.Shows

/-- The tree of a builder shows a draft, and the cursor is the container in hand. -/
structure Builder.Stands (builder : Builder) (draft : Draft) : Prop where
  shown : builder.tree.Shows draft
  cursor : builder.cursor = draft.id

namespace Builder.Stands

variable {builder : Builder} {draft : Draft}

theorem cursorKind_eq (stands : builder.Stands draft) : builder.cursorKind = draft.kind := by
  rw [cursorKind, stands.cursor, stands.shown.kind_id]

theorem isIn_eq (stands : builder.Stands draft) {kinds : List NodeKind} (asked : kinds ≠ []) :
    builder.isIn kinds = kinds.isPrefixOf draft.path := by
  rw [isIn, stands.cursor, stands.shown.pathIs_eq asked]

/-- The cursor can go to the container in hand of any view of the tree. -/
theorem moveTo {other : Draft} (shown : builder.tree.Shows other) :
    ∃ moved, builder.moveTo other.id = .ok moved ∧ moved.Stands other := by
  rw [Builder.moveTo, if_pos shown.isAttached_id]
  exact ⟨_, rfl, shown, rfl⟩

theorem moveUp (stands : builder.Stands draft) (enough : levels ≤ draft.outer.length) :
    ∃ moved, builder.moveUp levels = .ok moved ∧ moved.Stands (draft.ups levels) := by
  simp only [Builder.moveUp, stands.cursor, stands.shown.ancestor_ups enough]
  exact moveTo (stands.shown.ups levels)

theorem moveUpTo (stands : builder.Stands draft) (enough : levels ≤ draft.outer.length)
    {expected : NodeKind} (met : (draft.ups levels).kind = expected) :
    ∃ moved, builder.moveUpTo levels expected = .ok moved ∧ moved.Stands (draft.ups levels) := by
  simp only [Builder.moveUpTo, stands.cursor, stands.shown.ancestor_ups enough,
    (stands.shown.ups levels).kind_id, met, if_true]
  exact moveTo (stands.shown.ups levels)

end Builder.Stands

end SqlLayout
