import SqlLayout.Proofs.Tree.Links

/-!
# Trees that grow by appending

A tree that was made by appending nodes to the root, to leaves or to any other node shows a
document: every new node becomes the last child of its parent in the document shown so far.
-/

namespace SqlLayout

namespace Outline

mutual

/-- An outline with another one as a new last child of the node with a number. -/
def graft (parent : NodeId) (added : Outline) : Outline → Outline
  | node id kind text attributes children =>
      node id kind text attributes
        (graftOfList parent added children ++ if id = parent then [added] else [])

/-- Sibling outlines with another one as a new last child of the node with a number. -/
def graftOfList (parent : NodeId) (added : Outline) : List Outline → List Outline
  | [] => []
  | first :: rest => graft parent added first :: graftOfList parent added rest

end

theorem graftOfList_eq (parent : NodeId) (added : Outline) (outlines : List Outline) :
    graftOfList parent added outlines = outlines.map (graft parent added) := by
  induction outlines with
  | nil => rw [graftOfList, List.map_nil]
  | cons first rest ih => rw [graftOfList, ih, List.map_cons]

theorem graft_node (parent : NodeId) (added : Outline) (id : NodeId) (kind : NodeKind)
    (text : String) (attributes : Attributes) (children : List Outline) :
    graft parent added (node id kind text attributes children) =
      node id kind text attributes
        (children.map (graft parent added) ++ if id = parent then [added] else []) := by
  rw [graft, graftOfList_eq]

@[simp]
theorem id_graft (parent : NodeId) (added outline : Outline) :
    (graft parent added outline).id = outline.id := by
  cases outline
  rw [graft_node]
  rfl

/-- A new leaf is stored beside the other nodes, once for each node with the number of its parent,
and these nodes list it. -/
theorem records_graft (parent new : NodeId) (kind : NodeKind) (text : String) (outline : Outline)
    (above : Option NodeId) :
    ((graft parent (.leaf new kind text) outline).records above).Perm
      ((outline.records above).map (alterAt parent (Node.addChild new)) ++
        List.replicate (((outline.records above).map Prod.fst).count parent)
          (new, { kind, text, parent := some parent })) := by
  induction outline generalizing above with
  | node id own ownText attributes children ih =>
    have siblings : ∀ outlines ⊆ children,
        (recordsOfList (some id) (outlines.map (graft parent (.leaf new kind text)))).Perm
          ((recordsOfList (some id) outlines).map (alterAt parent (Node.addChild new)) ++
            List.replicate (((recordsOfList (some id) outlines).map Prod.fst).count parent)
              (new, { kind, text, parent := some parent })) := by
      intro outlines inside
      induction outlines with
      | nil => simp
      | cons first rest later =>
        obtain ⟨member, others⟩ := List.cons_subset.mp inside
        have both := (ih first member (some id)).append (later others)
        simp only [List.map_cons, recordsOfList_cons, List.map_append, List.count_append,
          List.replicate_add]
        refine both.trans ?_
        grind
    have below := siblings children (List.Subset.refl _)
    have numbers : (children.map (graft parent (.leaf new kind text))).map Outline.id =
        children.map Outline.id := by
      simp
    rw [graft_node, records_node, records_node, recordsOfList_append, List.map_append,
      numbers, List.map_cons, List.map_cons, List.count_cons]
    by_cases same : id = parent
    · subst same
      simp only [if_true, alterAt, Node.addChild, recordsOfList_cons, records_leaf,
        recordsOfList_nil, List.map_cons, List.map_nil, leaf_id, beq_self_eq_true,
        List.replicate_succ]
      refine List.Perm.cons _ ((below.append_right _).trans ?_)
      rw [List.append_nil, List.append_assoc]
      exact (List.perm_append_singleton _ _).append_left _
    · simpa [same, alterAt] using below

end Outline

namespace Tree

/-- A tree that was made from the empty one by appending nodes. -/
inductive Grown : Tree → Prop where
  | empty : Grown .empty
  | append {tree : Tree} (grown : Grown tree) {parent : NodeId} (known : parent < tree.size)
      (kind : NodeKind)
      (text : String) : Grown (tree.append parent kind text).1

theorem Holds.append_of_lt {tree : Tree} {records : List (NodeId × Node)}
    (holds : tree.Holds records) {parent : NodeId} (known : parent < tree.size) (kind : NodeKind)
    (text : String) :
    (tree.append parent kind text).1.Holds
      ((tree.size, { kind, text, parent := some parent }) ::
        records.map (alterAt parent (Node.addChild tree.size))) := by
  have below := (holds.create kind text).update_head fun node => { node with parent := some parent }
  have listed := below.update parent (Node.addChild tree.size)
  rw [List.map_cons, alterAt, if_neg (Nat.ne_of_gt known)] at listed
  exact listed

/-- A tree that was grown shows a document: each new node is the last child of its parent there. -/
theorem Grown.shows {tree : Tree} (grown : tree.Grown) :
    ∃ children, tree.Shows { id := root, kind := .root, children } := by
  induction grown with
  | empty =>
    refine ⟨[], ⟨?_, ?_, rfl⟩, rfl⟩
    all_goals simp [Draft.outline, Draft.closed, Frame.plug, Outline.records_node, Tree.empty, root]
  | @append tree grown parent known kind text ih =>
    obtain ⟨children, shown⟩ := ih
    have once :
        (((Outline.node root .root "" {} children).records none).map Prod.fst).count parent = 1 :=
      List.count_eq_one_of_mem shown.document.distinct
        (shown.keys_perm.mem_iff.mpr (List.mem_range.mpr known))
    have grafted :=
      Outline.records_graft parent tree.size kind text (.node root .root "" {} children) none
    rw [once, List.replicate_one, Outline.graft_node] at grafted
    exact ⟨_, (shown.document.append_of_lt known kind text).perm
      (grafted.trans (List.perm_append_singleton _ _)), rfl⟩

end Tree

end SqlLayout
