import SqlLayout.Proofs.Likeness.Tree

/-!
# What a builder adds

No operation of a builder takes nodes away or changes their kinds and texts, and the operations that
move the cursor between statements add nothing but empty statements, clauses and bodies. So it takes
one look at each operation to know what all the new nodes have in common.
-/

namespace SqlLayout

variable {kind : NodeKind} {text : String}

/-- Which nodes may be added, the frames of statements among them. -/
structure Supply where
  allows : NodeKind → String → Prop
  statement : allows .statement ""
  clause : allows .clause ""
  body : allows .containerSingleStatementBody ""

namespace Tree

/-- The nodes of a tree are there with their kinds and texts, and the new ones come from a
supply. -/
structure Gains (tree : Tree) (supply : Supply) (grown : Tree) : Prop where
  size : tree.size ≤ grown.size
  old : ∀ id < tree.size, grown.kind id = tree.kind id ∧ grown.text id = tree.text id
  new : ∀ id, tree.size ≤ id → id < grown.size → supply.allows (grown.kind id) (grown.text id)

variable {tree grown final : Tree} {supply : Supply}

theorem Gains.refl (tree : Tree) : tree.Gains supply tree where
  size := Nat.le_refl _
  old _ _ := ⟨rfl, rfl⟩
  new _ fresh known := absurd known (Nat.not_lt_of_ge fresh)

theorem Gains.trans (first : tree.Gains supply grown) (second : grown.Gains supply final) :
    tree.Gains supply final where
  size := Nat.le_trans first.size second.size
  old id known := by
    obtain ⟨kind, text⟩ := second.old id (Nat.lt_of_lt_of_le known first.size)
    exact ⟨kind.trans (first.old id known).1, text.trans (first.old id known).2⟩
  new id fresh known := by
    rcases Nat.lt_or_ge id grown.size with before | after
    · obtain ⟨kind, text⟩ := second.old id before
      rw [kind, text]
      exact first.new id fresh before
    · exact second.new id after known

theorem gains_relink (tree : Tree) (id : NodeId) (above : Option NodeId) (holder : NodeId)
    (arrange : List NodeId → List NodeId) :
      tree.Gains supply (tree.relink id above holder arrange) where
  size := by simp
  old _ _ := by simp
  new _ fresh known := absurd known (Nat.not_lt_of_ge (by simpa using fresh))

theorem gains_setAttribute (tree : Tree) (id : NodeId) (key : Attribute) (value : String) :
    tree.Gains supply (tree.setAttribute id key value) where
  size := by simp
  old place _ := by
    obtain ⟨attributes, node⟩ := tree.node_setAttribute id key value place
    exact ⟨by rw [kind, node, kind], by rw [text, node, text]⟩
  new _ fresh known := absurd known (Nat.not_lt_of_ge (by simpa using fresh))

theorem gains_create (tree : Tree) {kind : NodeKind} {text : String}
    (allowed : supply.allows kind text) :
    tree.Gains supply (tree.create kind text).1 where
  size := by simp
  old id known := by simp [Tree.kind, Tree.text, node_create, Nat.ne_of_lt known]
  new id fresh known := by
    rw [size_create] at known
    obtain rfl : id = tree.size := by omega
    simpa [Tree.kind, Tree.text, node_create] using allowed

theorem gains_append (tree : Tree) (parent : NodeId) (allowed : supply.allows kind text) :
    tree.Gains supply (tree.append parent kind text).1 := by
  rw [append_eq_relink]
  exact (tree.gains_create allowed).trans (gains_relink ..)

theorem gains_detach (tree : Tree) (id : NodeId) : tree.Gains supply (tree.detach id) := by
  rw [detach_eq_relink]
  split
  · exact tree.gains_relink ..
  · exact .refl tree

end Tree

/-! ### Computations -/

/-- If a computation that starts from a tree succeeds, the new nodes of the tree that it yields come
from a supply. -/
def Adds {α : Type} (supply : Supply) (view : α → Tree) (tree : Tree)
    (result : Except TreeError α) : Prop :=
  ∀ value, result = .ok value → tree.Gains supply (view value)

namespace Adds

variable {α β : Type} {supply : Supply} {view : α → Tree} {further : β → Tree} {tree : Tree}
  {result : Except TreeError α}

theorem ok {value : α} (gains : tree.Gains supply (view value)) :
    Adds supply view tree (.ok value) :=
  fun _ same => Except.ok.inj same ▸ gains

theorem error (error : TreeError) : Adds supply view tree (.error error) := by
  intro _ same
  cases same

theorem bind (adds : Adds supply view tree result) {rest : α → Except TreeError β}
    (onward : ∀ value, Adds supply further (view value) (rest value)) :
    Adds supply further tree (result >>= rest) := by
  intro last isOk
  cases result with
  | error error => cases isOk
  | ok value => exact (adds value rfl).trans (onward value last isOk)

theorem map (adds : Adds supply view tree result) {change : α → β}
    (same : ∀ value, further (change value) = view value) :
    Adds supply further tree (result.map change) := by
  intro last isOk
  cases result with
  | error error => cases isOk
  | ok value =>
    obtain rfl := Except.ok.inj isOk
    rw [same]
    exact adds value rfl

theorem ite {condition : Prop} [Decidable condition] {other : Except TreeError α}
    (positive : Adds supply view tree result) (negative : Adds supply view tree other) :
    Adds supply view tree (if condition then result else other) := by
  split
  · exact positive
  · exact negative

theorem bind_ite {condition : Prop} [Decidable condition] {other : Except TreeError α}
    (adds : Adds supply view tree (if condition then result else other))
    {rest : α → Except TreeError β}
    (onward : ∀ value, Adds supply further (view value) (rest value)) :
    Adds supply further tree (if condition then result >>= rest else other >>= rest) := by
  split at adds
  next holds =>
    rw [if_pos holds]
    exact adds.bind onward
  next fails =>
    rw [if_neg fails]
    exact adds.bind onward

theorem after {start : Tree} (adds : Adds supply view tree result)
    (gains : start.Gains supply tree) :
    Adds supply view start result :=
  fun value isOk => gains.trans (adds value isOk)

end Adds

namespace Tree

variable {supply : Supply} (tree : Tree)

theorem adds_insertBefore (id sibling : NodeId) :
    Adds supply (fun moved => moved) tree (tree.insertBefore id sibling) := by
  rw [insertBefore_eq_relink]
  split
  · exact .ite (.ok (tree.gains_relink ..)) (.error _)
  · exact .error _

theorem adds_moveBefore (anchor : NodeId) (ids : List NodeId) :
    Adds supply (fun moved => moved) tree (tree.moveBefore anchor ids) := by
  induction ids generalizing tree with
  | nil => exact .ok (.refl tree)
  | cons id ids ih =>
    rw [moveBefore]
    exact (((tree.detach id).adds_insertBefore id anchor).bind ih).after (tree.gains_detach id)

theorem adds_moveOwnLineComments (container anchor : NodeId) (bound : Nat) :
    Adds supply (fun moved => moved) tree (tree.moveOwnLineComments container anchor bound) := by
  induction bound generalizing tree container anchor with
  | zero => exact .ok (.refl tree)
  | succ bound ih =>
    rw [moveOwnLineComments]
    refine (tree.adds_moveBefore anchor _).bind fun moved => ?_
    split
    · exact .ok (.refl moved)
    · exact ih moved _ _

end Tree

namespace Builder

variable {supply : Supply} (builder : Builder)

/-! ### Nodes -/

theorem gains_saveIn (parent : NodeId) (allowed : supply.allows kind text) :
    builder.tree.Gains supply (builder.saveIn parent kind text).1.tree :=
  builder.tree.gains_append parent allowed

variable {builder} in
theorem gains_of_saveIn {grown : Builder} {parent id : NodeId}
    (saved : builder.saveIn parent kind text = (grown, id)) (allowed : supply.allows kind text) :
    builder.tree.Gains supply grown.tree := by
  have gains := builder.gains_saveIn parent allowed
  rw [saved] at gains
  exact gains

theorem gains_save (allowed : supply.allows kind text) :
    builder.tree.Gains supply (builder.save kind text).1.tree :=
  builder.gains_saveIn builder.cursor allowed

theorem gains_saveLeaf (allowed : supply.allows kind text) :
    builder.tree.Gains supply (builder.saveLeaf kind text).tree :=
  builder.gains_saveIn builder.cursor allowed

theorem gains_markError : builder.tree.Gains supply builder.markError.tree :=
  (builder.tree.gains_setAttribute ..).trans (Tree.gains_setAttribute ..)

theorem gains_setAttribute (id : NodeId) (key : Attribute) (value : String) :
    builder.tree.Gains supply (builder.setAttribute id key value).tree :=
  builder.tree.gains_setAttribute id key value

theorem gains_saveLeafWithError (allowed : supply.allows kind text) :
    builder.tree.Gains supply (builder.saveLeafWithError kind text).tree :=
  (builder.gains_saveLeaf allowed).trans (gains_markError _)

theorem adds_saveLeafBefore (allowed : supply.allows kind text) (sibling : NodeId) :
    Adds supply Builder.tree builder.tree (builder.saveLeafBefore kind text sibling) :=
  ((Tree.adds_insertBefore _ _ _).bind fun _ => .ok (.refl _)).after
    (builder.tree.gains_create allowed)

theorem gains_startStatementIn (target : NodeId) :
    builder.tree.Gains supply (builder.startStatementIn target).tree :=
  (builder.tree.gains_append target supply.statement).trans (Tree.gains_append _ _ supply.clause)

theorem gains_startStatement : builder.tree.Gains supply builder.startStatement.tree :=
  builder.gains_startStatementIn builder.cursor

/-! ### Moves -/

theorem adds_moveTo (id : NodeId) : Adds supply Builder.tree builder.tree (builder.moveTo id) :=
  .ite (.ok (.refl builder.tree)) (.error _)

theorem adds_moveUp (levels : Nat) :
    Adds supply Builder.tree builder.tree (builder.moveUp levels) := by
  rw [moveUp]
  split
  · exact builder.adds_moveTo _
  · exact .error _

theorem adds_moveUpTo (levels : Nat) (expected : NodeKind) :
    Adds supply Builder.tree builder.tree (builder.moveUpTo levels expected) := by
  rw [moveUpTo]
  split
  · exact .ite (builder.adds_moveTo _) (.error _)
  · exact .error _

theorem adds_moveUpIf (condition : Prop) [Decidable condition] (levels : Nat) :
    Adds supply Builder.tree builder.tree (if condition then builder.moveUp levels
      else .ok builder) :=
  .ite (builder.adds_moveUp levels) (.ok (.refl builder.tree))

theorem adds_enter (allowed : supply.allows kind "") :
    Adds supply Builder.tree builder.tree (builder.enter kind) :=
  (adds_moveTo _ _).after (builder.gains_save allowed)

theorem adds_enterContainer {body : NodeKind} {keyword : String} (allowed : supply.allows kind "")
    (opens : supply.allows .containerOpen "") (holds : supply.allows body "")
    (spelled : supply.allows .otherKeyword keyword) :
    Adds supply Builder.tree builder.tree (builder.enterContainer kind keyword body) := by
  have gains :=
    ((builder.gains_save allowed).trans (gains_saveIn _ (builder.save kind "").2 opens)).trans
    (gains_saveIn _ (builder.save kind "").2 holds)
  exact ((adds_moveTo _ _).bind fun moved => .ok (moved.gains_saveIn _ spelled)).after gains

theorem adds_takeComments (container : NodeId) :
    Adds supply Builder.tree builder.tree (builder.takeComments container) :=
  (builder.tree.adds_moveOwnLineComments _ _ _).bind fun moved => .ok (.refl moved)

/-! ### Ends of statements -/

theorem adds_leaveBetween : Adds supply Builder.tree builder.tree builder.leaveBetween :=
  builder.adds_moveUpIf _ _

theorem adds_leaveMergeAction : Adds supply Builder.tree builder.tree builder.leaveMergeAction :=
  builder.adds_moveUpIf _ _

theorem adds_leavePartialStatement :
    Adds supply Builder.tree builder.tree builder.leavePartialStatement := by
  have up : ∀ levels, Adds supply Builder.tree builder.tree (builder.moveUp levels) :=
    builder.adds_moveUp
  exact .ite (up 1)
    (.ite (up 3) (.ite (up 3) (.ite (up 3) (.ite (up 2) (builder.adds_moveUpIf _ 2)))))

theorem adds_leaveCursorQuery : Adds supply Builder.tree builder.tree builder.leaveCursorQuery :=
  builder.adds_moveUpIf _ _

theorem adds_leaveSelectionTarget :
    Adds supply Builder.tree builder.tree builder.leaveSelectionTarget :=
  (builder.adds_moveUpIf _ 1).bind_ite fun left => left.adds_moveUpIf _ 1

theorem adds_leaveJoinCondition :
    Adds supply Builder.tree builder.tree builder.leaveJoinCondition :=
  builder.adds_moveUpIf _ _

theorem adds_leaveSingleBodies (bound : Nat) :
    Adds supply Builder.tree builder.tree (builder.leaveSingleBodies bound) := by
  induction bound generalizing builder with
  | zero => exact .ok (.refl builder.tree)
  | succ bound ih =>
    rw [leaveSingleBodies]
    refine .ite ?_ (.ok (.refl builder.tree))
    split
    · exact .error _
    · dsimp only
      split
      · exact .error _
      · exact (builder.adds_moveTo _).bind ih

theorem adds_leaveStatementContainers :
    Adds supply Builder.tree builder.tree builder.leaveStatementContainers := by
  refine builder.adds_leaveBetween.bind fun builder =>
    builder.adds_leaveSelectionTarget.bind fun builder =>
    builder.adds_leaveJoinCondition.bind fun builder => .ite ?_ (.ok (.refl builder.tree))
  exact builder.adds_leaveCursorQuery.bind fun builder =>
    builder.adds_leaveMergeAction.bind fun builder =>
    builder.adds_leavePartialStatement.bind fun builder => builder.adds_leaveSingleBodies _

theorem adds_nextStatementContainer (leaveEmpty : Bool) :
    Adds supply (fun found => found.1.tree) builder.tree
      (builder.nextStatementContainer leaveEmpty) := by
  refine builder.adds_leaveStatementContainers.bind fun builder => .ite ?_ (.ite ?_ ?_)
  · split
    · exact .ok (.refl builder.tree)
    · exact .ok (builder.gains_saveIn _ supply.body)
  all_goals exact .ok (.refl builder.tree)

theorem adds_findBatchEnd :
    Adds supply (fun found => found.1.tree) builder.tree builder.findBatchEnd := by
  refine (builder.adds_nextStatementContainer true).bind ?_
  rintro ⟨left, _ | container⟩ <;> exact .ok (.refl left.tree)

theorem adds_considerStatement :
    Adds supply Builder.tree builder.tree builder.considerStatement := by
  refine builder.adds_leaveBetween.bind fun builder =>
    builder.adds_leaveSelectionTarget.bind fun builder =>
    builder.adds_leaveJoinCondition.bind fun builder =>
      (builder.adds_nextStatementContainer false).bind ?_
  rintro ⟨left, _ | target⟩
  · exact .ok (.refl left.tree)
  · refine Adds.after ?_ (left.gains_startStatementIn target)
    exact (Adds.ite (.ok (.refl _)) (adds_takeComments _ _)).bind_ite fun middle =>
      middle.adds_takeComments _

theorem adds_considerClause : Adds supply Builder.tree builder.tree builder.considerClause := by
  refine builder.adds_leaveSelectionTarget.bind fun builder =>
    builder.adds_leaveBetween.bind fun builder =>
    builder.adds_leavePartialStatement.bind fun builder =>
      builder.adds_leaveJoinCondition.bind fun builder => ?_
  split
  · refine .ite ?_ (.ok (.refl builder.tree))
    dsimp only
    split
    · exact .ok (.refl builder.tree)
    · exact ((adds_moveTo _ _).bind fun moved => moved.adds_takeComments _).after
        (builder.gains_saveIn _ supply.clause)
  · exact builder.adds_enter supply.clause
  · exact builder.adds_enter supply.clause
  · exact builder.adds_enter supply.clause
  · exact builder.adds_enter supply.clause
  · exact .ok (.refl builder.tree)

end Builder

end SqlLayout
