import SqlLayout.Builder.Comments
import SqlLayout.Proofs.Builder.Escape

/-!
# Moving children to another place

Children of a container leave it and land before an anchor elsewhere in the document, all of them in
order (`moveBefore`) or one by one from the end (`Retreats`).
-/

namespace SqlLayout

/-! ### Two places of one document

A seam is seen from two sides: from a container that sheds comments, with the rest of the document
around it, and from the container where the comments land, right before `anchor`. -/

/-- A document with a container at one place and a list of outlines before an anchor at another. -/
structure Seam where
  /-- The rest of the document around the container. -/
  spine : List Outline → List Frame
  /-- The document up to where the outlines land. -/
  landing : Outline → Draft
  /-- What the outlines land before. -/
  anchor : Outline
  /-- What comes after the anchor. -/
  more : List Outline
  agree : ∀ container moved, Frame.plug (spine moved) container =
    ((landing container).addAll (moved ++ anchor :: more)).outline

/-- The seam once outlines have moved: what moves next lands before them. -/
def Seam.past (seam : Seam) (moving : List Outline) : Seam where
  spine moved := seam.spine (moved ++ moving)
  landing := seam.landing
  anchor := moving.headD seam.anchor
  more := (moving ++ seam.anchor :: seam.more).tail
  agree container moved := by
    have rest : moving ++ seam.anchor :: seam.more =
        moving.headD seam.anchor :: (moving ++ seam.anchor :: seam.more).tail := by
      cases moving <;> rfl
    rw [← rest, ← List.append_assoc]
    exact seam.agree _ (moved ++ moving)

theorem Seam.past_anchor_id (seam : Seam) (moving : List Outline) :
    (seam.past moving).anchor.id = (moving.map Outline.id).headD seam.anchor.id := by
  cases moving <;> rfl

def Seam.inside (seam : Seam) (draft : Draft) (before kept : List Outline) : Seam where
  spine moved := { draft.frame with before, after := kept } :: seam.spine moved
  landing container :=
    seam.landing (Frame.close { draft.frame with before, after := kept } container)
  anchor := seam.anchor
  more := seam.more
  agree _ moved := seam.agree _ moved

namespace Draft

variable {draft : Draft}

def enters (draft : Draft) : List (NodeId × NodeKind) → Draft
  | [] => draft
  | (id, kind) :: inner => (draft.enter id kind).enters inner

/-- Outlines with containers around them, the outermost first. -/
def nest (outlines : List Outline) : List (NodeId × NodeKind) → List Outline
  | [] => outlines
  | (id, kind) :: inner => [.node id kind "" {} (nest outlines inner)]

theorem outline_enters (draft : Draft) (opened : List (NodeId × NodeKind))
    (outlines : List Outline) :
    ((draft.enters opened).addAll outlines).outline =
      (draft.addAll (nest outlines opened)).outline := by
  induction opened generalizing draft with
  | nil => rfl
  | cons first rest ih =>
    rw [enters, ih, nest, ← outline_up]
    simp [up, enter, addAll, frame, closed]

theorem ups_eq {inner outer : List Frame} {frame : Frame}
    (around : draft.outer = inner ++ frame :: outer) :
    draft.ups (inner.length + 1) =
      { id := frame.id, kind := frame.kind, attributes := frame.attributes
        children := frame.before ++ Frame.plug inner draft.closed :: frame.after, outer } := by
  induction inner generalizing draft with
  | nil => exact up_eq around
  | cons first rest ih =>
    have further : draft.up.outer = rest ++ frame :: outer := by rw [up_eq around]; rfl
    rw [List.length_cons, ups, ih further, up_eq around]
    rfl

end Draft

/-- The seam between a container and a new one that opens behind everything in a frame around it. -/
def Seam.across (inner : List Frame) (frame : Frame) (outer : List Frame)
    (opened : List (NodeId × NodeKind)) (ready : List Outline) (anchor : Outline) : Seam where
  spine moved :=
    inner ++
      { frame with after := frame.after ++ Draft.nest (ready ++ moved ++ [anchor]) opened } :: outer
  landing container :=
    (Draft.enters
      { id := frame.id, kind := frame.kind, attributes := frame.attributes
        children := frame.before ++ Frame.plug inner container :: frame.after,
        outer } opened).addAll ready
  anchor := anchor
  more := []
  agree container moved := by
    have landed := Draft.outline_enters
      { id := frame.id, kind := frame.kind, attributes := frame.attributes
        children := frame.before ++ Frame.plug inner container :: frame.after, outer } opened
      (ready ++ moved ++ [anchor])
    simp only [Draft.addAll, List.append_assoc] at landed ⊢
    rw [landed]
    simp [Frame.plug, Draft.outline, Draft.closed, Frame.close]

namespace Tree

variable {tree : Tree} {draft : Draft} {front moving : List Outline}

theorem moveOne (seam : Seam) {front back done : List Outline} {moved : Outline}
    (shown : tree.Shows
      { draft with children := front ++ moved :: back, outer := seam.spine done }) :
    ∃ grown, (tree.detach moved.id).insertBefore moved.id seam.anchor.id = .ok grown ∧
      grown.Shows
        { draft with children := front ++ back, outer := seam.spine (done ++ [moved]) } := by
  let kept : Draft := { draft with children := front ++ back, outer := seam.spine done }
  let landed : Draft := seam.landing kept.closed
  -- The document without the child, seen from where the child lands.
  have whole : tree.Shows { kept with children := front ++ moved :: back } := shown
  have views :
      { landed with children := (landed.children ++ done) ++ seam.anchor :: seam.more }.outline =
      kept.outline := by
    rw [List.append_assoc]
    exact (seam.agree kept.closed done).symm
  have detached : (tree.detach moved.id).Holds (kept.records ++ moved.records none) := whole.detach
  have loose := detached.perm (((Draft.records_perm _).trans
    (views ▸ kept.records_perm.symm)).append_right (moved.records none))
  have rooted : landed.outline.id = root := by
    have keptRooted : kept.outline.id = root := Draft.rooted_of_pathIds whole.rooted rfl
    rw [← views] at keptRooted
    exact Draft.rooted_of_pathIds keptRooted rfl
  obtain ⟨grown, inserted, shown⟩ := Shows.insertBefore loose rooted
  refine ⟨grown, inserted, shown.of_outline ?_⟩
  have after := seam.agree kept.closed (done ++ [moved])
  simp only [List.append_assoc, List.singleton_append] at after ⊢
  exact after

/-- Children of the container in hand go, in order, before the anchor of a seam. -/
theorem moveBefore_seam (seam : Seam) {done : List Outline}
    (shown : tree.Shows { draft with children := front ++ moving, outer := seam.spine done }) :
    ∃ grown, tree.moveBefore seam.anchor.id (moving.map Outline.id) = .ok grown ∧
      grown.Shows { draft with children := front, outer := seam.spine (done ++ moving) } := by
  induction moving generalizing tree done with
  | nil => exact ⟨tree, rfl, by simpa using shown⟩
  | cons first rest ih =>
    obtain ⟨grown, inserted, shown⟩ := moveOne seam shown
    obtain ⟨final, moved, shown⟩ := ih shown
    refine ⟨final, ?_, by simpa using shown⟩
    rw [List.map_cons, moveBefore, inserted]
    exact moved

/-! ### One by one -/

/-- The last children of a container, back to one of them, go one by one: the last one before the
anchor, and each other one before the one that went last. -/
inductive Retreats (container first : NodeId) : Tree → NodeId → Tree → Prop where
  | last {tree grown : Tree} {anchor : NodeId} (isLast : tree.lastChild container = some first)
      (inserted : (tree.detach first).insertBefore first anchor = .ok grown) :
      Retreats container first tree anchor grown
  | step {tree between grown : Tree} {anchor moving : NodeId}
      (isLast : tree.lastChild container = some moving) (other : moving ≠ first)
      (inserted : (tree.detach moving).insertBefore moving anchor = .ok between)
      (next : Retreats container first between moving grown) :
      Retreats container first tree anchor grown

theorem Shows.lastChild_eq (shown : tree.Shows draft) :
    tree.lastChild draft.id = (draft.children.map Outline.id).getLast? := by
  rw [lastChild, shown.children_id]

theorem moveLast (seam : Seam) {last : Outline}
    (shown : tree.Shows { draft with children := front ++ [last], outer := seam.spine moving }) :
    ∃ grown, tree.lastChild draft.id = some last.id ∧
      (tree.detach last.id).insertBefore last.id ((moving.map Outline.id).headD seam.anchor.id) =
        .ok grown ∧
      grown.Shows { draft with children := front, outer := seam.spine (last :: moving) } := by
  rcases @moveOne tree draft (seam.past moving) front [] [] last shown with ⟨grown, inserted, after⟩
  rw [seam.past_anchor_id] at inserted
  rw [List.append_nil] at after
  exact ⟨grown, by simpa using shown.lastChild_eq, inserted, after⟩

/-- Going one by one leads where going in order leads. -/
theorem exists_retreats (seam : Seam) {passed : List Outline} {first : Outline}
    (shown : tree.Shows { draft with children := front ++ first :: passed
                                     outer := seam.spine moving }) :
    ∃ grown, Retreats draft.id first.id tree ((moving.map Outline.id).headD seam.anchor.id) grown ∧
      grown.Shows { draft with children := front
                               outer := seam.spine (first :: passed ++ moving) } := by
  induction passed using List.reverseRecOn generalizing tree moving with
  | nil =>
    rcases moveLast seam shown with ⟨grown, isLast, inserted, after⟩
    exact ⟨grown, .last isLast inserted, after⟩
  | append_singleton passed last ih =>
    have differs : last.id ≠ first.id := by
      have distinct := Draft.nodup_children _ shown.holds.distinct
      simp only [List.map_append, List.map_cons, List.nodup_append, List.nodup_cons] at distinct
      intro same
      exact distinct.2.1.1 (by simp [same])
    rw [← List.cons_append, ← List.append_assoc] at shown
    rcases moveLast seam shown with ⟨between, isLast, inserted, after⟩
    rcases ih after with ⟨grown, retreats, after⟩
    rw [List.append_cons] at after
    exact ⟨grown, .step isLast differs inserted retreats, after⟩

end Tree

end SqlLayout
