import SqlLayout.Proofs.Builder.Seam
import SqlLayout.Proofs.Tree.Links

/-!
# Comments go in front of what follows them

The stored form of `Outline.shed`: the comments that leave a container, with those that leave the
last contents inside it, end up in order right before the anchor.
-/

namespace SqlLayout

variable {id : NodeId} {draft : Draft}

namespace Tree

variable {tree : Tree} {draft : Draft} {first : Outline} {behind : List Outline}

/-! ### Reading the end of a container -/

/-- A tree stores the kind and the text of an outline. -/
def Knows (tree : Tree) (outline : Outline) : Prop :=
  tree.kind outline.id = outline.kind ∧ tree.text outline.id = outline.text

theorem Shows.node_of_mem (shown : tree.Shows draft) {child : Outline}
    (member : child ∈ draft.children) : tree.node child.id = child.stored (some draft.id) := by
  obtain ⟨front, back, children⟩ := List.append_of_mem member
  have shown : tree.Shows { draft with children := front ++ child :: back } := children ▸ shown
  exact shown.node_child

theorem Shows.knows (shown : tree.Shows draft) : ∀ child ∈ draft.children, tree.Knows child :=
  fun child member => ⟨congrArg Node.kind (shown.node_of_mem member :
    tree.node child.id = child.stored _), congrArg Node.text (shown.node_of_mem member)⟩

theorem startsLine_eq {comment before : Outline} (known : tree.Knows comment)
    (knownBefore : tree.Knows before) :
    tree.startsLine comment.id before.id = (before.breaksLine && comment.kind.isComment) := by
  rw [startsLine, known.1, knownBefore.1, knownBefore.2, Outline.breaksLine]
  cases comment.kind.isComment <;> simp

theorem isTrivia_of_breaksLine {outline : Outline} (breaks : outline.breaksLine = true) :
    outline.kind.isTrivia = true := by
  simp only [Outline.breaksLine, Bool.and_eq_true, beq_iff_eq] at breaks
  rw [breaks.1]
  rfl

theorem readTail_blank (blank : tree.kind id = .whiteSpace) (passed moving before : List NodeId) :
    tree.readTail passed moving (id :: before) = tree.readTail (id :: passed) moving before := by
  conv_lhs => unfold readTail
  exact if_pos blank

theorem readTail_comment {previous : NodeId} (comment : (tree.kind id).isComment = true)
    (passed moving others : List NodeId) :
    tree.readTail passed moving (id :: previous :: others) =
      if tree.startsLine id previous then
        tree.readTail [] (id :: passed ++ moving) (previous :: others)
      else if (tree.kind previous).isTrivia then
        tree.readTail (id :: passed) moving (previous :: others)
      else { moving, inner := if tree.text id = "" then some id else none } := by
  have notBlank : tree.kind id ≠ .whiteSpace := by
    intro blank
    rw [blank] at comment
    simp [NodeKind.isComment] at comment
  conv_lhs => unfold readTail
  rw [if_neg notBlank]
  simp only [comment]

theorem readTail_content (content : (tree.kind id).isTrivia = false)
    (passed moving before : List NodeId) :
    tree.readTail passed moving (id :: before) =
      { moving, inner := if tree.text id = "" then some id else none } := by
  simp only [NodeKind.isTrivia, Bool.or_eq_false_iff, beq_eq_false_iff_ne] at content
  unfold readTail
  rw [if_neg content.1]
  simp only [content.2]

theorem readTail_single (notBlank : tree.kind id ≠ .whiteSpace) (passed moving : List NodeId) :
    tree.readTail passed moving [id] =
      { moving, inner := if tree.text id = "" then some id else none } := by
  rw [readTail, if_neg notBlank]
  simp

theorem readTail_trivia (known : tree.Knows first)
    (knownBehind : ∀ outline ∈ behind, tree.Knows outline)
    (trivia : ∀ outline ∈ behind, outline.kind.isTrivia = true)
    (apart : first.kind.isTrivia = true ∨ behind.head?.any (·.kind.isComment) = false)
    (passed moving before : List NodeId) :
    tree.readTail passed moving ((behind.reverse.map Outline.id) ++ first.id :: before) =
      if (Outline.splitOwnLine first.breaksLine behind).2 = [] then
        tree.readTail (behind.map Outline.id ++ passed) moving (first.id :: before)
      else
        tree.readTail ((Outline.splitOwnLine first.breaksLine behind).1.map Outline.id)
          ((Outline.splitOwnLine first.breaksLine behind).2.map Outline.id ++ passed ++ moving)
          (first.id :: before) := by
  induction behind using List.reverseRecOn generalizing passed moving with
  | nil => simp [Outline.splitOwnLine]
  | append_singleton behind last ih =>
    obtain ⟨knownFront, knownLast⟩ := List.forall_mem_append.mp knownBehind
    replace knownLast := knownLast last (by simp)
    obtain ⟨triviaFront, triviaLast⟩ := List.forall_mem_append.mp trivia
    replace triviaLast := triviaLast last (by simp)
    have apartFront : first.kind.isTrivia = true ∨ behind.head?.any (·.kind.isComment) = false := by
      refine apart.imp id fun none => ?_
      cases behind with
      | nil => rfl
      | cons head _ => simpa using none
    have ih := ih knownFront triviaFront apartFront
    -- The node right before the last one, with the rest of the list.
    obtain ⟨previous, others, rest, knownPrevious, ends, triviaPrevious⟩ : ∃ previous others,
        (behind.reverse.map Outline.id) ++ first.id :: before = Outline.id previous :: others ∧
        tree.Knows previous ∧
        previous.breaksLine = Outline.endsBroken first.breaksLine behind ∧
        (last.kind.isComment = true → previous.kind.isTrivia = true) := by
      cases behind using List.reverseRecOn with
      | nil =>
        refine ⟨first, before, rfl, known, rfl, fun isComment => ?_⟩
        exact apart.resolve_right (by simp [isComment])
      | append_singleton front previous =>
        refine ⟨previous, (front.reverse.map Outline.id) ++ first.id :: before, by simp,
          knownFront previous (by simp), by simp [Outline.endsBroken], fun _ => ?_⟩
        exact triviaFront previous (by simp)
    rw [Outline.splitOwnLine_concat, List.reverse_append, List.reverse_singleton,
      List.singleton_append, List.map_cons, List.cons_append]
    by_cases blank : last.kind = .whiteSpace
    · have notComment : last.kind.isComment = false := by rw [blank]; rfl
      rw [readTail_blank (knownLast.1.trans blank), ih, notComment, Bool.and_false]
      split <;> simp_all
    · have comment : last.kind.isComment = true := by
        simpa [NodeKind.isTrivia, blank] using triviaLast
      rw [rest, readTail_comment (knownLast.1 ▸ comment), startsLine_eq knownLast knownPrevious,
        comment, ends, knownPrevious.1, triviaPrevious comment, ← rest, ih, ih]
      by_cases none : (Outline.splitOwnLine first.breaksLine behind).2 = [] <;>
        cases Outline.endsBroken first.breaksLine behind <;> simp [none]

theorem readTail_stop {before : List NodeId} {inner : Option NodeId} (known : tree.Knows first)
    (knownBehind : ∀ outline ∈ behind, tree.Knows outline)
    (trivia : ∀ outline ∈ behind, outline.kind.isTrivia = true)
    (apart : first.kind.isTrivia = true ∨ behind.head?.any (·.kind.isComment) = false)
    (stops : ∀ passed moving, tree.readTail passed moving (first.id :: before) =
      { moving, inner }) :
    tree.readTail [] [] ((behind.reverse.map Outline.id) ++ first.id :: before) =
      { moving := (Outline.splitOwnLine first.breaksLine behind).2.map Outline.id, inner } := by
  rw [readTail_trivia known knownBehind trivia apart, stops, stops]
  split
  next none => rw [none]; rfl
  next => simp

/-- What follows the last content of a container, and where to look on. -/
theorem readTail_children {before : List Outline}
    (known : ∀ outline ∈ before ++ first :: behind, tree.Knows outline)
    (trivia : Outline.anyContent behind = false)
    (last : before = [] ∨ first.kind.isTrivia = false) :
    ∃ inner, tree.readTail [] [] ((before ++ first :: behind).map Outline.id).reverse =
        { moving := (Outline.splitOwnLine first.breaksLine behind).2.map Outline.id, inner } ∧
      (if first.mayHide behind then inner = some first.id
        else ∀ id ∈ inner, ∃ kept ∈ first :: (Outline.splitOwnLine first.breaksLine behind).1,
          kept.kind.isTrivia = true ∧ kept.id = id) := by
  have knownFirst : tree.Knows first := known first (by simp)
  have knownBehind : ∀ outline ∈ behind, tree.Knows outline := fun outline member =>
    known outline (by simp [member])
  have triviaBehind : ∀ outline ∈ behind, outline.kind.isTrivia = true := fun _ =>
    Outline.isTrivia_of_mem trivia
  have reversed : ((before ++ first :: behind).map Outline.id).reverse =
      (behind.reverse.map Outline.id) ++ first.id :: (before.map Outline.id).reverse := by simp
  rw [reversed]
  cases isTrivia : first.kind.isTrivia with
  | true =>
    -- There is no content at all.
    obtain rfl : before = [] := last.resolve_right (by simp [isTrivia])
    obtain ⟨inner, stops, isFirst⟩ : ∃ inner,
        (∀ passed moving, tree.readTail passed moving [first.id] =
        { moving, inner }) ∧ ∀ id ∈ inner, first.id = id := by
      by_cases blank : first.kind = .whiteSpace
      · exact ⟨none, fun passed moving => readTail_blank (knownFirst.1.trans blank) .., by simp⟩
      · refine ⟨if first.text = "" then some first.id else none, fun passed moving => ?_, by simp⟩
        rw [readTail_single (knownFirst.1 ▸ blank), knownFirst.2]
    refine ⟨inner, readTail_stop knownFirst knownBehind triviaBehind (.inl isTrivia) stops, ?_⟩
    rw [if_neg (by simp [Outline.mayHide, isTrivia])]
    exact fun id member => ⟨first, .head _, isTrivia, isFirst id member⟩
  | false =>
    cases commented : behind.head?.any (·.kind.isComment) with
    | true =>
      -- The comment right behind the content stays, and is what is looked into.
      obtain ⟨comment, others, rfl⟩ := List.exists_cons_of_ne_nil
        (fun none => by simp [none] at commented : behind ≠ [])
      have isComment : comment.kind.isComment = true := commented
      have unbroken : first.breaksLine = false := by
        rw [← Bool.not_eq_true]
        exact fun breaks => by simp [isTrivia_of_breaksLine breaks] at isTrivia
      have stays : Outline.splitOwnLine first.breaksLine (comment :: others) =
          (comment :: (Outline.splitOwnLine comment.breaksLine others).1,
            (Outline.splitOwnLine comment.breaksLine others).2) := by
        simp [Outline.splitOwnLine, unbroken]
      have triviaComment := triviaBehind comment (.head _)
      refine ⟨if comment.text = "" then some comment.id else none, ?_, ?_⟩
      · rw [stays, List.reverse_cons, List.map_append, List.append_assoc, List.map_singleton,
          List.singleton_append]
        refine readTail_stop (knownBehind comment (.head _))
          (fun outline member => knownBehind outline (.tail _ member))
          (fun outline member => triviaBehind outline (.tail _ member)) (.inl triviaComment)
          fun passed moving => ?_
        have follows := (startsLine_eq (knownBehind comment (.head _)) knownFirst).trans
          (by rw [unbroken, Bool.false_and])
        rw [readTail_comment ((knownBehind comment (.head _)).1 ▸ isComment), follows, knownFirst.1,
          isTrivia, (knownBehind comment (.head _)).2]
        rfl
      · rw [if_neg (by simp [Outline.mayHide, isComment]), stays]
        intro id member
        refine ⟨comment, by simp, triviaComment, ?_⟩
        split at member <;> simp_all
    | false =>
      refine ⟨if first.text = "" then some first.id else none,
        readTail_stop knownFirst knownBehind triviaBehind (.inr commented)
          fun passed moving => ?_, ?_⟩
      · rw [readTail_content (knownFirst.1 ▸ isTrivia), knownFirst.2]
      · by_cases textless : first.text = ""
        · simp [Outline.mayHide, isTrivia, commented, textless]
        · simp [Outline.mayHide, textless]

/-! ### One candidate after the other -/

/-- Content, as opposed to a blank and to a comment behind a blank or a comment. -/
def IsSolid (tree : Tree) (id : NodeId) : Prop :=
  tree.kind id ≠ .whiteSpace ∧ ∀ previous ∈ tree.previousSibling id,
    (tree.kind id).isComment = true → (tree.kind previous).isTrivia = false

/-- The search for comments on lines of their own from a candidate in a container backwards. A
comment that is found goes before the anchor with everything behind it, and the search starts over
from the end of the container. Where content ends it, it goes on inside a node without a text. -/
inductive Searches : NodeId → NodeId → Option NodeId → Tree → Tree → Prop where
  | done {container anchor : NodeId} {tree : Tree} : Searches container anchor none tree tree
  | blank {container anchor id : NodeId} {tree after : Tree} (isBlank : tree.kind id = .whiteSpace)
      (next : Searches container anchor (tree.previousSibling id) tree after) :
      Searches container anchor (some id) tree after
  | found {container anchor id previous : NodeId} {tree grown after : Tree}
      (isPrevious : tree.previousSibling id = some previous)
      (starts : tree.startsLine id previous = true)
      (retreats : Retreats container id tree anchor grown)
      (next : Searches container id (grown.lastChild container) grown after) :
      Searches container anchor (some id) tree after
  | inline {container anchor id previous : NodeId} {tree after : Tree}
      (isPrevious : tree.previousSibling id = some previous)
      (isComment : (tree.kind id).isComment = true)
      (isTrivia : (tree.kind previous).isTrivia = true)
      (starts : tree.startsLine id previous = false)
      (next : Searches container anchor (some previous) tree after) :
      Searches container anchor (some id) tree after
  | text {container anchor id : NodeId} {tree : Tree} (solid : tree.IsSolid id)
      (full : tree.text id ≠ "") : Searches container anchor (some id) tree tree
  | inside {container anchor id : NodeId} {tree after : Tree} (solid : tree.IsSolid id)
      (hollow : tree.text id = "") (next : Searches id anchor (tree.lastChild id) tree after) :
      Searches container anchor (some id) tree after

theorem predecessor_append {front : List NodeId} (back : List NodeId) (fresh : id ∉ front) :
    predecessor id (front ++ id :: back) = front.getLast? := by
  induction front with
  | nil => cases back <;> simp [predecessor]
  | cons first rest ih =>
    rw [List.mem_cons, not_or] at fresh
    cases rest with
    | nil => simp [predecessor, Ne.symm fresh.1]
    | cons second rest =>
      have later := ih fresh.2
      simp_all [predecessor, eq_comm]

theorem Shows.previousSibling_eq (shown : tree.Shows draft) {front back : List Outline}
    {child : Outline} (children : draft.children = front ++ child :: back) :
    tree.previousSibling child.id = (front.map Outline.id).getLast? := by
  have distinct := Draft.nodup_children _ shown.holds.distinct
  rw [children, List.map_append, List.map_cons, List.nodup_append] at distinct
  rw [previousSibling, parent, shown.node_of_mem (by simp [children])]
  dsimp only [Outline.stored, Option.bind_some]
  rw [shown.children_id, children, List.map_append, List.map_cons]
  exact predecessor_append _ fun member => distinct.2.2 _ member _ List.mem_cons_self rfl

/-- The search goes on behind what was read off the end of a container. -/
def Tail.Continues (tail : Tail) (anchor : NodeId) (grown after : Tree) : Prop :=
  match tail.inner with
  | none => grown = after
  | some inner => Searches inner (tail.moving.headD anchor) (grown.lastChild inner) grown after

/-- What is read off the end of a container is what the search finds there. -/
theorem searches_of_readTail (seam : Seam) {origin after : Tree} {tail : Tail}
    {before passed moving : List Outline} (known : ∀ outline ∈ before, origin.Knows outline)
    (shown : tree.Shows { draft with children := before ++ passed, outer := seam.spine moving })
    (reads : origin.readTail (passed.map Outline.id) (moving.map Outline.id)
      (before.map Outline.id).reverse = tail)
    (onward : ∀ grown kept moved,
      grown.Shows { draft with children := kept, outer := seam.spine moved } →
      kept ++ moved = before ++ passed ++ moving → moved.map Outline.id = tail.moving →
      tail.Continues seam.anchor.id grown after) :
    Searches draft.id ((moving.map Outline.id).headD seam.anchor.id)
      (before.map Outline.id).getLast? tree after := by
  induction before using List.reverseRecOn generalizing tree passed moving with
  | nil =>
    subst reads
    have same : tree = after := onward tree passed moving shown rfl rfl
    rw [same]
    exact .done
  | append_singleton front last ih =>
    rcases List.forall_mem_append.mp known with ⟨knownFront, knownLast⟩
    replace knownLast := knownLast last (.head _)
    rw [List.append_assoc, List.singleton_append] at shown
    have sees : tree.Knows last := shown.knows last (by simp)
    have previous := shown.previousSibling_eq rfl
    have onward : ∀ grown kept moved,
        grown.Shows { draft with children := kept, outer := seam.spine moved } →
        kept ++ moved = front ++ last :: passed ++ moving → moved.map Outline.id = tail.moving →
        tail.Continues seam.anchor.id grown after := fun grown kept moved after parts =>
      onward grown kept moved after (by simpa using parts)
    -- Content ends the search, or is searched itself.
    have ends (solid : tree.IsSolid last.id)
        (isTail : { moving := moving.map Outline.id
                    inner := if origin.text last.id = "" then some last.id else none } = tail) :
        Searches draft.id ((moving.map Outline.id).headD seam.anchor.id) (some last.id) tree
          after := by
      subst isTail
      have next := onward tree (front ++ last :: passed) moving shown rfl rfl
      rw [Tail.Continues, knownLast.2] at next
      by_cases hollow : last.text = ""
      · rw [if_pos hollow] at next
        exact .inside solid (sees.2.trans hollow) next
      · rw [if_neg hollow] at next
        cases (next : tree = after)
        exact .text solid (sees.2 ▸ hollow)
    rw [List.map_append, List.map_singleton, List.getLast?_concat]
    rw [List.map_append, List.map_singleton, List.reverse_append, List.reverse_singleton,
      List.singleton_append] at reads
    by_cases blank : last.kind = .whiteSpace
    · rw [readTail_blank (knownLast.1.trans blank)] at reads
      refine .blank (sees.1.trans blank) (previous ▸ ?_)
      exact ih knownFront shown reads onward
    cases comment : last.kind.isComment with
    | false =>
      rw [readTail_content (by simp [knownLast.1, NodeKind.isTrivia, blank, comment])] at reads
      refine ends ⟨sees.1 ▸ blank, fun _ _ isComment => ?_⟩ reads
      rw [sees.1, comment] at isComment
      cases isComment
    | true =>
      cases front using List.reverseRecOn with
      | nil =>
        refine ends ⟨sees.1 ▸ blank, by simp [previous]⟩ ?_
        rw [← reads]
        exact (readTail_single (knownLast.1 ▸ blank) ..).symm
      | append_singleton others prior =>
        have knownPrior : origin.Knows prior := knownFront prior (by simp)
        have seesPrior : tree.Knows prior := shown.knows prior (by simp)
        rw [List.map_append, List.map_singleton, List.getLast?_concat] at previous
        rw [List.map_append, List.map_singleton, List.reverse_append, List.reverse_singleton,
          List.singleton_append, readTail_comment (knownLast.1 ▸ comment),
          startsLine_eq knownLast knownPrior, ← startsLine_eq sees seesPrior, knownPrior.1,
          ← seesPrior.1] at reads
        split at reads
        next starts =>
          rcases exists_retreats seam shown with ⟨grown, retreats, shown⟩
          refine .found previous starts retreats ?_
          rw [shown.lastChild_eq]
          refine @ih grown [] (last :: passed ++ moving) knownFront (by simpa using shown)
            (by simpa using reads) fun grown kept moved shown parts => ?_
          exact onward grown kept moved shown (by simpa using parts)
        next starts =>
          split at reads
          next isTrivia =>
            refine .inline previous (sees.1 ▸ comment) isTrivia (by simpa using starts) ?_
            have later := @ih tree (last :: passed) moving knownFront shown (by simpa using reads)
              onward
            rwa [List.map_append, List.map_singleton, List.getLast?_concat] at later
          next content =>
            refine ends ⟨sees.1 ▸ blank, fun _ isPrevious _ => ?_⟩ reads
            cases previous.symm.trans isPrevious
            simpa using content

/-! ### Moving -/

theorem moveOwnLineComments_childless {container : NodeId}
    (childless : tree.children container = []) (anchor : NodeId) (bound : Nat) :
    tree.moveOwnLineComments container anchor bound = .ok tree := by
  cases bound with
  | zero => rfl
  | succ bound =>
    rw [moveOwnLineComments, tail, childless]
    rfl

/-- The comments that leave the container in hand land before the anchor of a seam. -/
theorem moveOwnLineComments_seam {bound : Nat} (seam : Seam) {children : List Outline}
    (shown : tree.Shows { draft with children, outer := seam.spine [] })
    (regular : ∀ child ∈ children, child.Regular)
    (enough : (Outline.recordsOfList (some draft.id) children).length < bound) :
    ∃ grown, tree.moveOwnLineComments draft.id seam.anchor.id bound = .ok grown ∧
      Searches draft.id seam.anchor.id (tree.lastChild draft.id) tree grown ∧
      grown.Shows { draft with children := (Outline.shedList children).1
                               outer := seam.spine (Outline.shedList children).2 } := by
  induction bound generalizing tree draft seam children with
  | zero => exact absurd enough (Nat.not_lt_zero _)
  | succ bound ih =>
    have stored : tree.children draft.id = children.map Outline.id := by
      rw [Tree.children, shown.node_id]
    by_cases childless : children = []
    · subst childless
      rw [Outline.shedList_nil]
      refine ⟨tree, moveOwnLineComments_childless stored .., ?_, shown⟩
      rw [lastChild, stored]
      exact .done
    obtain ⟨before, first, behind, rfl, trivia, last⟩ := Outline.exists_tail childless
    obtain ⟨inner, tails, looked⟩ := readTail_children shown.knows trivia last
    have sheds : Outline.shedList (before ++ first :: behind) =
        (before ++ (Outline.shedList (first :: behind)).1,
          (Outline.shedList (first :: behind)).2) := by
      rcases last with rfl | content
      · rfl
      · exact Outline.shedList_before content before behind
    obtain ⟨kept, moving, split⟩ : ∃ kept moving,
        Outline.splitOwnLine first.breaksLine behind = (kept, moving) := ⟨_, _, rfl⟩
    have whole := Outline.splitOwnLine_append first.breaksLine behind
    simp only [split] at whole tails looked
    subst whole
    rw [← List.cons_append, ← List.append_assoc] at shown tails stored
    obtain ⟨grown, moved, after⟩ := moveBefore_seam seam shown
    rw [List.nil_append] at after
    have searches {final : Tree}
        (continues : Tail.Continues { moving := moving.map Outline.id, inner } seam.anchor.id grown
          final) :
        Searches draft.id seam.anchor.id (tree.lastChild draft.id) tree final := by
      rw [lastChild, stored]
      refine @searches_of_readTail tree draft seam tree final _ _ [] [] shown.knows
        (by rwa [List.append_nil]) tails fun other front back shownToo parts same => ?_
      have length : back.length = moving.length := by simpa using congrArg List.length same
      rw [List.append_nil, List.append_nil] at parts
      rcases List.append_inj' parts length with ⟨rfl, rfl⟩
      rwa [shownToo.eq_of_outline after rfl]
    rw [← stored, ← tail] at tails
    rw [moveOwnLineComments, tails, sheds]
    change ∃ final, (tree.moveBefore seam.anchor.id (moving.map Outline.id) >>= _) = _ ∧ _
    rw [moved]
    cases hides : first.mayHide (kept ++ moving) with
    | false =>
      rw [Outline.shedList_stop trivia hides, split]
      rw [hides, if_neg Bool.false_ne_true] at looked
      cases inner with
      | none => exact ⟨grown, rfl, searches rfl, after⟩
      | some id =>
        -- What is looked into is a comment, which holds nothing.
        obtain ⟨comment, member, isTrivia, rfl⟩ := looked id rfl
        have isChild : comment ∈ before ++ first :: kept := List.mem_append_right _ member
        have childless : grown.children comment.id = [] := by
          have holds := (regular comment (by simp at isChild ⊢; tauto)).childless isTrivia
          rw [Tree.children, after.node_of_mem isChild, Outline.stored, holds]
          rfl
        refine ⟨grown, moveOwnLineComments_childless childless .., searches ?_, after⟩
        change Searches _ _ (grown.lastChild comment.id) _ _
        rw [lastChild, childless]
        exact .done
    | true =>
      rw [Outline.shedList_inner trivia hides, split]
      rw [hides, if_pos rfl] at looked
      subst looked
      obtain ⟨id, kind, text, attributes, inside⟩ := first
      obtain rfl : text = "" := by
        simp only [Outline.mayHide, Bool.and_eq_true, beq_iff_eq] at hides
        exact hides.1.2
      obtain ⟨_, _, regularBelow⟩ := regular (.node id kind "" attributes inside) (by simp)
      have fewer : (Outline.recordsOfList (some id) inside).length < bound := by
        simp only [Outline.recordsOfList_append, Outline.recordsOfList_cons, Outline.records_node,
          List.length_append, List.length_cons] at enough
        omega
      have below : grown.Shows { ({ id, kind, attributes } : Draft) with
          children := inside, outer := ((seam.past moving).inside draft before kept).spine [] } :=
        after.of_outline rfl
      obtain ⟨final, movedBelow, searchesBelow, shownBelow⟩ := ih _ below regularBelow fewer
      have anchor : ((seam.past moving).inside draft before kept).anchor.id =
          (moving.map Outline.id).headD seam.anchor.id := seam.past_anchor_id moving
      rw [anchor] at movedBelow searchesBelow
      exact ⟨final, movedBelow, searches searchesBelow, shownBelow.of_outline rfl⟩

end Tree

/-! ### Drafts -/

namespace Draft

variable {draft : Draft}

theorem lastKind_shed {kind : NodeKind} (ends : draft.lastKind = some kind)
    (content : kind.isTrivia = false) : draft.shed.lastKind = some kind := by
  obtain ⟨moved, trivia, kinds⟩ := Outline.exists_kinds_shedList draft.children
  have last : (draft.children.map Outline.kind).getLast? = some kind := by
    rw [List.getLast?_map]
    exact ends
  have none : moved = [] := by
    cases moved using List.reverseRecOn with
    | nil => rfl
    | append_singleton front final =>
      simp only [← kinds, List.map_append, List.map_cons, List.map_nil, List.getLast?_append,
        List.getLast?_singleton, Option.some_or, Option.some.injEq] at last
      rw [← last, trivia final (by simp)] at content
      exact absurd content (by decide)
  rw [none, List.map_nil, List.append_nil] at kinds
  rw [lastKind, ← List.getLast?_map]
  exact kinds ▸ last

theorem Leavable.shed (leavable : draft.Leavable) : draft.shed.Leavable where
  plain := leavable.plain
  temporary := leavable.temporary
  complete ending isEnding := by
    refine lastKind_shed (leavable.complete ending isEnding) ?_
    have content : ∀ kind : NodeKind, ∀ ending ∈ kind.finish?, ending.isTrivia = false := by
      intro kind
      cases kind <;> decide
    exact content _ ending isEnding

/-- What leaves a container leaves the containers around it too, as far as nothing is behind
them. -/
theorem Above.shed {other : Draft} (above : draft.Above other) (sound : draft.Sound) :
    draft.shed.Above other.shed ∧ other.shedding = draft.shedding := by
  induction above with
  | refl => exact ⟨.refl, rfl⟩
  | tail above leave ih =>
    obtain ⟨leavable, notCondition, enclosed, rfl⟩ := leave
    obtain ⟨kept, moved⟩ := shed_up (Above.sound above sound) enclosed notCondition
    exact ⟨.tail ih.1 ⟨leavable.shed, notCondition, enclosed, kept⟩, moved.trans ih.2⟩

end Draft

/-- A new container behind everything in a frame around the container in hand, seen from the
latter. -/
theorem Draft.outline_across {inner outer : List Frame} {frame : Frame}
    (around : draft.outer = inner ++ frame :: outer) (opened : List (NodeId × NodeKind))
    (ready : List Outline) (id : NodeId) (kind : NodeKind) :
    ((((draft.ups (inner.length + 1)).enters opened).addAll ready).enter id kind).outline =
      { draft with
        outer := (Seam.across inner frame outer opened [] (.leaf id kind "")).spine
          ready }.outline := by
  let seam := Seam.across inner frame outer opened [] (.leaf id kind "")
  rw [Draft.ups_eq around, Draft.outline_enter]
  refine Eq.trans ?_ (seam.agree draft.closed ready).symm
  simp [seam, Seam.across, Draft.addAll, Draft.add]

theorem Draft.exists_frame {levels : Nat} (enough : levels < draft.outer.length) :
    ∃ inner frame outer, draft.outer = inner ++ frame :: outer ∧ levels = inner.length := by
  refine ⟨draft.outer.take levels, draft.outer[levels], draft.outer.drop (levels + 1), ?_, ?_⟩
  · simp
  · simp
    omega

/-- The comments that leave a container go before a new container, which opens behind everything in
a container around it. The search for them, one candidate after the other, comes to this end. -/
theorem Tree.Shows.moveOwnLineComments {tree : Tree} {levels bound : Nat}
    (enough : levels < draft.outer.length) (regular : ∀ child ∈ draft.children, child.Regular)
    {opened : List (NodeId × NodeKind)} {ready : List Outline} {kind : NodeKind}
    (shown : tree.Shows ((((draft.ups (levels + 1)).enters opened).addAll ready).enter id kind))
    (large : tree.size ≤ bound) :
    ∃ grown, tree.moveOwnLineComments draft.id id bound = .ok grown ∧
      Searches draft.id id (tree.lastChild draft.id) tree grown ∧ grown.Shows
      ((((draft.shed.ups (levels + 1)).enters opened).addAll (ready ++ draft.shedding)).enter id
        kind) := by
  obtain ⟨inner, frame, outer, around, rfl⟩ := Draft.exists_frame enough
  have aroundShed : draft.shed.outer = inner ++ frame :: outer := around
  let seam := Seam.across inner frame outer opened ready (.leaf id kind "")
  have spine : ∀ moved, seam.spine moved =
      (Seam.across inner frame outer opened [] (.leaf id kind "")).spine (ready ++ moved) :=
        fun _ => rfl
  have shown : tree.Shows { draft with children := draft.children, outer := seam.spine [] } := by
    refine shown.of_outline ?_
    rw [spine, List.append_nil, ← Draft.outline_across around]
  have few : (Outline.recordsOfList (some draft.id) draft.children).length < bound := by
    have complete := shown.holds.complete
    simp only [Draft.records, List.length_cons, List.length_append] at complete
    omega
  obtain ⟨grown, moved, searches, grownShown⟩ :=
    Tree.moveOwnLineComments_seam seam shown regular few
  refine ⟨grown, moved, searches, grownShown.of_outline ?_⟩
  rw [Draft.outline_across aroundShed, spine]
  rfl

theorem Builder.Stands.takeComments {builder : Builder} {levels : Nat}
    (enough : levels < draft.outer.length) (regular : ∀ child ∈ draft.children, child.Regular)
    {opened : List (NodeId × NodeKind)} {ready : List Outline} {kind : NodeKind}
    (stands : builder.Stands
      ((((draft.ups (levels + 1)).enters opened).addAll ready).enter id kind)) :
    ∃ taken, builder.takeComments draft.id = .ok taken ∧ taken.Stands
      ((((draft.shed.ups (levels + 1)).enters opened).addAll (ready ++ draft.shedding)).enter id
        kind) := by
  obtain ⟨grown, moved, _, shown⟩ := stands.shown.moveOwnLineComments enough regular (Nat.le_refl _)
  refine ⟨{ builder with tree := grown }, ?_, shown, stands.cursor⟩
  have anchor : builder.cursor = id := stands.cursor
  rw [Builder.takeComments, anchor, moved]
  rfl

end SqlLayout
