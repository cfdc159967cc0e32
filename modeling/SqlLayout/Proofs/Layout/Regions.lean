import SqlLayout.Proofs.Formatting
import SqlLayout.Proofs.Layout.Traversal

/-!
# What regions keep

A comment that is written outside a region and asks for one starts a stretch of kept text: the
comment, the source text up to the first comment that closes the region, and that comment, or the
source text up to the end. Nothing else is written in between, whatever lies there and wherever the
two comments stand.

What is written between two places of a document is traced along the comments between them
(`Tree.Traced`): outside a region anything may be written, in a region nothing but what a comment
that closes it brings.
-/

namespace SqlLayout

variable {writer : Writer}

/-- The region that is open after a comment, given the one that was open before it. -/
def Region.after (current : Option Region) (comment : String) : Option Region :=
  match current with
  | none => openedBy? comment
  | some region => if region.isClosedBy comment then openedBy? comment else some region

namespace Tree

def comments (tree : Tree) : List NodeId :=
  tree.entered.filter fun id => (tree.kind id).isComment

section Traced

variable (tree : Tree) (style : Style)

/-- A leaf as it is written. -/
def written (id : NodeId) : String :=
  style.wording.leaf (tree.kind id) (tree.text id)

def opened (id : NodeId) : Option (Region × NodeId) :=
  (Region.openedBy? (tree.text id)).map (·, id)

/-- What follows a comment, if it opens a region. -/
def openingMarks (id : NodeId) : List Mark :=
  if (Region.openedBy? (tree.text id)).isSome then [.kept (tree.kind id).commentEnd] else []

/-- What is written along comments, from a region to a region. -/
inductive Traced : Option (Region × NodeId) → List NodeId → List Mark →
    Option (Region × NodeId) → Prop where
  | done {state : Option (Region × NodeId)} : Traced state [] [] state
  /-- Outside a region anything may be written. -/
  | mark {ids : List NodeId} {marks : List Mark} {last : Option (Region × NodeId)} (mark : Mark)
      (later : Traced none ids marks last) : Traced none ids (mark :: marks) last
  /-- Outside a region a comment is written. -/
  | free {id : NodeId} {ids : List NodeId} {marks : List Mark} {last : Option (Region × NodeId)}
      (later : Traced (tree.opened id) ids marks last) :
      Traced none (id :: ids)
        (.content (tree.written style id) :: (tree.openingMarks id ++ marks)) last
  /-- In a region a comment that does not close it is passed over. -/
  | within {region : Region} {start id : NodeId} {ids : List NodeId} {marks : List Mark}
      {last : Option (Region × NodeId)} (inside : region.isClosedBy (tree.text id) = false)
      (later : Traced (some (region, start)) ids marks last) :
      Traced (some (region, start)) (id :: ids) marks last
  /-- A comment that closes the region brings its text. -/
  | closes {region : Region} {start id : NodeId} {ids : List NodeId} {marks : List Mark}
      {last : Option (Region × NodeId)} (ends : region.isClosedBy (tree.text id) = true)
      (later : Traced (tree.opened id) ids marks last) :
      Traced (some (region, start)) (id :: ids)
        (.kept (tree.renderBetween start (some id)) :: .kept (tree.written style id) ::
          (tree.openingMarks id ++ marks)) last

end Traced

namespace Traced

variable {tree : Tree} {style : Style} {first second third : Option (Region × NodeId)}
  {ids others : List NodeId} {marks more : List Mark}

theorem append (front : tree.Traced style first ids marks second)
    (back : tree.Traced style second others more third) :
    tree.Traced style first (ids ++ others) (marks ++ more) third := by
  induction front with
  | done => exact back
  | mark mark _ ih => exact .mark mark (ih back)
  | free _ ih => simpa using Traced.free (ih back)
  | within inside _ ih => exact .within inside (ih back)
  | closes ends _ ih => simpa using Traced.closes ends (ih back)

theorem of_marks (marks : List Mark) : tree.Traced style none [] marks none := by
  induction marks with
  | nil => exact .done
  | cons mark marks ih => exact .mark mark ih

/-- What is written along comments is written along the first ones and then along the others. -/
theorem split (traced : tree.Traced style first (ids ++ others) marks third) :
    ∃ second front back, marks = front ++ back ∧ tree.Traced style first ids front second ∧
      tree.Traced style second others back third := by
  generalize whole : ids ++ others = all at traced
  induction traced generalizing ids with
  | done =>
    obtain ⟨rfl, rfl⟩ := List.append_eq_nil_iff.mp whole
    exact ⟨_, [], [], rfl, .done, .done⟩
  | mark mark _ ih =>
    obtain ⟨second, front, back, rfl, before, behind⟩ := ih whole
    exact ⟨second, mark :: front, back, rfl, .mark mark before, behind⟩
  | free later ih =>
    rcases List.append_eq_cons_iff.mp whole with ⟨rfl, rfl⟩ | ⟨rest, rfl, rfl⟩
    · exact ⟨none, [], _, rfl, .done, .free later⟩
    · obtain ⟨second, front, back, rfl, before, behind⟩ := ih rfl
      exact ⟨second, _, back, by simp, .free before, behind⟩
  | within inside later ih =>
    rcases List.append_eq_cons_iff.mp whole with ⟨rfl, rfl⟩ | ⟨rest, rfl, rfl⟩
    · exact ⟨_, [], _, rfl, .done, .within inside later⟩
    · obtain ⟨second, front, back, rfl, before, behind⟩ := ih rfl
      exact ⟨second, _, back, rfl, .within inside before, behind⟩
  | closes ends later ih =>
    rcases List.append_eq_cons_iff.mp whole with ⟨rfl, rfl⟩ | ⟨rest, rfl, rfl⟩
    · exact ⟨_, [], _, rfl, .done, .closes ends later⟩
    · obtain ⟨second, front, back, rfl, before, behind⟩ := ih rfl
      exact ⟨second, _, back, by simp, .closes ends before, behind⟩

theorem region (traced : tree.Traced style first ids marks second) :
    second.map Prod.fst =
      ids.foldl (fun current id => Region.after current (tree.text id)) (first.map Prod.fst) := by
  have opens : ∀ id, (tree.opened id).map Prod.fst = Region.openedBy? (tree.text id) := by
    intro id
    cases found : Region.openedBy? (tree.text id) <;> simp [opened, found]
  induction traced with
  | done => rfl
  | mark _ _ ih => exact ih
  | free _ ih =>
    rw [ih, opens, List.foldl_cons]
    rfl
  | within inside _ ih => simpa [Region.after, inside] using ih
  | closes ends _ ih => simpa [Region.after, ends, opens] using ih

theorem opens {id : NodeId} {region : Region}
    (traced : tree.Traced style none (id :: ids) marks second)
    (opens : Region.openedBy? (tree.text id) = some region) :
    ∃ front back,
      marks = front ++ .content (tree.written style id) :: .kept (tree.kind id).commentEnd :: back ∧
      tree.Traced style (some (region, id)) ids back second := by
  generalize isNone : (none : Option (Region × NodeId)) = state at traced
  generalize whole : id :: ids = all at traced
  induction traced with
  | done => cases whole
  | mark mark _ ih =>
    obtain ⟨front, back, rfl, later⟩ := ih rfl whole
    exact ⟨mark :: front, back, rfl, later⟩
  | @free _ _ back _ later _ =>
    obtain ⟨rfl, rfl⟩ := List.cons_eq_cons.mp whole
    refine ⟨[], back, by simp [openingMarks, opens], ?_⟩
    simpa [opened, opens] using later
  | within => cases isNone
  | closes => cases isNone

/-- In a region nothing is written before a comment that closes it, and then the text of the
region. -/
theorem keeps {region : Region} {start : NodeId}
    (traced : tree.Traced style (some (region, start)) ids marks second) :
    match ids.find? fun id => region.isClosedBy (tree.text id) with
    | some closing => ∃ back, marks =
        .kept (tree.renderBetween start (some closing)) ::
          .kept (tree.written style closing) :: back
    | none => marks = [] ∧ second = some (region, start) := by
  induction ids generalizing marks with
  | nil =>
    cases traced
    exact ⟨rfl, rfl⟩
  | cons id ids ih =>
    cases traced with
    | within inside later =>
      rw [List.find?_cons_of_neg (by simp [inside])]
      exact ih later
    | closes ends later =>
      rw [List.find?_cons_of_pos (by simpa using ends)]
      exact ⟨_, rfl⟩

/-- A comment that opens a region outside any other one is followed by the text of its region. -/
theorem text {before after : List NodeId} {opening : NodeId} {region : Region}
    (traced : tree.Traced style none (before ++ opening :: after) marks second)
    (free : before.foldl (fun current id => Region.after current (tree.text id)) none = none)
    (opens : Region.openedBy? (tree.text opening) = some region) :
    ∃ front, match after.find? fun id => region.isClosedBy (tree.text id) with
      | some closing => ∃ back, String.join (marks.map (Mark.text style)) =
          front ++ tree.written style opening ++ (tree.kind opening).commentEnd ++
            tree.renderBetween opening (some closing) ++ tree.written style closing ++ back
      | none => String.join (marks.map (Mark.text style)) =
          front ++ tree.written style opening ++ (tree.kind opening).commentEnd ∧
            second = some (region, opening) := by
  obtain ⟨middle, first, rest, rfl, front, back⟩ := traced.split
  have outside : middle = none := by simpa [free] using front.region
  rw [outside] at back
  obtain ⟨gap, kept, rfl, inside⟩ := back.opens opens
  have ends := inside.keeps
  refine ⟨String.join ((first ++ gap).map (Mark.text style)), ?_⟩
  cases found : after.find? fun id => region.isClosedBy (tree.text id) with
  | some closing =>
    rw [found] at ends
    obtain ⟨later, rfl⟩ := ends
    refine ⟨String.join (later.map (Mark.text style)), ?_⟩
    simp [String.join_append, String.join_cons, Mark.text, String.append_assoc]
  | none =>
    rw [found] at ends
    obtain ⟨rfl, isOpen⟩ := ends
    refine ⟨?_, isOpen⟩
    simp [String.join_append, String.join_cons, Mark.text, String.append_assoc]

end Traced

end Tree

/-! ### Writers -/

namespace Action

def comment? : Action → Option NodeId
  | comment id _ _ => some id
  | _ => none

/-- What an action says of a comment is what the tree says of it. -/
def Agrees (style : Style) (tree : Tree) : Action → Prop
  | comment id body piece => body = tree.text id ∧ piece = tree.written style id
  | openRegion id body after => body = tree.text id ∧ after = (tree.kind id).commentEnd
  | _ => True

end Action

namespace Writer

variable {style : Style} {tree : Tree} {first second third : Writer} {ids others : List NodeId}
  {requests : List Action}

/-- A writer goes on to another one along comments. -/
def Follows (style : Style) (tree : Tree) (before : Writer) (ids : List NodeId) (after : Writer) :
    Prop :=
  ∃ marks, after.marks = marks.reverse ++ before.marks ∧
    tree.Traced style before.region ids marks after.region

theorem Follows.trans (front : Follows style tree first ids second)
    (back : Follows style tree second others third) :
    Follows style tree first (ids ++ others) third := by
  obtain ⟨marks, written, traced⟩ := front
  obtain ⟨more, writtenMore, tracedMore⟩ := back
  exact ⟨marks ++ more, by simp [writtenMore, written], traced.append tracedMore⟩

theorem Puts.follows {pieces : List String} (puts : first.Puts pieces second) :
    Follows style tree first [] second := by
  obtain ⟨region, marks, written, silent⟩ := puts
  refine ⟨marks.reverse, by simpa using written, ?_⟩
  rw [region]
  cases inside : first.region with
  | none => exact .of_marks _
  | some state =>
    obtain rfl : marks = [] := by simpa [inside] using silent
    exact .done

@[simp]
theorem keep_marks (writer : Writer) (text : String) :
    (writer.keep text).marks = .kept text :: writer.marks := by
  unfold keep
  split
  · rfl
  · split <;> rfl

@[simp]
theorem keep_region (writer : Writer) (text : String) :
    (writer.keep text).region = writer.region := by
  unfold keep
  split
  · rfl
  · split <;> rfl

theorem write_marks (writer : Writer) (style : Style) (piece : String)
    (free : writer.region = none) :
    ∃ gap, (writer.write style piece).marks = .content piece :: (gap ++ writer.marks) := by
  unfold write
  rw [if_neg (by simp [free])]
  dsimp only
  split
  · obtain ⟨region, marks, written, _⟩ := writer.puts_newLine style
    refine ⟨marks, ?_⟩
    simp [mark, region, free, written]
  · exact ⟨[], by simp [mark, free]⟩

theorem foldl_requests (style : Style) (tree : Tree)
    (known : requests ⊆ [.requestBreak, .requestSpace, .noteSourceBreak]) (writer : Writer) :
    (requests.foldl (Action.apply style tree) writer).marks = writer.marks ∧
      (requests.foldl (Action.apply style tree) writer).region = writer.region := by
  induction requests generalizing writer with
  | nil => exact ⟨rfl, rfl⟩
  | cons request requests ih =>
    obtain ⟨here, later⟩ := List.cons_subset.mp known
    have step : (request.apply style tree writer).marks = writer.marks ∧
        (request.apply style tree writer).region = writer.region := by
      simp only [List.mem_cons, List.not_mem_nil, or_false] at here
      rcases here with rfl | rfl | rfl <;> exact ⟨rfl, rfl⟩
    rw [List.foldl_cons, (ih later _).1, (ih later _).2]
    exact step

theorem openRegion_of_free (free : writer.region = none) (tree : Tree) (id : NodeId) :
    (writer.openRegion id (tree.text id) (tree.kind id).commentEnd).marks =
        (tree.openingMarks id).reverse ++ writer.marks ∧
      (writer.openRegion id (tree.text id) (tree.kind id).commentEnd).region = tree.opened id := by
  unfold openRegion
  rw [if_neg (by simp [free])]
  cases opens : Region.openedBy? (tree.text id) <;>
    simp [Tree.openingMarks, Tree.opened, opens, free]

theorem Follows.append {origin inner writer : Writer}
    (follows : Follows style tree origin.inner ids inner) (region : writer.region = origin.region) :
    Follows style tree writer ids (writer.append inner) := by
  obtain ⟨marks, written, traced⟩ := follows
  refine ⟨marks, ?_, ?_⟩
  · rw [Writer.append, show inner.marks = marks.reverse by simpa [Writer.inner] using written]
  · rw [region]
    exact traced

theorem Follows.enclose {inner : Writer} (follows : Follows style tree writer.inner ids inner) :
    Follows style tree writer ids (writer.enclose inner style) := by
  unfold Writer.enclose
  split
  · dsimp only
    have broken := writer.puts_newLine style
    split
    · simpa using (follows.append rfl).trans (puts_newLine _ style).follows
    · simpa using
        broken.follows.trans ((follows.append broken.1).trans (puts_newLine _ style).follows)
  · exact follows.append rfl

theorem openRegion_after_requests (style : Style) (tree : Tree) (id : NodeId)
    (known : requests ⊆ [.requestBreak, .requestSpace, .noteSourceBreak])
    (free : writer.region = none) :
    ((requests.foldl (Action.apply style tree) writer).openRegion id (tree.text id)
        (tree.kind id).commentEnd).marks = (tree.openingMarks id).reverse ++ writer.marks ∧
      ((requests.foldl (Action.apply style tree) writer).openRegion id (tree.text id)
        (tree.kind id).commentEnd).region = tree.opened id := by
  obtain ⟨marks, region⟩ := foldl_requests style tree known writer
  have result := openRegion_of_free (region.trans free) tree id
  rwa [marks] at result

theorem follows_comment (writer : Writer) (id : NodeId)
    (known : requests ⊆ [.requestBreak, .requestSpace, .noteSourceBreak]) :
    Follows style tree writer [id]
      ((requests.foldl (Action.apply style tree)
        (writer.comment style tree id (tree.text id) (tree.written style id))).openRegion
          id (tree.text id)
          (tree.kind id).commentEnd) := by
  have separated := writer.puts_separateComment style
  have wrote := puts_write (writer.separateComment style) style (tree.written style id)
  cases state : writer.region with
  | none =>
    have free : (writer.separateComment style).region = none := separated.1.trans state
    obtain ⟨gap, written⟩ := write_marks _ style (tree.written style id) free
    obtain ⟨marks, region⟩ := openRegion_after_requests style tree id known (wrote.1.trans free)
    rw [comment_eq_write (closeRegion?_of_free state ..)]
    refine separated.follows.trans
      ⟨gap.reverse ++ .content (tree.written style id) :: (tree.openingMarks id ++ []), ?_, ?_⟩
    · simp [marks, written]
    · rw [free, region]
      exact (Tree.Traced.of_marks gap.reverse).append (.free .done)
  | some found =>
    obtain ⟨region, start⟩ := found
    cases ends : region.isClosedBy (tree.text id) with
    | true =>
      have isComment : (writer.comment style tree id (tree.text id) (tree.written style id)).marks =
          .kept (tree.written style id) ::
            .kept (tree.renderBetween start (some id)) :: writer.marks ∧
          (writer.comment style tree id (tree.text id) (tree.written style id)).region = none := by
        simp [comment, closeRegion?, state, ends]
      obtain ⟨marks, region⟩ := openRegion_after_requests style tree id known isComment.2
      refine ⟨.kept (tree.renderBetween start (some id)) :: .kept (tree.written style id) ::
        (tree.openingMarks id ++ []), ?_, ?_⟩
      · simp [marks, isComment.1]
      · rw [state, region]
        exact .closes ends .done
    | false =>
      have stays : writer.closeRegion? tree id (tree.text id) = none := by
        simp [closeRegion?, state, ends]
      obtain ⟨marks, region⟩ := foldl_requests style tree known
        ((writer.separateComment style).write style (tree.written style id))
      have still : ((writer.separateComment style).write style (tree.written style id)).region =
          writer.region := wrote.1.trans separated.1
      have unchanged : ∀ writer : Writer, writer.region.isSome = true → ∀ after,
          writer.openRegion id (tree.text id) after = writer :=
        fun writer inside after => if_pos inside
      rw [comment_eq_write stays, unchanged _ (by rw [region, still, state]; rfl)]
      refine ⟨[], ?_, ?_⟩
      · rw [marks, wrote.silent (by rw [separated.1, state]; rfl),
          separated.silent (by rw [state]; rfl)]
        rfl
      · rw [region, still, state]
        exact .within ends .done

/-- Laying out follows the comments of what is laid out. -/
theorem tracks_follows (style : Style) (tree : Tree) :
    Tracks style tree fun before actions after => (∀ action ∈ actions, action.Agrees style tree) →
      Follows style tree before (actions.filterMap Action.comment?) after where
  refl writer _ := (Puts.refl writer).follows
  trans front back agrees := by
    obtain ⟨here, later⟩ := List.forall_mem_append.mp agrees
    rw [List.filterMap_append]
    exact (front here).trans (back later)
  act writer action direct _ := by
    have none : action.spoken.filterMap Action.comment? = [] := by
      cases action with
      | comment | openRegion => cases direct
      | _ => rfl
    rw [none]
    exact (Action.puts_apply direct style tree writer).follows
  comment writer id kind text requests isComment known agrees := by
    obtain ⟨⟨isText, isPiece⟩, _, isEnd⟩ : (text = tree.text id ∧ _ = tree.written style id) ∧
        text = tree.text id ∧ kind.commentEnd = (tree.kind id).commentEnd := by
      simpa [Action.Agrees] using agrees
    rw [isPiece, isEnd, isText]
    exact follows_comment writer id known
  enclose {writer _ actions} follows agrees := by
    have inside := follows fun action member => agrees action (by simp [member])
    have same : (Action.write "(" :: (actions ++ [.write ")"])).filterMap Action.comment? =
        [] ++ (actions.filterMap Action.comment? ++ []) := by
      rw [List.filterMap_cons_none rfl, List.filterMap_append]
      rfl
    rw [same]
    exact (writer.puts_write style "(").follows.trans
      (inside.enclose.trans (puts_write _ style ")").follows)

end Writer

/-! ### Documents -/

namespace Outline

variable {tree : Tree} {parent : Option NodeId} {outline : Outline}

def commentsIn (tree : Tree) (outline : Outline) : List NodeId :=
  (outline.events.filterMap WalkEvent.entered?).filter fun id => (tree.kind id).isComment

theorem commentsIn_node {id : NodeId} {kind : NodeKind} {text : String} {attributes : Attributes}
    {children : List Outline}
    (stored : tree.Stores parent (.node id kind text attributes children)) :
    (node id kind text attributes children).commentsIn tree =
      (if kind.isComment then [id] else []) ++ children.flatMap (commentsIn tree) := by
  have siblings : ((eventsOfList children).filterMap WalkEvent.entered?).filter
      (fun id => (tree.kind id).isComment) = children.flatMap (commentsIn tree) := by
    clear stored
    induction children with
    | nil => simp
    | cons first rest ih => simp [commentsIn, ih]
  have here : tree.kind id = kind := by simp [Tree.kind, stored.node_eq]
  have entered : (events (node id kind text attributes children)).filterMap WalkEvent.entered? =
      id :: (eventsOfList children).filterMap WalkEvent.entered? := by
    rw [events_node]
    change id :: (eventsOfList children ++ [WalkEvent.leave id]).filterMap WalkEvent.entered? = _
    rw [List.filterMap_append]
    exact congrArg (id :: ·) (List.append_nil _)
  rw [commentsIn, entered, List.filter_cons, here, siblings]
  cases kind.isComment <;> rfl

theorem commentsIn_leaf (regular : outline.Regular) (stored : tree.Stores parent outline)
    (isLeaf : outline.kind.isLeaf = true) (content : outline.kind.isComment = false) :
    outline.commentsIn tree = [] := by
  obtain ⟨_, fits, _⟩ := regular
  rw [node_kind] at isLeaf content
  rw [commentsIn_node stored, fits.childless isLeaf, content]
  rfl

theorem flatMap_commentsIn {outlines : List Outline}
    (none : ∀ outline ∈ outlines, outline.kind.isComment = false → outline.commentsIn tree = []) :
    (outlines.filter fun outline => outline.kind.isComment).flatMap (commentsIn tree) =
      outlines.flatMap (commentsIn tree) := by
  induction outlines with
  | nil => rfl
  | cons first rest ih =>
    obtain ⟨here, later⟩ := List.forall_mem_cons.mp none
    cases content : first.kind.isComment with
    | true =>
      rw [List.filter_cons_of_pos (by simpa using content), List.flatMap_cons,
        List.flatMap_cons, ih later]
    | false =>
      rw [List.filter_cons_of_neg (by simp [content]), List.flatMap_cons, here content, ih later,
        List.nil_append]

/-- The comments that an outline calls for are its comments, in document order. -/
theorem comments_spoken (wording : Wording) (regular : outline.Regular)
    (stored : tree.Stores parent outline) :
    (outline.spoken wording).filterMap Action.comment? = outline.commentsIn tree := by
  induction outline generalizing parent with
  | node id kind text attributes children ih =>
    obtain ⟨_, fits, below⟩ := regular
    have siblings : ∀ selects : NodeKind → Bool,
        (spokenOfList wording selects children).filterMap Action.comment? =
          (children.filter fun child => selects child.kind).flatMap (commentsIn tree) := by
      intro selects
      rw [spokenOfList_eq, List.filterMap_flatMap]
      refine List.flatMap_congr fun child member => ?_
      have inside := List.mem_of_mem_filter member
      exact ih child inside (below child inside) (stored.child child inside)
    have all : (spokenOfList wording (fun _ => true) children).filterMap Action.comment? =
        children.flatMap (commentsIn tree) := by
      rw [siblings, List.filter_true]
    rw [commentsIn_node stored, spoken]
    split
    next isBlank =>
      subst isBlank
      rw [fits.childless rfl]
      rfl
    · split
      next isComment =>
        have isLeaf : kind.isLeaf = true := by
          revert isComment
          cases kind <;> decide
        rw [fits.childless isLeaf]
        rfl
      · split
        next isLeaf =>
          rw [fits.childless isLeaf]
          rfl
        · split
          next isCompound =>
            -- The words of a compound keyword are leaves, so its comments are children.
            have leaves := flatMap_commentsIn fun child member =>
              commentsIn_leaf (below child member)
              (stored.child child member) (fits.flat isCompound child member)
            rw [List.filterMap_append, siblings, leaves]
            cases attributes.get? .simpleText <;> rfl
          · split
            · rw [List.filterMap_cons_none rfl, List.filterMap_append, all]
              simp [Action.comment?]
            · exact all

theorem agrees_spoken (style : Style) (stored : tree.Stores parent outline) :
    ∀ action ∈ outline.spoken style.wording, action.Agrees style tree := by
  induction outline generalizing parent with
  | node id kind text attributes children ih =>
    have here : tree.kind id = kind ∧ tree.text id = text := by
      simp [Tree.kind, Tree.text, stored.node_eq]
    have siblings : ∀ selects : NodeKind → Bool,
        ∀ action ∈ spokenOfList style.wording selects children, action.Agrees style tree := by
      intro selects action member
      rw [spokenOfList_eq] at member
      obtain ⟨child, inside, spoken⟩ := List.mem_flatMap.mp member
      have inside := List.mem_of_mem_filter inside
      exact ih child inside (stored.child child inside) action spoken
    rw [spoken]
    split
    · simp
    · split
      · simp [Action.Agrees, Tree.written, here]
      · split
        · simp [Action.Agrees]
        · split
          · refine List.forall_mem_append.mpr ⟨?_, siblings _⟩
            cases attributes.get? .simpleText <;> simp [Action.Agrees]
          · split
            · refine List.forall_mem_cons.mpr ⟨trivial, List.forall_mem_append.mpr ⟨siblings _, ?_⟩⟩
              exact List.forall_mem_singleton.mpr trivial
            · exact siblings _

end Outline

namespace Tree

variable {tree : Tree} {draft : Draft} {style : Style}

/-- Laying out a document follows its comments, also to the breaks that are due in the end. -/
theorem Shows.follows_settle (shown : tree.Shows draft) (regular : draft.outline.Regular)
    {place : Place} {start : Writer}
    (isOk : draft.outline.layOut style tree place start = .ok writer) :
    Writer.Follows style tree start tree.comments (writer.settle style) := by
  have follows := (Writer.tracks_follows style tree).layOut regular isOk
    (Outline.agrees_spoken style shown.stores)
  rw [Outline.comments_spoken _ regular shown.stores] at follows
  have whole : tree.comments = draft.outline.commentsIn tree := by
    rw [comments, entered, shown.walk_eq]
    rfl
  rw [whole]
  simpa using follows.trans (writer.puts_settle style).follows

/-- What is kept behind what was laid out. -/
def remainder (tree : Tree) : Option (Region × NodeId) → String
  | none => ""
  | some (_, start) => tree.renderBetween start none

theorem ending_eq (tree : Tree) (style : Style) (writer : Writer) :
    tree.ending style writer =
      (writer.settle style).output style ++ tree.remainder (writer.settle style).region := by
  unfold ending
  split
  next isNone => simp [isNone, remainder]
  next region start isSome => simp [isSome, remainder, Writer.output, Mark.text, String.join]

end Tree

/-! ### Scripts -/

/-- Wherever a comment opens a region, a script is formatted as that comment, the source text up to
the first comment that closes the region, and that comment, or else the source text up to the
end. -/
theorem format_keeps_regions (style : Style) (script warning : String) :
    ∃ tree result, Tree.ofText script = .ok tree ∧ format style script warning = .ok result ∧
      ∀ front opening back region, tree.comments = front ++ opening :: back →
        front.foldl (fun current id => Region.after current (tree.text id)) none = none →
        Region.openedBy? (tree.text opening) = some region →
        ∃ before, match back.find? fun id => region.isClosedBy (tree.text id) with
          | some closing => ∃ after, result.text = before ++ tree.written style opening ++
              (tree.kind opening).commentEnd ++ tree.renderBetween opening (some closing) ++
              tree.written style closing ++ after
          | none => result.text = before ++ tree.written style opening ++
              (tree.kind opening).commentEnd ++ tree.renderBetween opening none := by
  obtain ⟨tree, draft, isOk, shown, built⟩ := Tree.ofTokens_shows (.ofText script)
  have regular := built.sound.outline_regular
  obtain ⟨writer, isLaid, _⟩ :=
    Outline.lays_layOut style tree regular {} (tree.opening style warning)
  have isText : tree.format style warning = .ok (tree.ending style writer) := by
    rw [Tree.format_eq, shown.outline_eq, isLaid]
    rfl
  refine ⟨tree, _, isOk, format_eq_ok isOk isText, ?_⟩
  intro front opening back region isComments free opens
  obtain ⟨marks, written, traced⟩ := shown.follows_settle regular isLaid
  rw [tree.region_opening, isComments] at traced
  obtain ⟨before, kept⟩ := traced.text free opens
  have output : tree.ending style writer = (tree.opening style warning).output style ++
      String.join (marks.map (Mark.text style)) ++ tree.remainder (writer.settle style).region := by
    rw [tree.ending_eq, Writer.output, written]
    simp [String.join_append, Writer.output]
  refine ⟨(tree.opening style warning).output style ++ before, ?_⟩
  cases found : back.find? fun id => region.isClosedBy (tree.text id) with
  | some closing =>
    rw [found] at kept
    obtain ⟨after, isKept⟩ := kept
    refine ⟨after ++ tree.remainder (writer.settle style).region, ?_⟩
    simp only [output, isKept, String.append_assoc]
  | none =>
    rw [found] at kept
    simp only [output, kept.1, kept.2, Tree.remainder, String.append_assoc]

/-- A region that is opened inside a group and closed outside of it. -/
theorem format_keeps_regions_example :
    ∃ tree result before after,
      Tree.ofText "SELECT (1, --[noformat]\n  2)  ,b /*[/noformat]*/ , 3" = .ok tree ∧
      format {} "SELECT (1, --[noformat]\n  2)  ,b /*[/noformat]*/ , 3" defaultWarning =
        .ok result ∧
      tree.comments = [9, 16] ∧ Region.openedBy? (tree.text 9) = some .noFormat ∧
      result.text = before ++ "--[noformat]" ++ "\n" ++ "  2)  ,b " ++
        "/*[/noformat]*/" ++ after := by
  obtain ⟨tree, result, isOk, isResult, keeps⟩ := format_keeps_regions {}
    "SELECT (1, --[noformat]\n  2)  ,b /*[/noformat]*/ , 3" defaultWarning
  have marked : (Tree.ofText "SELECT (1, --[noformat]\n  2)  ,b /*[/noformat]*/ , 3").toOption.map
      (fun tree =>
      (tree.comments, Region.openedBy? (tree.text 9), Region.noFormat.isClosedBy (tree.text 16))) =
      some ([9, 16], some .noFormat, true) := by
    decide +kernel
  have texts : (Tree.ofText "SELECT (1, --[noformat]\n  2)  ,b /*[/noformat]*/ , 3").toOption.map
      (fun tree =>
      (tree.written {} 9, (tree.kind 9).commentEnd, tree.renderBetween 9 (some 16),
        tree.written {} 16)) =
      some ("--[noformat]", "\n", "  2)  ,b ", "/*[/noformat]*/") := by
    decide +kernel
  rw [isOk] at marked texts
  simp only [Except.toOption, Option.map_some, Option.some.injEq, Prod.mk.injEq] at marked texts
  obtain ⟨isComments, opens, closes⟩ := marked
  obtain ⟨first, ending, between, last⟩ := texts
  obtain ⟨before, kept⟩ := keeps [] 9 [16] .noFormat isComments rfl opens
  rw [List.find?_cons_of_pos (by simpa using closes)] at kept
  obtain ⟨after, isText⟩ := kept
  rw [first, ending, between, last] at isText
  exact ⟨tree, result, before, after, isOk, isResult, isComments, opens, isText⟩

end SqlLayout
