import SqlLayout.Proofs.Layout.Parts
import SqlLayout.Proofs.Tree.Rendering

/-!
# Regions neither drop nor repeat leaves

A formatted script consists of the texts of the parts of its tree, with white space between them. So
every leaf inside a region is written in the text of the region and nowhere else, and every other
leaf once by itself or with its compound keyword, unless a region begins or ends between two words
of that keyword.
-/

namespace SqlLayout

/-! ### What actions say -/

namespace Action

/-- What an action writes apart from white space, given the open region, and the region that is open
after it. -/
def utter (tree : Tree) (state : Option (Region × NodeId)) :
    Action → List String × Option (Region × NodeId)
  | write piece => (if state.isSome then [] else [piece], state)
  | comment id body piece =>
      match state with
      | none => ([piece], none)
      | some (region, start) =>
          if region.isClosedBy body then ([tree.renderBetween start (some id), piece], none)
            else ([], state)
  | openRegion id body _ =>
    ([], if state.isSome then state else (Region.openedBy? body).map (·, id))
  | _ => ([], state)

/-- What actions write one after the other. -/
def speech (tree : Tree) (state : Option (Region × NodeId)) :
    List Action → List String × Option (Region × NodeId)
  | [] => ([], state)
  | action :: rest =>
      ((action.utter tree state).1 ++ (speech tree (action.utter tree state).2 rest).1,
        (speech tree (action.utter tree state).2 rest).2)

theorem speech_append (tree : Tree) (state : Option (Region × NodeId)) (front back : List Action) :
    speech tree state (front ++ back) =
      ((speech tree state front).1 ++ (speech tree (speech tree state front).2 back).1,
        (speech tree (speech tree state front).2 back).2) := by
  induction front generalizing state with
  | nil => rfl
  | cons action rest ih => simp [speech, ih]

theorem speech_singleton (tree : Tree) (state : Option (Region × NodeId)) (action : Action) :
    speech tree state [action] = action.utter tree state := by
  simp [speech]

/-- Outside regions a comment is written, and a region may begin. -/
theorem speech_comment_none (tree : Tree) (id : NodeId) (piece after : String) :
    speech tree none [comment id (tree.text id) piece, openRegion id (tree.text id) after] =
      ([piece], tree.opened id) := by
  simp [speech, utter, Tree.opened]

/-- In a region a comment is passed over, or it is written behind the text of the region. -/
theorem speech_comment_some (tree : Tree) (region : Region) (start id : NodeId)
    (piece after : String) :
    speech tree (some (region, start)) [comment id (tree.text id) piece,
      openRegion id (tree.text id) after] =
      if region.isClosedBy (tree.text id) then
        ([tree.renderBetween start (some id), piece], tree.opened id)
      else ([], some (region, start)) := by
  cases ends : region.isClosedBy (tree.text id) <;> simp [speech, utter, ends, Tree.opened]

end Action

namespace Style

variable {style : Style}

theorem Spaced.append {pieces others : List String} {text more : String}
    (front : style.Spaced pieces text) (back : style.Spaced others more) :
    style.Spaced (pieces ++ others) (text ++ more) := by
  induction front with
  | nil blank => exact back.after blank
  | cons blank _ ih =>
    rw [String.append_assoc]
    exact .cons blank ih

theorem spaced_empty : style.Spaced [] "" :=
  .nil ⟨[], by simp, rfl⟩

theorem spaced_singleton (piece : String) : style.Spaced [piece] piece := by
  have spaced : style.Spaced [piece] ("" ++ piece ++ "") := .cons ⟨[], by simp, rfl⟩ spaced_empty
  simpa using spaced

end Style

/-! ### Writers -/

namespace Writer

variable {style : Style} {tree : Tree} {first second third : Writer} {actions : List Action}

/-- A writer goes on to another one by writing what actions say. -/
def Utters (style : Style) (tree : Tree) (before : Writer) (actions : List Action)
    (after : Writer) : Prop :=
  after.region = (Action.speech tree before.region actions).2 ∧
    ∃ marks : List Mark, after.marks = marks.reverse ++ before.marks ∧
      style.Spaced (Action.speech tree before.region actions).1
        (String.join (marks.map (Mark.text style)))

theorem Utters.trans {others : List Action} (front : Utters style tree first actions second)
    (back : Utters style tree second others third) :
    Utters style tree first (actions ++ others) third := by
  obtain ⟨region, marks, written, spaced⟩ := front
  obtain ⟨regionMore, more, writtenMore, spacedMore⟩ := back
  rw [region] at regionMore spacedMore
  rw [Utters, Action.speech_append]
  refine ⟨regionMore, marks ++ more, by simp [writtenMore, written], ?_⟩
  rw [List.map_append, String.join_append]
  exact spaced.append spacedMore

theorem Puts.utters {pieces : List String} (puts : first.Puts pieces second)
    (speech : Action.speech tree first.region actions =
      (if first.region.isSome then [] else pieces, first.region)) :
    Utters style tree first actions second := by
  obtain ⟨region, marks, written, isPieces⟩ := puts
  rw [Utters, speech]
  refine ⟨region, marks.reverse, by simpa using written, ?_⟩
  split at isPieces
  next inside =>
    rw [if_pos inside, isPieces]
    exact Style.spaced_empty
  next outside =>
    rw [if_neg outside, ← isPieces.1]
    exact Style.spaced_of_marks (by simpa using isPieces.2)

theorem Puts.uttersNothing (puts : first.Puts [] second) : Utters style tree first [] second :=
  puts.utters (by simp [Action.speech])

theorem utters_write (writer : Writer) (piece : String) :
    Utters style tree writer [.write piece] (writer.write style piece) :=
  (writer.puts_write style piece).utters (by rw [Action.speech_singleton]; rfl)

theorem Utters.append {origin inner writer : Writer} {actions : List Action}
    (utters : Utters style tree origin.inner actions inner)
    (region : writer.region = origin.region) :
    Utters style tree writer actions (writer.append inner) := by
  obtain ⟨after, marks, written, spaced⟩ := utters
  rw [Utters, region]
  refine ⟨after, marks, ?_, spaced⟩
  rw [Writer.append, show inner.marks = marks.reverse by simpa [Writer.inner] using written]

theorem Utters.enclose {writer inner : Writer}
    (utters : Utters style tree writer.inner actions inner) :
    Utters style tree writer actions (writer.enclose inner style) := by
  unfold Writer.enclose
  split
  · dsimp only
    have broken := writer.puts_newLine style
    split
    · simpa using (utters.append rfl).trans (puts_newLine _ style).uttersNothing
    · simpa using broken.uttersNothing.trans
        ((utters.append broken.1).trans (puts_newLine _ style).uttersNothing)
  · exact utters.append rfl

theorem spaced_openingMarks (id : NodeId) :
    style.Spaced [] (String.join ((tree.openingMarks id).map (Mark.text style))) := by
  refine .nil ?_
  rw [Tree.openingMarks]
  split
  · rw [List.map_singleton, Mark.text, NodeKind.commentEnd]
    split
    · exact ⟨[], by simp, rfl⟩
    · exact ⟨["\n"], by simp, rfl⟩
  · exact ⟨[], by simp, rfl⟩

/-- A comment is written, passed over, or closes the region. -/
theorem utters_comment (writer : Writer) (id : NodeId) {requests : List Action}
    (known : requests ⊆ [.requestBreak, .requestSpace, .noteSourceBreak]) :
    Utters style tree writer [.comment id (tree.text id) (tree.written style id),
        .openRegion id (tree.text id) (tree.kind id).commentEnd]
      ((requests.foldl (Action.apply style tree)
        (writer.comment style tree id (tree.text id) (tree.written style id))).openRegion
          id (tree.text id)
          (tree.kind id).commentEnd) := by
  have wrote := (writer.puts_separateComment style).trans
    (puts_write (writer.separateComment style) style (tree.written style id))
  rw [List.nil_append] at wrote
  rw [Utters]
  cases state : writer.region with
  | none =>
    have free := wrote.1.trans state
    obtain ⟨marks, region⟩ := openRegion_after_requests style tree id known free
    obtain ⟨_, front, written, spaced⟩ :
        Utters style tree writer [.write (tree.written style id)] _ :=
      wrote.utters (by rw [Action.speech_singleton]; rfl)
    rw [Action.speech_singleton, Action.utter, state] at spaced
    rw [comment_eq_write (closeRegion?_of_free state ..), Action.speech_comment_none]
    dsimp only
    refine ⟨region, front ++ tree.openingMarks id, ?_, ?_⟩
    · rw [marks, written, List.reverse_append, List.append_assoc]
    · rw [List.map_append, String.join_append]
      exact spaced.append (spaced_openingMarks id)
  | some found =>
    obtain ⟨region, start⟩ := found
    rw [Action.speech_comment_some]
    cases ends : region.isClosedBy (tree.text id) with
    | true =>
      have isComment : (writer.comment style tree id (tree.text id) (tree.written style id)).marks =
          .kept (tree.written style id) ::
            .kept (tree.renderBetween start (some id)) :: writer.marks ∧
          (writer.comment style tree id (tree.text id) (tree.written style id)).region = none := by
        simp [comment, closeRegion?, state, ends]
      obtain ⟨marks, region⟩ := openRegion_after_requests style tree id known isComment.2
      rw [marks, isComment.1, if_pos rfl]
      dsimp only
      refine ⟨region, .kept (tree.renderBetween start (some id)) :: .kept (tree.written style id) ::
        tree.openingMarks id, by simp, ?_⟩
      rw [List.map_cons, List.map_cons, String.join_cons, String.join_cons]
      exact (Style.spaced_singleton _).append
        ((Style.spaced_singleton _).append (spaced_openingMarks id))
    | false =>
      have stays : writer.closeRegion? tree id (tree.text id) = none := by
        simp [closeRegion?, state, ends]
      obtain ⟨marks, region⟩ := foldl_requests style tree known
        ((writer.separateComment style).write style (tree.written style id))
      have unchanged : ∀ writer : Writer, writer.region.isSome = true → ∀ after,
          writer.openRegion id (tree.text id) after = writer :=
        fun writer inside after => if_pos inside
      rw [comment_eq_write stays, unchanged _ (by rw [region, wrote.1, state]; rfl), region,
        marks, wrote.1, state, if_neg Bool.false_ne_true, wrote.silent (by rw [state]; rfl)]
      exact ⟨rfl, [], rfl, Style.spaced_empty⟩

/-- Laying out writes what the actions say. -/
theorem tracks_utters (style : Style) (tree : Tree) :
    Tracks style tree fun before actions after => (∀ action ∈ actions, action.Agrees style tree) →
      Utters style tree before actions after where
  refl writer _ := (Puts.refl writer).uttersNothing
  trans front back agrees := by
    obtain ⟨here, later⟩ := List.forall_mem_append.mp agrees
    exact (front here).trans (back later)
  act writer action direct _ := by
    refine (Action.puts_apply direct style tree writer).utters ?_
    cases action with
    | write piece => rw [Action.spoken, Action.speech_singleton]; rfl
    | comment | openRegion => cases direct
    | _ => simp [Action.spoken, Action.speech, Action.pieces]
  comment writer id kind text requests isComment known agrees := by
    obtain ⟨⟨isText, isPiece⟩, _, isEnd⟩ : (text = tree.text id ∧ _ = tree.written style id) ∧
        text = tree.text id ∧ kind.commentEnd = (tree.kind id).commentEnd := by
      simpa [Action.Agrees] using agrees
    rw [isPiece, isEnd, isText]
    exact utters_comment writer id known
  enclose {writer _ actions} utters agrees := by
    have inside := utters fun action member => agrees action (by simp [member])
    exact (writer.utters_write "(").trans (inside.enclose.trans (utters_write _ ")"))

end Writer

/-! ### Documents -/

namespace Tree

variable {tree : Tree} {draft : Draft} {style : Style}

/-- The actions that a step of a walk calls for. -/
def actionsAt (tree : Tree) (style : Style) : WalkEvent → List Action
  | .enter id =>
      if tree.kind id = .whiteSpace then []
      else if (tree.kind id).isComment then
        [.comment id (tree.text id) (tree.written style id),
          .openRegion id (tree.text id) (tree.kind id).commentEnd]
      else if (tree.kind id).isLeaf then if tree.isWord id then []
        else [.write (tree.written style id)]
      else if tree.kind id = .compoundKeyword then
        [.write (style.wording.keyword ((tree.attributeOf id .simpleText).getD ""))]
      else if (tree.kind id).isParens then [.write "("]
      else []
  | .leave id => if (tree.kind id).isParens then [.write ")"] else []

theorem flatMap_eventsOfList {outlines : List Outline} {onEvent : WalkEvent → List Action}
    {onOutline : Outline → List Action}
    (each : ∀ outline ∈ outlines, outline.events.flatMap onEvent = onOutline outline) :
    (Outline.eventsOfList outlines).flatMap onEvent = outlines.flatMap onOutline := by
  induction outlines with
  | nil => simp
  | cons first rest ih =>
    obtain ⟨here, later⟩ := List.forall_mem_cons.mp each
    simp [here, ih later]

theorem Stores.actions_part {compound : NodeId} {outline : Outline}
    (stored : tree.Stores (some compound) outline) (regular : outline.Regular)
    (isCompound : tree.kind compound = .compoundKeyword) (isLeaf : outline.kind.isLeaf = true) :
    outline.events.flatMap (tree.actionsAt style) =
      if outline.kind.isComment then outline.spoken style.wording else [] := by
  obtain ⟨_, fits, _⟩ := regular
  rename_i id kind text attributes children bare below
  rw [Outline.node_kind] at isLeaf
  obtain rfl := fits.childless isLeaf
  have isNode := stored.node_eq
  have isKind : tree.kind id = kind := congrArg Node.kind isNode
  have isText : tree.text id = text := congrArg Node.text isNode
  have isParent : tree.parent id = some compound := congrArg Node.parent isNode
  have notParens : kind.isParens = false := by
    revert isLeaf
    cases kind <;> decide
  have word : kind ≠ .whiteSpace → kind.isComment = false → tree.isWord id = true := by
    intro notBlank content
    simp [isWord, isKind, isParent, isCompound, NodeKind.isTrivia, notBlank, content]
  rw [Outline.events_node, Outline.eventsOfList_nil, Outline.node_kind, Outline.spoken]
  by_cases isBlank : kind = .whiteSpace
  · simp [actionsAt, isKind, isBlank, NodeKind.isComment, NodeKind.isParens]
  · cases isComment : kind.isComment with
    | true => simp [actionsAt, isKind, isText, isBlank, isComment, notParens, Tree.written]
    | false =>
      simp [actionsAt, isKind, isBlank, isComment, isLeaf, notParens, word isBlank isComment]

theorem Stores.actions_events {parent : Option NodeId} {outline : Outline}
    (stored : tree.Stores parent outline) (regular : outline.Regular)
    (apart : ∀ above ∈ parent, tree.kind above ≠ .compoundKeyword) :
    outline.events.flatMap (tree.actionsAt style) = outline.spoken style.wording := by
  induction regular generalizing parent with
  | @node id kind text attributes children bare fits below ih =>
    have isNode := stored.node_eq
    have isKind : tree.kind id = kind := congrArg Node.kind isNode
    have isText : tree.text id = text := congrArg Node.text isNode
    have written : tree.written style id = style.wording.leaf kind text := by
      rw [Tree.written, isKind, isText]
    have notWord : tree.isWord id = false := by
      rw [isWord, show tree.parent id = parent from congrArg Node.parent isNode]
      cases parent with
      | none => simp
      | some above => simp [apart above rfl]
    have leaving : [WalkEvent.leave id].flatMap (tree.actionsAt style) =
        if kind.isParens then [.write ")"] else [] := by
      simp [actionsAt, isKind]
    have plain : kind.isLeaf = true → kind.isParens = false := by
      cases kind <;> decide
    have all : kind ≠ .compoundKeyword →
        (Outline.eventsOfList children).flatMap (tree.actionsAt style) =
        Outline.spokenOfList style.wording (fun _ => true) children := by
      intro notCompound
      rw [Outline.spokenOfList_eq, List.filter_true]
      refine flatMap_eventsOfList fun child member => ih child member (stored.child child member) ?_
      rintro _ ⟨⟩
      rwa [isKind]
    rw [Outline.events_node, List.flatMap_cons, List.flatMap_append, Outline.spoken, leaving,
      actionsAt, isKind, isText, written, notWord]
    split
    next isBlank =>
      subst isBlank
      rw [fits.childless rfl]
      rfl
    next =>
      have childless : kind.isLeaf = true →
          (Outline.eventsOfList children).flatMap (tree.actionsAt style) ++
          (if kind.isParens then [.write ")"] else []) = [] := by
        intro isLeaf
        rw [fits.childless isLeaf, plain isLeaf]
        rfl
      split
      next isComment =>
        rw [childless (by revert isComment; cases kind <;> decide), List.append_nil]
      next =>
        split
        next isLeaf =>
          rw [childless isLeaf, List.append_nil]
          rfl
        next =>
          split
          next isCompound =>
            obtain ⟨simple, isSimple, _⟩ := fits.worded isCompound
            have parts : (Outline.eventsOfList children).flatMap (tree.actionsAt style) =
                Outline.spokenOfList style.wording NodeKind.isComment children := by
              rw [flatMap_eventsOfList fun child member => (stored.child child member).actions_part
                (below child member) (isKind.trans isCompound) (fits.flat isCompound child member),
                Outline.spokenOfList_eq, flatMap_filter_eq]
            have simpleText : tree.attributeOf id .simpleText = some simple := by
              rw [Tree.attributeOf, isNode]
              exact isSimple
            rw [parts, simpleText, isSimple, isCompound]
            simp [NodeKind.isParens]
          next notCompound =>
            rw [all notCompound]
            split
            · simp
            · simp

/-! ### Walks -/

/-- The text of a region is the text of the steps between the comments that begin and end it. -/
theorem Shows.renderBetween_eq (shown : tree.Shows draft) (regular : draft.outline.Regular)
    {before passed rest : List WalkEvent} {start : NodeId}
    (walked : tree.walk = before ++ .enter start :: (passed ++ rest))
    (isComment : (tree.kind start).isComment = true) {stop : Option NodeId}
    (stops : rest.head? = stop.map WalkEvent.enter) :
    tree.renderBetween start stop = tree.renderEvents passed := by
  have isLeaf : (tree.kind start).isLeaf = true := by
    revert isComment
    cases tree.kind start <;> decide
  have plain : (tree.kind start).isParens = false := by
    revert isComment
    cases tree.kind start <;> decide
  exact shown.renderBetween_of_leaf walked (shown.children_of_isLeaf regular isLeaf) plain stops

/-! ### What a walk calls for -/

/-- The region that a step of a walk begins, with the comment that it enters. -/
def openedAt (tree : Tree) : WalkEvent → Option (Region × NodeId)
  | .enter id => if (tree.kind id).isComment then tree.opened id else none
  | .leave _ => none

theorem speech_actionsAt_none (event : WalkEvent) :
    Action.speech tree none (tree.actionsAt style event) =
      ((tree.partOf event).toList.map (Part.text style tree), tree.openedAt event) := by
  cases event with
  | leave id =>
    simp only [actionsAt, partOf, openedAt]
    split <;> rfl
  | enter id =>
    simp only [actionsAt, partOf, openedAt]
    by_cases isBlank : tree.kind id = .whiteSpace
    · simp [isBlank, Action.speech, NodeKind.isComment]
    · cases isComment : (tree.kind id).isComment with
      | true =>
        have isLeaf : (tree.kind id).isLeaf = true := by
          revert isComment
          cases tree.kind id <;> decide
        have notWord : tree.isWord id = false := by simp [isWord, NodeKind.isTrivia, isComment]
        simp [isBlank, isLeaf, notWord, Action.speech_comment_none, Part.text]
      | false =>
        simp only [isBlank, if_false, Bool.false_eq_true]
        split_ifs <;> rfl

theorem speech_actionsAt_some (region : Region) (start : NodeId) (event : WalkEvent) :
    Action.speech tree (some (region, start)) (tree.actionsAt style event) =
      if tree.endsRegion region event then
        (tree.renderBetween start event.entered? ::
          (tree.partOf event).toList.map (Part.text style tree), tree.openedAt event)
      else ([], some (region, start)) := by
  cases event with
  | leave id =>
    simp only [actionsAt, endsRegion]
    split <;> rfl
  | enter id =>
    by_cases isComment : (tree.kind id).isComment = true
    · have notBlank : tree.kind id ≠ .whiteSpace := fun isBlank => by
        simp [isBlank, NodeKind.isComment] at isComment
      have isLeaf : (tree.kind id).isLeaf = true := by
        revert isComment
        cases tree.kind id <;> decide
      have notWord : tree.isWord id = false := by simp [isWord, NodeKind.isTrivia, isComment]
      simp [actionsAt, endsRegion, partOf, openedAt, notBlank, isComment, isLeaf, notWord,
        Action.speech_comment_some, Part.text, WalkEvent.entered?]
    · simp only [actionsAt, endsRegion, isComment]
      split_ifs <;> simp_all [Action.speech, Action.utter]

/-- A region that is open after the first steps of a walk, with the steps since the comment that
began it. -/
inductive Stretches (tree : Tree) (front : List WalkEvent) :
    Option (Region × NodeId) → Option (Region × List WalkEvent) → Prop where
  | free : Stretches tree front none none
  | inside {region : Region} {start : NodeId} {before passed : List WalkEvent}
      (walked : front = before ++ .enter start :: passed)
      (isComment : (tree.kind start).isComment = true) :
      Stretches tree front (some (region, start)) (some (region, passed))

theorem stretches_begun (front : List WalkEvent) (event : WalkEvent) :
    tree.Stretches (front ++ [event]) (tree.openedAt event) (tree.stretchBegun event) := by
  cases event with
  | leave id => exact .free
  | enter id =>
    by_cases isComment : (tree.kind id).isComment = true
    · cases opens : Region.openedBy? (tree.text id) with
      | none =>
        simpa [openedAt, stretchBegun, regionBegun, opened, isComment, opens] using Stretches.free
      | some region =>
        have inside :
            tree.Stretches (front ++ [.enter id]) (some (region, id)) (some (region, [])) :=
          .inside rfl isComment
        simpa [openedAt, stretchBegun, regionBegun, opened, isComment, opens] using inside
    · simpa [openedAt, stretchBegun, regionBegun, isComment] using Stretches.free

/-- The text of a region that is open at the end. -/
def remainders (tree : Tree) : Option (Region × NodeId) → List String
  | none => []
  | some (_, start) => [tree.renderBetween start none]

theorem spaced_remainder (tree : Tree) (state : Option (Region × NodeId)) :
    style.Spaced (tree.remainders state) (tree.remainder state) := by
  cases state with
  | none => exact Style.spaced_empty
  | some state => exact Style.spaced_singleton _

/-- The rest of a walk writes the texts of the parts that are left. -/
theorem Shows.speech_walk (shown : tree.Shows draft) (regular : draft.outline.Regular)
    {front rest : List WalkEvent} {state : Option (Region × NodeId)}
    {stretch : Option (Region × List WalkEvent)} (whole : tree.walk = front ++ rest)
    (stretches : tree.Stretches front state stretch) :
    (Action.speech tree state (rest.flatMap (tree.actionsAt style))).1 ++
        tree.remainders (Action.speech tree state (rest.flatMap (tree.actionsAt style))).2 =
      (tree.partsFrom stretch rest).map (Part.text style tree) := by
  induction rest generalizing front state stretch with
  | nil =>
    cases stretches with
    | free => rfl
    | @inside region start before passed walked isComment =>
      have walks : tree.walk = before ++ .enter start :: (passed ++ []) := by simp [whole, walked]
      have text : tree.renderBetween start none = _ :=
        shown.renderBetween_eq regular walks isComment rfl
      simp [Action.speech, remainders, partsFrom, Part.text, text]
  | cons event rest ih =>
    have further : tree.walk = front ++ [event] ++ rest := by simp [whole]
    rw [List.flatMap_cons, Action.speech_append]
    dsimp only
    cases stretches with
    | free =>
      rw [speech_actionsAt_none, partsFrom, List.map_append,
        ← ih further (stretches_begun front event)]
      simp
    | @inside region start before passed walked isComment =>
      rw [speech_actionsAt_some, partsFrom]
      split
      next ends =>
        have stops : (event :: rest).head? = event.entered?.map WalkEvent.enter := by
          cases event with
          | enter id => rfl
          | leave id => cases ends
        have walks : tree.walk = before ++ .enter start :: (passed ++ event :: rest) := by
          simp [whole, walked]
        have text := shown.renderBetween_eq regular walks isComment stops
        rw [List.map_cons, List.map_append, ← ih further (stretches_begun front event),
          Part.text, text]
        simp
      next =>
        have walks : front ++ [event] = before ++ .enter start :: (passed ++ [event]) := by
          simp [walked]
        rw [List.nil_append]
        exact ih further (.inside walks isComment)

end Tree

/-! ### Scripts -/

/-- A formatted script consists of the texts of the parts of its tree. Every leaf inside a region is
in the text of one region, and every other leaf is written once, unless a region begins or ends
between two words of a compound keyword. -/
theorem format_covers_leaves (style : Style) (script warning : String) :
    ∃ tree text, Tree.ofText script = .ok tree ∧
      format style script warning =
        .ok { text := tree.warningText warning ++ text, parseError := tree.hasError } ∧
      tree.entered.Perm (List.range tree.size) ∧
      style.Spaced (tree.parts.map (Part.text style tree)) text ∧
      tree.parts.flatMap (Part.inside tree) = tree.leavesInside ∧
      (tree.Undivided → (tree.parts.flatMap (Part.outside tree)).Perm tree.leavesOutside) := by
  obtain ⟨tree, draft, isOk, shown, built⟩ := Tree.ofTokens_shows (.ofText script)
  have regular := built.sound.outline_regular
  obtain ⟨writer, isLaid, _⟩ :=
    Outline.lays_layOut style tree regular {} (tree.opening style warning)
  have isText : tree.format style warning = .ok (tree.ending style writer) := by
    rw [Tree.format_eq, shown.outline_eq, isLaid]
    rfl
  have laid := (Writer.tracks_utters style tree).layOut regular isLaid
    (Outline.agrees_spoken style shown.stores)
  obtain ⟨region, marks, written, spaced⟩ := laid.trans (writer.puts_settle style).uttersNothing
  rw [List.append_nil, ← shown.stores.actions_events regular (by simp), ← shown.walk_eq,
    tree.region_opening] at region spaced
  have whole : _ = tree.parts.map (Part.text style tree) :=
    shown.speech_walk regular (List.nil_append tree.walk).symm .free
  have output : tree.ending style writer = tree.warningText warning ++
      (String.join (marks.map (Mark.text style)) ++
        tree.remainder (writer.settle style).region) := by
    rw [tree.ending_eq, Writer.output, written, ← tree.output_opening style, Writer.output]
    simp [String.join_append, String.append_assoc]
  refine ⟨tree, _, isOk, format_eq_ok isOk (output ▸ isText), shown.linked.entered, ?_, ?_,
    shown.outside_perm regular⟩
  · rw [← whole, region]
    exact spaced.append (tree.spaced_remainder _)
  · exact tree.inside_parts

/-- A region that begins before a group and ends inside it, and a comment between the words of a
compound keyword. -/
def twoViews : String :=
  "SELECT a, /*[noformat]*/ (b  , c /*[/noformat]*/ ) ORDER /* d */ BY e"

theorem format_covers_leaves_twoViews :
    ∃ tree text, Tree.ofText twoViews = .ok tree ∧ tree.Undivided ∧
      format {} twoViews defaultWarning = .ok { text, parseError := false } ∧
      Style.Spaced {} ["SELECT", "a", ",", "/*[noformat]*/", " (b  , c ", "/*[/noformat]*/",
        ")", "ORDER BY", "/* d */", "e"] text ∧
      tree.leavesInside = [9, 11, 12, 13, 14, 15, 16] ∧
      (tree.parts.flatMap (Part.outside tree)).Perm [3, 5, 6, 8, 17, 22, 24, 26, 28] := by
  obtain ⟨tree, text, isOk, isResult, _, spaced, _, outside⟩ :=
    format_covers_leaves {} twoViews defaultWarning
  have facts :
      (Tree.ofText twoViews).toOption.map (fun tree => (tree.hasError, decide tree.Undivided,
      tree.parts.map (Part.text {} tree), tree.leavesInside, tree.leavesOutside)) =
      some (false, true,
        ["SELECT", "a", ",", "/*[noformat]*/", " (b  , c ", "/*[/noformat]*/", ")", "ORDER BY",
          "/* d */", "e"], [9, 11, 12, 13, 14, 15, 16], [3, 5, 6, 8, 17, 22, 24, 26, 28]) := by
    decide +kernel
  rw [isOk] at facts
  simp only [Except.toOption, Option.map_some, Option.some.injEq, Prod.mk.injEq, decide_eq_true_eq]
    at facts
  obtain ⟨clean, undivided, parts, isInside, isOutside⟩ := facts
  have silent : tree.warningText defaultWarning = "" := by
    rw [Tree.warningText, clean]
    rfl
  rw [clean, silent, String.empty_append] at isResult
  exact ⟨tree, text, isOk, undivided, isResult, parts ▸ spaced, isInside,
    isOutside ▸ outside undivided⟩

/-- A region that ends between the two words of a compound keyword. -/
def endsBetween : String :=
  "SELECT a /*[noformat]*/ ORDER /*[/noformat]*/ BY b"

/-- A region that begins between the two words of a compound keyword. -/
def beginsBetween : String :=
  "SELECT a ORDER /*[noformat]*/ BY b /*[/noformat]*/ , c"

/-- Where a region ends between two words of a compound keyword the second one is dropped, and where
one begins there the second word is written twice. -/
theorem format_divides_keyword :
    (∃ tree, Tree.ofText endsBetween = .ok tree ∧ tree.text 15 = "BY" ∧ 15 ∈ tree.leavesOutside ∧
      15 ∉ tree.parts.flatMap (Part.outside tree) ∧
      format {} endsBetween defaultWarning =
        .ok { text := "SELECT\n\ta /*[noformat]*/ ORDER /*[/noformat]*/ b\n",
              parseError := false }) ∧
    ∃ tree, Tree.ofText beginsBetween = .ok tree ∧ tree.text 13 = "BY" ∧ 13 ∈ tree.leavesInside ∧
      13 ∈ tree.parts.flatMap (Part.outside tree) ∧
      format {} beginsBetween defaultWarning =
        .ok { text := "SELECT\n\ta\nORDER BY /*[noformat]*/ BY b /*[/noformat]*/\n\t,c\n"
              parseError := false } := by
  have dropped : (Tree.ofText endsBetween).toOption.map (fun tree => (tree.hasError, tree.text 15,
      decide (15 ∈ tree.leavesOutside), decide (15 ∈ tree.parts.flatMap (Part.outside tree)),
      tree.format {} defaultWarning)) =
      some (false, "BY", true, false,
        .ok "SELECT\n\ta /*[noformat]*/ ORDER /*[/noformat]*/ b\n") := by
    decide +kernel
  have repeated :
      (Tree.ofText beginsBetween).toOption.map (fun tree => (tree.hasError, tree.text 13,
      decide (13 ∈ tree.leavesInside), decide (13 ∈ tree.parts.flatMap (Part.outside tree)),
      tree.format {} defaultWarning)) =
      some (false, "BY", true, true,
        .ok "SELECT\n\ta\nORDER BY /*[noformat]*/ BY b /*[/noformat]*/\n\t,c\n") := by
    decide +kernel
  obtain ⟨first, _, isFirst, _⟩ := Tree.ofTokens_shows (.ofText endsBetween)
  obtain ⟨second, _, isSecond, _⟩ := Tree.ofTokens_shows (.ofText beginsBetween)
  rw [Tree.ofText, isFirst] at dropped
  rw [Tree.ofText, isSecond] at repeated
  simp only [Except.toOption, Option.map_some, Option.some.injEq, Prod.mk.injEq, decide_eq_true_eq,
    decide_eq_false_iff_not] at dropped repeated
  obtain ⟨clean, text, outside, unwritten, isText⟩ := dropped
  obtain ⟨cleanToo, textToo, inside, written, isTextToo⟩ := repeated
  have formatted := format_eq_ok isFirst isText
  have formattedToo := format_eq_ok isSecond isTextToo
  rw [clean] at formatted
  rw [cleanToo] at formattedToo
  exact ⟨⟨first, isFirst, text, outside, unwritten, formatted⟩,
    second, isSecond, textToo, inside, written, formattedToo⟩

end SqlLayout
