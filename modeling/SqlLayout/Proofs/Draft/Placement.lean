import SqlLayout.Proofs.Draft.Built

/-!
# Where statements and clauses stand

A statement stands in the document, in a body of statements, in the action of a branch or in the
contents of a definition or of a cursor. It holds clauses, and clauses stand in statements and in
groups. The body of an `IF`, `ELSE` or `WHILE` holds one statement at most. An `ELSE` stands in an
`IF`, which holds one at most. What is built from tokens keeps to this at every node, and an `IF`
that is open has no `ELSE` besides the part that is open in it.
-/

namespace SqlLayout

variable {kind : NodeKind} {draft : Draft}

namespace NodeKind

/-- Whether a node of a kind may stand in containers of the given kinds, the innermost first. -/
def standsIn (kind : NodeKind) : List NodeKind → Bool
  | [] => kind != statement && kind != clause && kind != elseClause
  | parent :: others =>
      match kind with
      | statement =>
          [root, containerMultiStatementBody, containerSingleStatementBody,
            mergeAction].contains parent || parent == containerContentBody &&
              others.head?.any fun owner => [ddlAsBlock, cursorForBlock].contains owner
      | clause => [statement, expressionParens, inParens, selectionTargetParens].contains parent
      | elseClause => parent == ifStatement
      | _ => parent != statement || kind.isTrivia

/-- Whether a container of a kind may hold children of the given kinds. -/
def takes (kind : NodeKind) (children : List NodeKind) : Bool :=
  (kind != containerSingleStatementBody || decide (children.count statement ≤ 1)) &&
    decide (children.count elseClause ≤ 1)

/-- A kind of which a container may hold any number. -/
def isUnlimited (kind : NodeKind) : Bool :=
  kind != statement && kind != elseClause

theorem inert_of_isTrivia (trivia : kind.isTrivia = true) : kind.parents = [] := by
  revert trivia
  cases kind <;> decide

theorem ne_of_inert {taker : NodeKind} (inert : kind.parents = []) (opens : taker.parents ≠ []) :
    kind ≠ taker := by
  rintro rfl
  exact opens inert

theorem isUnlimited_of_inert (inert : kind.parents = []) : kind.isUnlimited = true := by
  simp [isUnlimited, ne_of_inert inert (by decide : parents statement ≠ []),
    ne_of_inert inert (by decide : parents elseClause ≠ [])]

theorem standsIn_of_isTrivia (trivia : kind.isTrivia = true) (around : List NodeKind) :
    kind.standsIn around = true := by
  have inert := inert_of_isTrivia trivia
  have notStatement := ne_of_inert inert (by decide : parents statement ≠ [])
  have notClause := ne_of_inert inert (by decide : parents clause ≠ [])
  have notElse := ne_of_inert inert (by decide : parents elseClause ≠ [])
  rw [standsIn.eq_def]
  split
  · simp [notStatement, notClause, notElse]
  · split <;> simp_all

/-- A node that takes no cursor may stand anywhere but in a statement. -/
theorem standsIn_of_inert (inert : kind.parents = []) {around : List NodeKind}
    (inside : around.head? ≠ some statement) : kind.standsIn around = true := by
  have notStatement := ne_of_inert inert (by decide : parents statement ≠ [])
  have notClause := ne_of_inert inert (by decide : parents clause ≠ [])
  have notElse := ne_of_inert inert (by decide : parents elseClause ≠ [])
  rw [standsIn.eq_def]
  split
  · simp [notStatement, notClause, notElse]
  · split <;> simp_all

/-- A container other than a statement may stand wherever it is opened. -/
theorem standsIn_of_opens {parent : NodeKind} (opens : parent ∈ kind.parents)
    (notStatement : kind ≠ statement) (others : List NodeKind) :
    kind.standsIn (parent :: others) = true := by
  have only : ∀ kind : NodeKind, statement ∈ kind.parents → kind = clause := by
    intro kind
    cases kind <;> decide
  have known : ∀ kind ∈ [clause, elseClause], ∀ parent ∈ kind.parents,
      kind.standsIn [parent] = true := by
    decide
  by_cases isClause : kind = clause
  · subst isClause
    exact known clause (by decide) parent opens
  by_cases isElse : kind = elseClause
  · subst isElse
    exact known elseClause (by decide) parent opens
  have inside : parent ≠ statement := fun isStatement => isClause (only kind (isStatement ▸ opens))
  rw [standsIn.eq_def]
  dsimp only
  split
  · contradiction
  · contradiction
  · contradiction
  · simp [inside]

theorem takes_insert {kind : NodeKind} {front middle back : List NodeKind}
    (unlimited : ∀ child ∈ middle, child.isUnlimited = true) :
    kind.takes (front ++ middle ++ back) = kind.takes (front ++ back) := by
  have none {rare : NodeKind} (limited : rare.isUnlimited = false) : middle.count rare = 0 := by
    refine List.count_eq_zero.mpr fun member => ?_
    rw [unlimited rare member] at limited
    cases limited
  simp only [takes, List.count_append, none (by decide : isUnlimited statement = false),
    none (by decide : isUnlimited elseClause = false), Nat.add_zero]

theorem takes_append {child : NodeKind} {children : List NodeKind}
    (takes : kind.takes children = true) (unlimited : child.isUnlimited = true) :
    kind.takes (children ++ [child]) = true := by
  have same := @takes_insert kind children [child] [] (by simpa using unlimited)
  rwa [List.append_nil, List.append_nil, takes] at same

theorem takes_left {front back : List NodeKind} (takes : kind.takes (front ++ back) = true) :
    kind.takes front = true := by
  rw [NodeKind.takes, List.count_append, List.count_append] at takes
  rw [NodeKind.takes]
  simp only [Bool.and_eq_true, Bool.or_eq_true, bne_iff_ne, decide_eq_true_eq] at takes ⊢
  exact ⟨takes.1.imp id fun few => by omega, by omega⟩

end NodeKind

namespace Outline

/-- Every node of an outline stands where it may and holds what it may, in containers of the given
kinds. -/
inductive Placed : List NodeKind → Outline → Prop where
  | node {around : List NodeKind} {id : NodeId} {kind : NodeKind} {text : String}
      {attributes : Attributes} {children : List Outline} (stands : kind.standsIn around = true)
      (takes : kind.takes (children.map Outline.kind) = true)
      (below : ∀ child ∈ children, Placed (kind :: around) child) :
      Placed around (.node id kind text attributes children)

theorem placed_leaf (id : NodeId) (text : String) {around : List NodeKind}
    (stands : kind.standsIn around = true) : (leaf id kind text).Placed around :=
  .node stands (by simp [NodeKind.takes]) (by simp)

theorem placed_of_inert {outline : Outline} (inert : ∀ node ∈ outline.nodes, node.kind.parents = [])
    {around : List NodeKind} (inside : around.head? ≠ some .statement) : outline.Placed around := by
  induction outline generalizing around with
  | node id kind text attributes children ih =>
    rw [nodes_eq] at inert
    obtain ⟨here, below⟩ := List.forall_mem_cons.mp inert
    have here : kind.parents = [] := here
    refine .node (NodeKind.standsIn_of_inert here inside) ?_ fun child member =>
      ih child member ?_ ?_
    · have notBody :=
        NodeKind.ne_of_inert here (by decide : NodeKind.parents .containerSingleStatementBody ≠ [])
      have none : (children.map Outline.kind).count .elseClause = 0 := by
        refine List.count_eq_zero.mpr fun member => ?_
        obtain ⟨child, isChild, isElse⟩ := List.mem_map.mp member
        have inert := below child (List.mem_flatMap.mpr ⟨child, isChild, by rw [nodes_eq]; simp⟩)
        exact absurd (isElse ▸ inert) (by decide)
      simp [NodeKind.takes, notBody, none]
    · exact fun node isNode => below node (List.mem_flatMap.mpr ⟨child, member, isNode⟩)
    · rintro isStatement
      simp only [List.head?_cons, Option.some.injEq] at isStatement
      exact absurd (isStatement ▸ here) (by decide)

theorem takes_shedList {outlines : List Outline}
    (takes : kind.takes (outlines.map Outline.kind) = true) :
    kind.takes ((shedList outlines).1.map Outline.kind) = true := by
  obtain ⟨moved, _, kinds⟩ := exists_kinds_shedList outlines
  rw [← kinds] at takes
  exact NodeKind.takes_left takes

/-- What stays in a container is in its place. -/
theorem placed_shedList {outlines : List Outline} {around : List NodeKind}
    (placed : ∀ outline ∈ outlines, outline.Placed around) :
    ∀ outline ∈ (shedList outlines).1, outline.Placed around := by
  induction outlines using induction_on_tail generalizing around with
  | nil => simp [shedList_nil]
  | pass first rest content ih =>
    obtain ⟨here, later⟩ := List.forall_mem_cons.mp placed
    rw [shedList_pass content]
    exact List.forall_mem_cons.mpr ⟨here, ih later⟩
  | stop first rest content hides =>
    rw [shedList_stop content hides]
    obtain ⟨here, later⟩ := List.forall_mem_cons.mp placed
    exact List.forall_mem_cons.mpr
      ⟨here, fun outline member => later outline (mem_of_mem_split (.inl member))⟩
  | inner first rest content hides ih =>
    rw [shedList_inner content hides]
    obtain ⟨here, later⟩ := List.forall_mem_cons.mp placed
    refine List.forall_mem_cons.mpr ⟨?_, fun outline member =>
      later outline (mem_of_mem_split (.inl member))⟩
    obtain ⟨id, kind, text, attributes, children⟩ := first
    obtain ⟨stands, takes, below⟩ := here
    exact .node stands (takes_shedList takes) (ih below)

end Outline

/-! ### Drafts -/

/-- The open containers around one of a given kind, and what they hold, are in their places. -/
def Frame.AllPlaced (hole : NodeKind) : List Frame → Prop
  | [] => True
  | frame :: outer =>
      frame.kind.standsIn (outer.map Frame.kind) = true ∧
        frame.kind.takes (frame.before.map Outline.kind ++ hole :: frame.after.map Outline.kind) =
          true ∧
        (∀ outline ∈ frame.before ++ frame.after,
          outline.Placed (frame.kind :: outer.map Frame.kind)) ∧ AllPlaced frame.kind outer

/-- A document is in its place if the open containers are, and the innermost one. -/
theorem Frame.placed_plug {outer : List Frame} {inside : Outline} :
    (Frame.plug outer inside).Placed [] ↔
      Frame.AllPlaced inside.kind outer ∧ inside.Placed (outer.map Frame.kind) := by
  induction outer generalizing inside with
  | nil => simp [Frame.plug, Frame.AllPlaced]
  | cons frame outer ih =>
    rw [Frame.plug, List.foldl_cons, ← Frame.plug, ih, Frame.AllPlaced, List.map_cons]
    constructor
    · rintro ⟨above, ⟨stands, takes, below⟩⟩
      simp only [List.map_append, List.map_cons] at takes
      refine ⟨⟨stands, takes, fun outline member => below outline ?_, above⟩,
        below inside (by simp)⟩
      simp only [List.mem_append, List.mem_cons] at member ⊢
      exact member.imp_right .inr
    · rintro ⟨⟨stands, takes, beside, above⟩, here⟩
      refine ⟨above, .node stands (by simpa using takes) fun child member => ?_⟩
      rcases List.mem_append.mp member with before | later
      · exact beside child (List.mem_append_left _ before)
      · rcases List.mem_cons.mp later with rfl | after
        · exact here
        · exact beside child (List.mem_append_right _ after)

namespace Draft

theorem Hosts.takes (hosts : draft.Hosts)
    (takes : draft.kind.takes (draft.children.map Outline.kind) = true) :
    draft.kind.takes (draft.children.map Outline.kind ++ [.statement]) = true := by
  have few : (draft.children.map Outline.kind).count .elseClause ≤ 1 := by
    simp only [NodeKind.takes, Bool.and_eq_true, decide_eq_true_eq] at takes
    exact takes.2
  by_cases isBody : draft.kind = .containerSingleStatementBody
  · have none : (draft.children.map Outline.kind).count .statement = 0 := by
      refine List.count_eq_zero.mpr fun member => ?_
      obtain ⟨child, isChild, isStatement⟩ := List.mem_map.mp member
      exact hosts.single isBody child isChild isStatement
    simpa [NodeKind.takes, List.count_append, none] using few
  · simpa [NodeKind.takes, isBody] using few

theorem Hosts.standsIn (hosts : draft.Hosts) (opens : draft.kind ∈ NodeKind.parents .statement) :
    NodeKind.standsIn .statement draft.path = true := by
  by_cases isContent : draft.kind = .containerContentBody
  · obtain ⟨owner, isOwner, others, path⟩ := hosts.owner isContent
    rw [← path]
    simpa [NodeKind.standsIn] using isOwner
  · rw [Draft.path]
    simp only [NodeKind.parents, List.mem_cons, List.not_mem_nil, or_false] at opens
    rcases opens with isKind | isKind | isKind | isKind | isKind
    · simp [NodeKind.standsIn, isKind]
    · simp [NodeKind.standsIn, isKind]
    · simp [NodeKind.standsIn, isKind]
    · exact absurd isKind isContent
    · simp [NodeKind.standsIn, isKind]

theorem Undecided.takes (undecided : draft.Undecided) (isIf : draft.kind = .ifStatement) :
    draft.kind.takes (draft.children.map Outline.kind ++ [.elseClause]) = true := by
  have none : (draft.children.map Outline.kind).count .elseClause = 0 := by
    refine List.count_eq_zero.mpr fun member => ?_
    obtain ⟨child, isChild, isElse⟩ := List.mem_map.mp member
    exact undecided isIf child isChild isElse
  simp [NodeKind.takes, isIf, List.count_append, none]

/-- Every node of a document is in its place. -/
def Placed (draft : Draft) : Prop :=
  draft.outline.Placed []

namespace Placed

variable {draft other : Draft} {outline : Outline}

theorem around (placed : draft.Placed) : Frame.AllPlaced draft.kind draft.outer :=
  (Frame.placed_plug.mp placed).1

theorem closed (placed : draft.Placed) : draft.closed.Placed (draft.outer.map Frame.kind) :=
  (Frame.placed_plug.mp placed).2

theorem stands (placed : draft.Placed) :
    draft.kind.standsIn (draft.outer.map Frame.kind) = true := by
  obtain ⟨stands, _, _⟩ := placed.closed
  exact stands

theorem takes (placed : draft.Placed) :
    draft.kind.takes (draft.children.map Outline.kind) = true := by
  obtain ⟨_, takes, _⟩ := placed.closed
  exact takes

theorem inside (placed : draft.Placed) : ∀ outline ∈ draft.children, outline.Placed draft.path := by
  obtain ⟨_, _, below⟩ := placed.closed
  exact below

theorem fill (placed : draft.Placed) {children : List Outline}
    (takes : draft.kind.takes (children.map Outline.kind) = true)
    (below : ∀ outline ∈ children, outline.Placed draft.path) :
    Placed { draft with children } :=
  Frame.placed_plug.mpr ⟨placed.around, .node placed.stands takes below⟩

theorem add (placed : draft.Placed) (here : outline.Placed draft.path)
    (takes : draft.kind.takes (draft.children.map Outline.kind ++ [outline.kind]) = true) :
    (draft.add outline).Placed := by
  refine placed.fill (by simpa using takes) (List.forall_mem_append.mpr ⟨placed.inside, ?_⟩)
  simpa using here

theorem up (placed : draft.Placed) : draft.up.Placed := by
  rwa [Placed, outline_up]

theorem ups (placed : draft.Placed) (levels : Nat) : (draft.ups levels).Placed := by
  induction levels generalizing draft with
  | zero => exact placed
  | succ levels ih => exact ih placed.up

theorem enter (placed : draft.Placed) (id : NodeId) {kind : NodeKind}
    (stands : kind.standsIn draft.path = true)
    (takes : draft.kind.takes (draft.children.map Outline.kind ++ [kind]) = true) :
    (draft.enter id kind).Placed := by
  rw [Placed, outline_enter]
  exact placed.add (Outline.placed_leaf id "" stands) takes

theorem addAll_trivia (placed : draft.Placed) {outlines : List Outline}
    (here : ∀ outline ∈ outlines, outline.Placed draft.path)
    (trivia : ∀ outline ∈ outlines, outline.kind.isTrivia = true) :
    (draft.addAll outlines).Placed := by
  refine placed.fill ?_ (List.forall_mem_append.mpr ⟨placed.inside, here⟩)
  have unlimited : ∀ kind ∈ outlines.map Outline.kind, kind.isUnlimited = true := by
    intro kind member
    obtain ⟨outline, isTrivia, rfl⟩ := List.mem_map.mp member
    exact NodeKind.isUnlimited_of_inert (NodeKind.inert_of_isTrivia (trivia outline isTrivia))
  have same := @NodeKind.takes_insert draft.kind (draft.children.map Outline.kind) _ [] unlimited
  rw [List.append_nil, List.append_nil, placed.takes] at same
  rwa [List.map_append]

theorem slip (placed : draft.Placed) (id : NodeId) {kind : NodeKind} (text : String)
    (trivia : kind.isTrivia = true) : (draft.slip (.leaf id kind text)).Placed := by
  unfold Draft.slip
  split
  · exact placed
  next frame outer around =>
    have frames := placed.around
    have closed := placed.closed
    rw [around] at frames closed
    obtain ⟨stands, takes, beside, above⟩ := frames
    refine Frame.placed_plug.mpr ⟨⟨stands, ?_, ?_, above⟩, closed⟩
    · have unlimited := NodeKind.isUnlimited_of_inert (NodeKind.inert_of_isTrivia trivia)
      have same := @NodeKind.takes_insert frame.kind (frame.before.map Outline.kind) [kind]
        (draft.kind :: frame.after.map Outline.kind) (by simpa using unlimited)
      rw [takes] at same
      simpa using same
    · intro outline member
      simp only [List.mem_append, List.mem_singleton] at member
      rcases member with (before | rfl) | after
      · exact beside outline (List.mem_append_left _ before)
      · exact Outline.placed_leaf id text (NodeKind.standsIn_of_isTrivia trivia _)
      · exact beside outline (List.mem_append_right _ after)

theorem setAttribute (placed : draft.Placed) (id : NodeId) (key : Attribute) (value : String) :
    (draft.setAttribute id key value).Placed := by
  have frames : ∀ (hole : NodeKind) (outer : List Frame), Frame.AllPlaced hole outer →
      Frame.AllPlaced hole (Frame.setAttributes id key value outer) := by
    intro hole outer
    induction outer generalizing hole with
    | nil => exact fun _ => trivial
    | cons frame outer ih =>
      rintro ⟨stands, takes, beside, above⟩
      have kinds : (Frame.setAttributes id key value outer).map Frame.kind = outer.map Frame.kind :=
        Frame.map_kind_setAttributes id key value outer
      simp only [Frame.setAttributes, List.map_cons] at kinds ⊢
      split
      all_goals exact ⟨kinds ▸ stands, takes, kinds ▸ beside, ih _ above⟩
  refine Frame.placed_plug.mpr ⟨frames _ _ placed.around, .node ?_ placed.takes ?_⟩
  · rw [show (draft.setAttribute id key value).outer.map Frame.kind =
      draft.outer.map Frame.kind from
      Frame.map_kind_setAttributes id key value draft.outer]
    exact placed.stands
  · rw [show (draft.setAttribute id key value).outer.map Frame.kind =
      draft.outer.map Frame.kind from
      Frame.map_kind_setAttributes id key value draft.outer]
    exact placed.inside

theorem shed (placed : draft.Placed) : draft.shed.Placed :=
  placed.fill (Outline.takes_shedList placed.takes) (Outline.placed_shedList placed.inside)

theorem pass (placed : draft.Placed) (pass : draft.Pass other) : other.Placed := by
  cases pass with
  | leave _ _ => exact placed.up
  | @enter id kind _ opens _ hosts undecided =>
    by_cases isStatement : kind = .statement
    · subst isStatement
      exact placed.enter id ((hosts rfl).standsIn opens) ((hosts rfl).takes placed.takes)
    refine placed.enter id (NodeKind.standsIn_of_opens opens isStatement _) ?_
    by_cases isElse : kind = .elseClause
    · subst isElse
      exact (undecided (by decide)).takes (by simpa [NodeKind.parents] using opens)
    · exact NodeKind.takes_append placed.takes (by simp [NodeKind.isUnlimited, isStatement, isElse])

/-- Contents in which a statement stands are those of a definition or of a cursor. -/
theorem owner (placed : draft.Placed) (isStatement : draft.kind = .statement)
    (inside : draft.up.kind = .containerContentBody) (enclosed : draft.outer ≠ []) :
    ∃ owner ∈ [NodeKind.ddlAsBlock, .cursorForBlock], [.containerContentBody, owner] <+:
      draft.up.path := by
  obtain ⟨frame, outer, around⟩ := List.exists_cons_of_ne_nil enclosed
  have stands := placed.stands
  rw [up_eq around] at inside
  have isContent : frame.kind = .containerContentBody := inside
  rw [isStatement, around, List.map_cons, isContent] at stands
  have path : draft.up.path = .containerContentBody :: outer.map Frame.kind := by
    rw [up_eq around, Draft.path, isContent]
  rw [path]
  cases kinds : outer.map Frame.kind with
  | nil =>
    rw [kinds] at stands
    exact absurd stands (by decide)
  | cons owner others =>
    rw [kinds] at stands
    exact ⟨owner, by simpa [NodeKind.standsIn] using stands, others, rfl⟩

theorem passes (placed : draft.Placed) (passes : draft.Passes other) : other.Placed := by
  induction passes with
  | refl => exact placed
  | tail _ pass ih => exact ih.pass pass

end Placed

end Draft

/-- Every node of what is built from tokens is in its place. -/
theorem Built.placed {tokens : List Token} (built : Built tokens draft) : draft.Placed := by
  induction built with
  | start statement clause =>
    have empty : Draft.Placed { id := Tree.root, kind := .root } :=
      .node rfl rfl (by simp)
    exact (empty.enter statement rfl rfl).enter clause rfl rfl
  | pass _ pass ih => exact ih.pass pass
  | @add _ _ draft outline _ read _ _ inside ih =>
    have inert := read.inert outline (by simp)
    have unlimited := NodeKind.isUnlimited_of_inert (inert outline (by rw [Outline.nodes_eq]; simp))
    exact ih.add (Outline.placed_of_inert inert (by simpa [Draft.path] using inside))
      (NodeKind.takes_append ih.takes unlimited)
  | @trivia _ token draft _ id isTrivia _ _ ih =>
    have isTrivia := (TokenKind.isTrivia_leafKind token.kind).trans isTrivia
    have unlimited := NodeKind.isUnlimited_of_inert (NodeKind.inert_of_isTrivia isTrivia)
    exact ih.add (Outline.placed_leaf id token.value (NodeKind.standsIn_of_isTrivia isTrivia _))
      (NodeKind.takes_append ih.takes unlimited)
  | @slip _ token _ _ id isTrivia _ _ _ ih =>
    exact ih.slip id token.value ((TokenKind.isTrivia_leafKind token.kind).trans isTrivia)
  | @openGroup _ _ _ _ id _ kind group opens _ ih =>
    have limits : kind ≠ .statement ∧ kind.isUnlimited = true := by
      revert group
      cases kind <;> decide
    exact ih.enter id (NodeKind.standsIn_of_opens opens limits.1 _)
      (NodeKind.takes_append ih.takes limits.2)
  | closeGroup _ _ _ ih => exact ih.up
  | @stray _ _ draft _ id _ _ _ inside ih =>
    refine ih.add (Outline.placed_leaf id ")" (NodeKind.standsIn_of_inert rfl ?_))
      (NodeKind.takes_append ih.takes rfl)
    simpa [Draft.path] using inside
  | mark _ ih => exact (ih.setAttribute _ _ _).setAttribute _ _ _
  | @follow _ draft built id condition ih =>
    have enclosed : draft.outer ≠ [] := by
      refine built.sound.enclosed fun isRoot => ?_
      rw [condition] at isRoot
      exact absurd isRoot (by decide)
    have opens : draft.up.kind ∈ NodeKind.parents .containerSingleStatementBody :=
      (by decide : ∀ kind ∈ NodeKind.parents .booleanExpression,
        kind ∈ NodeKind.parents .containerSingleStatementBody) _ (condition ▸
          built.sound.kind_up enclosed)
    rw [Draft.Placed, Draft.outline_follow enclosed]
    exact ih.up.add (Outline.placed_leaf id "" (NodeKind.standsIn_of_opens opens (by decide) _))
      (NodeKind.takes_append ih.up.takes rfl)
  | @separate _ token draft built id keyword _ _ ih =>
    have top : draft.top.Placed := ih.ups _
    refine top.add (Outline.placed_of_inert (fun node member => ?_) ?_)
      (NodeKind.takes_append top.takes rfl)
    · simp only [Outline.nodes_eq, Outline.children, Outline.leaf, List.flatMap_cons,
        List.flatMap_nil, List.append_nil, List.mem_cons, List.not_mem_nil, or_false] at member
      rcases member with rfl | rfl <;> rfl
    · rw [Draft.path, Draft.kind_top built.sound]
      simp
  | @migrate _ draft other built _ passes _ ih =>
    have moved : ∀ outline ∈ draft.shedding, outline.kind.isTrivia = true :=
      Outline.isTrivia_of_mem_shedList
    refine (ih.shed.passes passes).addAll_trivia (fun outline member => ?_) moved
    have regular := (Outline.regular_of_mem_shedList built.sound.regular).2 outline member
    have childless := regular.childless (moved outline member)
    have stands := NodeKind.standsIn_of_isTrivia (moved outline member) other.path
    obtain ⟨id, kind, text, attributes, children⟩ := outline
    obtain rfl : children = [] := childless
    exact .node stands (by simp [NodeKind.takes]) (by simp)

/-! ### Open `IF`s -/

namespace Draft

/-- No `IF` around the container in hand has an `ELSE` besides the part that is open in it. -/
def Unbranched (draft : Draft) : Prop :=
  ∀ frame ∈ draft.outer, frame.kind = .ifStatement →
    ∀ outline ∈ frame.before ++ frame.after, outline.kind ≠ .elseClause

namespace Unbranched

variable {draft other : Draft}

theorem shed (unbranched : draft.Unbranched) : draft.shed.Unbranched :=
  unbranched

/-- An `IF` whose condition or first body is left has no `ELSE`. -/
theorem up (unbranched : draft.Unbranched) (enclosed : draft.outer ≠ [])
    (notElse : draft.kind ≠ .elseClause) : draft.up.Undecided := by
  obtain ⟨frame, outer, around⟩ := List.exists_cons_of_ne_nil enclosed
  rw [up_eq around]
  intro isIf child isChild
  have beside := unbranched frame (by rw [around]; exact List.mem_cons_self) isIf
  rcases List.mem_append.mp isChild with before | later
  · exact beside child (List.mem_append_left _ before)
  · rcases List.mem_cons.mp later with rfl | after
    · exact notElse
    · exact beside child (List.mem_append_right _ after)

theorem leave (unbranched : draft.Unbranched) : draft.up.Unbranched := by
  intro frame isAround
  unfold Draft.up at isAround
  split at isAround
  · exact unbranched frame isAround
  next around => exact unbranched frame (by rw [around]; exact List.mem_cons_of_mem _ isAround)

theorem ups (unbranched : draft.Unbranched) (levels : Nat) : (draft.ups levels).Unbranched := by
  induction levels generalizing draft with
  | zero => exact unbranched
  | succ levels ih => exact ih unbranched.leave

theorem enter (unbranched : draft.Unbranched) (id : NodeId) (kind : NodeKind)
    (undecided : draft.Undecided) : (draft.enter id kind).Unbranched := by
  refine List.forall_mem_cons.mpr ⟨fun isIf outline member => ?_, unbranched⟩
  exact undecided isIf outline (by simpa [frame] using member)

theorem pass (unbranched : draft.Unbranched) (pass : draft.Pass other) : other.Unbranched := by
  cases pass with
  | leave _ _ => exact unbranched.leave
  | enter id _ opens _ _ undecided =>
    exact unbranched.enter id _ fun isIf => undecided (isIf ▸ opens) isIf

theorem passes (unbranched : draft.Unbranched) (passes : draft.Passes other) :
    other.Unbranched := by
  induction passes with
  | refl => exact unbranched
  | tail _ pass ih => exact ih.pass pass

theorem frame {frame grown : Frame} {outer : List Frame} (unbranched : draft.Unbranched)
    (around : draft.outer = frame :: outer) (kind : grown.kind = frame.kind)
    (more : ∀ outline ∈ grown.before ++ grown.after,
      outline ∈ frame.before ++ frame.after ∨ outline.kind ≠ .elseClause) :
    Unbranched { draft with outer := grown :: outer } := by
  rw [Unbranched, around] at unbranched
  obtain ⟨here, above⟩ := List.forall_mem_cons.mp unbranched
  refine List.forall_mem_cons.mpr ⟨fun isIf outline member => ?_, above⟩
  exact (more outline member).elim (here (kind ▸ isIf) outline) fun notElse => notElse

theorem slip (unbranched : draft.Unbranched) {outline : Outline}
    (notElse : outline.kind ≠ .elseClause) : (draft.slip outline).Unbranched := by
  unfold Draft.slip
  split
  · exact unbranched
  next around =>
    refine unbranched.frame around rfl fun other member => ?_
    simp only [List.mem_append, List.mem_singleton] at member ⊢
    rcases member with (before | rfl) | after
    · exact .inl (.inl before)
    · exact .inr notElse
    · exact .inl (.inr after)

theorem follow (unbranched : draft.Unbranched) {outline : Outline}
    (notElse : outline.kind ≠ .elseClause) : (draft.follow outline).Unbranched := by
  unfold Draft.follow
  split
  · exact unbranched
  next around =>
    refine unbranched.frame around rfl fun other member => ?_
    simp only [List.mem_append, List.mem_singleton] at member ⊢
    rcases member with before | after | rfl
    · exact .inl (.inl before)
    · exact .inl (.inr after)
    · exact .inr notElse

theorem setAttribute (unbranched : draft.Unbranched) (id : NodeId) (key : Attribute)
    (value : String) : (draft.setAttribute id key value).Unbranched := by
  intro frame isAround
  obtain ⟨old, isOld, rfl⟩ := List.mem_map.mp isAround
  split <;> exact unbranched old isOld

end Unbranched

end Draft

/-- No open `IF` of what is built from tokens has an `ELSE` besides the part that is open in it. -/
theorem Built.unbranched {tokens : List Token} (built : Built tokens draft) : draft.Unbranched := by
  induction built with
  | start statement clause => simp [Draft.Unbranched, Draft.enter, Draft.frame]
  | pass _ pass ih => exact ih.pass pass
  | add _ _ _ _ _ ih => exact ih
  | trivia _ _ _ _ _ ih => exact ih
  | @slip _ token _ _ id isTrivia _ _ _ ih =>
    refine ih.slip (NodeKind.ne_of_inert ?_ (by decide))
    exact NodeKind.inert_of_isTrivia ((TokenKind.isTrivia_leafKind token.kind).trans isTrivia)
  | openGroup _ id _ group opens _ ih =>
    refine ih.enter id _ fun isIf => ?_
    have outside : ∀ kind : NodeKind, kind.isParens = true → .ifStatement ∉ kind.parents := by
      intro kind
      cases kind <;> decide
    exact absurd (isIf ▸ opens) (outside _ group)
  | closeGroup _ _ _ ih => exact ih.leave
  | stray _ _ _ _ _ _ ih => exact ih
  | mark _ ih => exact (ih.setAttribute _ _ _).setAttribute _ _ _
  | follow _ id _ ih => exact ih.follow (by simp)
  | separate _ _ _ _ _ ih => exact ih.ups _
  | @migrate _ _ other _ _ passes _ ih =>
    have moved : other.Unbranched := ih.shed.passes passes
    exact moved

end SqlLayout
