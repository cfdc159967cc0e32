import SqlLayout.Builder.Escape
import SqlLayout.Proofs.Builder.Moves

/-!
# Leaving finished containers succeeds

Wherever the cursor is, the containers around it nest as the grammar nests them, so each move up by
a fixed number of levels ends in a container that takes tokens.
-/

namespace SqlLayout

variable {draft origin : Draft} {others : List NodeKind}

/-- The container in hand takes the tokens of a script as they come. -/
def Draft.IsOpen (draft : Draft) : Prop :=
  draft.kind ∈ NodeKind.holders

/-- A draft is reached by leaving plain containers, and it takes tokens. -/
structure Draft.Escapes (origin draft : Draft) : Prop where
  above : origin.Above draft
  isOpen : draft.IsOpen

/-- If the container in hand is an `IF`, it has an `ELSE`. -/
def Draft.Decided (draft : Draft) : Prop :=
  draft.kind = .ifStatement → ∃ child ∈ draft.children, child.kind = .elseClause

/-- A draft is reached by leaving containers, and each `IF` among them has an `ELSE`. -/
def Draft.Rises (origin draft : Draft) : Prop :=
  ∃ levels ≤ origin.outer.length, draft = origin.ups levels ∧
    ∀ level < levels, (origin.ups level).Decided

/-- A draft is reached by leaving plain containers, none of them an `IF` without an `ELSE`, and it
takes tokens. -/
structure Draft.Recedes (origin draft : Draft) : Prop extends origin.Escapes draft where
  rises : origin.Rises draft

theorem Draft.kind_eq {kind : NodeKind} (path : draft.path = kind :: others) : draft.kind = kind :=
  (List.cons.inj path).1

theorem Draft.Left.escapes {inner : List NodeKind} {parent : NodeKind}
    (left : origin.Left inner (parent :: others) draft) (holder : parent ∈ NodeKind.holders) :
    origin.Escapes draft :=
  ⟨left.above, by rw [Draft.IsOpen, Draft.kind_eq left.path]; exact holder⟩

theorem Draft.Rises.refl (draft : Draft) : draft.Rises draft :=
  ⟨0, Nat.zero_le _, rfl, nofun⟩

theorem Draft.Rises.trans {other : Draft} (rises : origin.Rises draft)
    (further : draft.Rises other) : origin.Rises other := by
  obtain ⟨levels, enough, rfl, first⟩ := rises
  obtain ⟨more, within, rfl, second⟩ := further
  rw [Draft.length_outer_ups enough] at within
  refine ⟨levels + more, by omega, (origin.ups_add levels more).symm, fun level inside => ?_⟩
  by_cases early : level < levels
  · exact first level early
  · have later := second (level - levels) (by omega)
    rwa [← Draft.ups_add, Nat.add_sub_cancel' (Nat.le_of_not_lt early)] at later

theorem Draft.Decided.rises (decided : draft.Decided) (enclosed : draft.outer ≠ []) :
    draft.Rises draft.up := by
  refine ⟨1, List.length_pos_iff.mpr enclosed, rfl, fun level first => ?_⟩
  obtain rfl : level = 0 := Nat.lt_one_iff.mp first
  exact decided

/-- Where no `IF` is left, none without an `ELSE` is. -/
theorem Draft.Left.rises {inner : List NodeKind} (left : origin.Left inner others draft)
    (more : others ≠ []) (noIf : .ifStatement ∉ inner) :
    origin.Rises draft := by
  have enough := Draft.length_le_of_path left.whole more
  refine ⟨inner.length, enough, left.ups, fun level inside isIf => absurd ?_ noIf⟩
  have path := Draft.path_ups (Nat.le_of_lt (Nat.lt_of_lt_of_le inside enough))
  rw [left.whole, List.drop_append_of_le_length (Nat.le_of_lt inside),
    List.drop_eq_getElem_cons inside, List.cons_append] at path
  rw [← isIf, Draft.kind_eq path]
  exact List.getElem_mem inside

theorem Draft.Escapes.trans {other : Draft} (escapes : origin.Escapes draft)
    (further : draft.Escapes other) : origin.Escapes other :=
  ⟨escapes.above.trans further.above, further.isOpen⟩

theorem Draft.Recedes.trans {other : Draft} (recedes : origin.Recedes draft)
    (further : draft.Recedes other) : origin.Recedes other :=
  ⟨recedes.toEscapes.trans further.toEscapes, recedes.rises.trans further.rises⟩

namespace Builder.At

variable {builder : Builder} {tokens : List Token} {draft : Draft}

theorem nested_of_isIn (located : builder.At tokens draft) {kinds : List NodeKind}
    (asked : kinds ≠ []) (inside : builder.isIn kinds = true) :
    ∃ others, draft.path = kinds ++ others ∧ Nested (kinds ++ others) := by
  obtain ⟨others, path⟩ := (located.isIn_iff asked).mp inside
  exact ⟨others, path, path ▸ located.sound.nested⟩

theorem path_of_isIn (located : builder.At tokens draft) (inner : List NodeKind) (kind : NodeKind)
    (inside : builder.isIn (inner ++ [kind]) = true) {parent : NodeKind}
    (only : kind.parents = [parent]) :
    ∃ others, draft.path = inner ++ [kind] ++ parent :: others ∧ Nested (parent :: others) := by
  obtain ⟨others, path, nested⟩ := located.nested_of_isIn (by simp) inside
  rw [List.append_assoc] at nested
  obtain ⟨outer, rfl, above⟩ := (Nested.of_append nested).parent_eq only
  exact ⟨outer, path, above⟩

theorem path_of_caseThen (located : builder.At tokens draft)
    (inside : builder.isIn [.containerContentBody, .caseThen] = true) :
    ∃ others, draft.path = [NodeKind.containerContentBody, .caseThen, .caseWhen] ++
      .caseStatement :: others := by
  obtain ⟨_, path, inWhen⟩ := located.path_of_isIn [.containerContentBody] .caseThen inside rfl
  obtain ⟨others, rfl, _⟩ := inWhen.parent_eq rfl
  exact ⟨others, path⟩

theorem stays (located : builder.At tokens draft) (isOpen : draft.IsOpen) :
    Reaches tokens (.ok builder) draft.Recedes :=
  located.reaches ⟨⟨.refl, isOpen⟩, .refl draft⟩

/-- Leaving a container that opens anywhere, from some way below it, ends where tokens are taken. -/
theorem leaveFree (located : builder.At tokens draft) {inner : List NodeKind} {kind : NodeKind}
    (path : draft.path = inner ++ kind :: others) (anywhere : kind.parents = NodeKind.holders)
    (plain : ∀ left ∈ inner ++ [kind], left.isPlain = true)
    (noIf : .ifStatement ∉ inner ++ [kind]) :
    Reaches tokens (builder.moveUp (inner.length + 1)) draft.Recedes := by
  obtain ⟨parent, outer, rfl, holder, _⟩ :=
    (Nested.of_append (path ▸ located.sound.nested)).parent_holder anywhere
  have path : draft.path = (inner ++ [kind]) ++ parent :: outer := by
    rw [path, List.append_assoc]
    rfl
  have moved := located.moveUp path (List.cons_ne_nil _ _) plain
  rw [List.length_append] at moved
  exact moved.imp fun _ left => ⟨left.escapes holder, left.rises (List.cons_ne_nil _ _) noIf⟩

theorem leaveBetween (located : builder.At tokens draft) (isOpen : draft.IsOpen) :
    Reaches tokens builder.leaveBetween draft.Recedes := by
  unfold Builder.leaveBetween
  split
  next inside =>
    obtain ⟨others, path, nested⟩ := located.nested_of_isIn (by simp) inside
    obtain ⟨parent, outer, rfl, holder, _⟩ := nested.tail.parent_holder rfl
    have path : draft.path = [NodeKind.upperBound] ++ .between :: parent :: outer := path
    have left := Draft.left_ups located.sound path (by simp) (by decide)
    have enough : 2 ≤ draft.outer.length :=
      Draft.length_le_of_path (path.trans (rfl : _ = [_, _] ++ _)) (List.cons_ne_nil _ _)
    have isBetween : (draft.ups 1).kind = .between := Draft.kind_eq left.path
    have complete : (draft.ups 1).Leavable := by
      refine ⟨by rw [isBetween]; rfl, by rw [isBetween]; decide, fun ending isEnding => ?_⟩
      rw [isBetween] at isEnding
      exact Option.mem_some_iff.mp isEnding ▸ left.last .upperBound rfl
    have leave : (draft.ups 1).Leave (draft.ups 2) := by
      refine ⟨complete, by rw [isBetween]; decide, ?_, Draft.ups_succ draft 1⟩
      refine List.ne_nil_of_length_pos ?_
      rw [Draft.length_outer_ups (Nat.le_of_succ_le enough)]
      omega
    have above : draft.Above (draft.ups 2) := left.above.tail leave
    obtain ⟨moved, isOk, stands⟩ := located.stands.moveUp enough
    refine ⟨moved, _, isOk, located.passes stands above.passes, ⟨above, ?_⟩,
      (left.rises (by simp) (by decide)).trans (Draft.Decided.rises ?_ leave.enclosed)⟩
    · have path : (draft.ups 2).path = parent :: outer := by
        rw [Draft.path_ups enough, path]
        rfl
      rw [Draft.IsOpen, Draft.kind_eq path]
      exact holder
    · exact fun isIf => absurd (isBetween ▸ isIf) (by decide)
  next => exact located.stays isOpen

theorem leaveJoinCondition (located : builder.At tokens draft) (isOpen : draft.IsOpen) :
    Reaches tokens builder.leaveJoinCondition draft.Recedes := by
  unfold Builder.leaveJoinCondition
  split
  next inside =>
    obtain ⟨others, path⟩ := (located.isIn_iff (by simp)).mp inside
    have path : draft.path = [NodeKind.containerContentBody] ++ .joinOn :: others := path
    exact located.leaveFree path rfl (by decide) (by decide)
  next => exact located.stays isOpen

theorem leaveSelectionTarget (located : builder.At tokens draft) (isOpen : draft.IsOpen) :
    Reaches tokens builder.leaveSelectionTarget draft.Recedes := by
  have target : ∀ kind, kind.parents = NodeKind.holders → kind.isPlain = true →
      .ifStatement ∉ [kind] → ∀ builder draft, Builder.At builder tokens draft → draft.IsOpen →
        Reaches tokens (if builder.isIn [kind] then builder.moveUp 1 else .ok builder)
          draft.Recedes := by
    intro kind anywhere plain noIf builder draft located isOpen
    split
    next inside =>
      obtain ⟨others, path⟩ := (located.isIn_iff (by simp)).mp inside
      have path : draft.path = [] ++ kind :: others := path
      exact located.leaveFree path anywhere (by simpa using plain) noIf
    next => exact located.stays isOpen
  refine (target .selectionTarget rfl rfl (by decide) builder draft located isOpen).bind_ite ?_
  intro builder inside located recedes
  exact (target .joinTarget rfl rfl (by decide) builder inside located recedes.isOpen).imp
    fun _ further => recedes.trans further

theorem leaveMergeAction (located : builder.At tokens draft) (isOpen : draft.IsOpen) :
    Reaches tokens builder.leaveMergeAction fun left =>
      draft.Above left ∧ (left.IsOpen ∨ left.kind = .mergeWhen) := by
  unfold Builder.leaveMergeAction
  split
  next inside =>
    simp only [Bool.and_eq_true] at inside
    obtain ⟨others, path, nested⟩ := located.nested_of_isIn (by simp) inside.1
    obtain ⟨_, rfl, inThen⟩ := nested.tail.tail.parent_eq rfl
    obtain ⟨others, rfl, _⟩ := inThen.parent_eq rfl
    have path : draft.path =
        [NodeKind.clause, .statement, .mergeAction, .mergeThen] ++ .mergeWhen :: others := path
    exact (located.moveUp path (by simp) (by decide)).imp fun _ left =>
      ⟨left.above, .inr (Draft.kind_eq left.path)⟩
  next => exact located.reaches ⟨.refl, .inl isOpen⟩

theorem leaveCursorQuery (located : builder.At tokens draft) (isOpen : draft.IsOpen) :
    Reaches tokens builder.leaveCursorQuery draft.Recedes := by
  unfold Builder.leaveCursorQuery
  split
  next inside =>
    simp only [Bool.and_eq_true] at inside
    obtain ⟨others, path, _⟩ :=
      located.path_of_isIn [.clause, .statement, .containerContentBody] .cursorForBlock inside.1 rfl
    exact located.leaveFree path rfl (by decide) (by decide)
  next => exact located.stays isOpen

theorem isIn_kind (located : builder.At tokens draft) (kind : NodeKind) :
    builder.isIn [kind] = true ↔ draft.kind = kind := by
  rw [located.isIn_iff (by simp)]
  exact ⟨fun ⟨_, path⟩ => Draft.kind_eq path, fun same => ⟨_, by rw [← same]; rfl⟩⟩

theorem leavePartialStatement (located : builder.At tokens draft)
    (isOpen : draft.IsOpen ∨ draft.kind = .mergeWhen) :
    Reaches tokens builder.leavePartialStatement draft.Recedes := by
  unfold Builder.leavePartialStatement
  split
  next inside =>
    simp only [Bool.or_eq_true, located.isIn_kind] at inside
    have path : draft.path = [] ++ draft.kind :: draft.outer.map Frame.kind := rfl
    rcases inside with (kind | kind) | kind <;>
      exact located.leaveFree path (by rw [kind]; rfl) (by rw [kind]; decide) (by rw [kind]; decide)
  split
  next inside =>
    obtain ⟨others, path, _⟩ :=
      located.path_of_isIn [.containerContentBody] .cursorForOptions inside rfl
    exact located.leaveFree path rfl (by decide) (by decide)
  split
  next inside =>
    obtain ⟨others, path, _⟩ :=
      located.path_of_isIn [.containerContentBody] .permissionsRecipient inside rfl
    exact located.leaveFree path rfl (by decide) (by decide)
  split
  next inside =>
    simp only [Bool.or_eq_true] at inside
    have leave : ∀ kind : NodeKind, kind.parents = NodeKind.holders → kind.isPlain = true →
        .ifStatement ∉ [.containerContentBody, .ddlWithClause, kind] →
        builder.isIn [.containerContentBody, .ddlWithClause, kind] = true →
        Reaches tokens (builder.moveUp 3) draft.Recedes := by
      intro kind anywhere plain noIf inside
      obtain ⟨others, path⟩ := (located.isIn_iff (by simp)).mp inside
      have path : draft.path = [NodeKind.containerContentBody, .ddlWithClause] ++ kind :: others :=
        path
      exact located.leaveFree path anywhere (by simpa [plain] using by decide) noIf
    rcases inside with ((inside | inside) | inside) | inside <;>
      exact leave _ rfl rfl (by decide) inside
  split
  next inside =>
    obtain ⟨others, path, _⟩ := located.path_of_isIn [] .mergeWhen inside rfl
    exact located.leaveFree path rfl (by decide) (by decide)
  split
  next notBranch inside =>
    simp only [Bool.or_eq_true] at inside
    rcases inside with inside | inside
    · obtain ⟨others, path, _⟩ :=
        located.path_of_isIn [.containerContentBody] .cteWithClause inside rfl
      exact (located.moveUp path (by simp) (by decide)).imp fun _ left =>
        ⟨left.escapes (by decide), left.rises (by simp) (by decide)⟩
    · obtain ⟨others, path⟩ := (located.isIn_iff (by simp)).mp inside
      have path : draft.path = [NodeKind.containerContentBody] ++ .ddlDeclareBlock :: others := path
      exact located.leaveFree path rfl (by decide) (by decide)
  next notBranch _ =>
    rw [located.isIn_kind] at notBranch
    exact located.stays (isOpen.resolve_right notBranch)

/-- The containers between the body of an `IF`, `ELSE` or `WHILE` and what holds the whole
construct. -/
theorem exists_construct (nested : Nested (.containerSingleStatementBody :: others)) :
    ∃ construct parent outer, others = construct ++ parent :: outer ∧ parent ∈ NodeKind.holders ∧
      (∀ kind ∈ construct, kind.isPlain = true) ∧
      (if others.head? = some .elseClause then 3 else 2) = construct.length + 1 := by
  obtain ⟨owner, more, rfl, isOwner, inOwner⟩ := nested.exists_parent (by decide)
  by_cases isElse : owner = .elseClause
  · subst isElse
    obtain ⟨_, rfl, inIf⟩ := inOwner.parent_eq rfl
    obtain ⟨parent, outer, rfl, holder, _⟩ := inIf.parent_holder rfl
    exact ⟨[.elseClause, .ifStatement], parent, outer, rfl, holder, by decide, rfl⟩
  · have anywhere : owner.parents = NodeKind.holders ∧ owner.isPlain = true :=
      (by decide : ∀ kind ∈ NodeKind.parents .containerSingleStatementBody, kind ≠ .elseClause →
        kind.parents = NodeKind.holders ∧ kind.isPlain = true) owner isOwner isElse
    obtain ⟨parent, outer, rfl, holder, _⟩ := inOwner.parent_holder anywhere.1
    exact ⟨[owner], parent, outer, rfl, holder, by simpa using anywhere.2, by simp [isElse]⟩

/-- Finished bodies of `IF`, `ELSE` and `WHILE` are left for what holds the whole construct, all of
them if the bound is large enough. -/
theorem leaveSingleBodies (located : builder.At tokens draft)
    (isOpen : draft.IsOpen) (bound : Nat) :
    Reaches tokens (builder.leaveSingleBodies bound) fun other => draft.Escapes other ∧
      (draft.outer.length ≤ bound →
        ¬ [.clause, .statement, .containerSingleStatementBody] <+: other.path) := by
  induction bound generalizing builder draft with
  | zero =>
    refine located.reaches ⟨⟨.refl, isOpen⟩, fun few inside => ?_⟩
    have length := inside.length_le
    rw [Draft.length_path] at length
    simp only [List.length_cons, List.length_nil] at length
    omega
  | succ bound ih =>
    unfold Builder.leaveSingleBodies
    split
    next inside =>
      obtain ⟨others, path, nested⟩ := located.nested_of_isIn (by simp) inside
      obtain ⟨construct, parent, outer, rfl, holder, plain, levels⟩ :=
        exists_construct nested.tail.tail
      have levels : (if (construct ++ parent :: outer).head? = some .elseClause then 3 else 2) =
          construct.length + 1 := levels
      have length := draft.length_path
      rw [path] at length
      simp only [List.cons_append, List.nil_append, List.length_cons, List.length_append] at length
      have shown := located.stands.shown
      have bodyOuter : (draft.ups 2).outer.length = draft.outer.length - 2 :=
        Draft.length_outer_ups (by omega)
      have ownerPath : (draft.ups 3).path = construct ++ parent :: outer := by
        rw [Draft.path_ups (by omega), path]
        rfl
      have owner : builder.tree.ancestorIs (draft.ups 2).id 1 .elseClause =
          decide ((construct ++ parent :: outer).head? = some .elseClause) := by
        rw [Tree.ancestorIs, (shown.ups 2).ancestor_ups (by omega), ← Draft.ups_add, ← ownerPath]
        simp only [(shown.ups 3).kind_id]
        simp [Draft.path, beq_eq_decide]
      have path : draft.path =
          ([NodeKind.clause, .statement, .containerSingleStatementBody] ++ construct) ++
          parent :: outer := by rw [path, List.append_assoc]
      have left := Draft.left_ups located.sound path (List.cons_ne_nil _ _)
        (List.forall_mem_append.mpr ⟨by decide, plain⟩)
      have outside : (draft.ups 2).ups (construct.length + 1) =
          draft.ups ([NodeKind.clause, .statement, .containerSingleStatementBody] ++
            construct).length := by
        rw [← Draft.ups_add, List.length_append]
        congr 1
        simp only [List.length_cons, List.length_nil]
        omega
      simp only [located.stands.cursor, shown.ancestor_ups (by omega : 2 ≤ draft.outer.length),
        owner, decide_eq_true_eq, levels, (shown.ups 2).ancestor_ups
          (by omega : construct.length + 1 ≤ (draft.ups 2).outer.length), outside]
      refine (located.moveTo left.above).bind ?_
      rintro builder _ located rfl
      have escapes := left.escapes holder
      have enough :
          ([NodeKind.clause, .statement, .containerSingleStatementBody] ++ construct).length ≤
          draft.outer.length := by
        simp only [List.length_append, List.length_cons, List.length_nil]
        omega
      refine (ih located escapes.isOpen).imp fun _ further =>
        ⟨escapes.trans further.1, fun few => ?_⟩
      refine further.2 ?_
      rw [Draft.length_outer_ups enough]
      simp only [List.length_append, List.length_cons, List.length_nil]
      omega
    next outside =>
      refine located.reaches ⟨⟨.refl, isOpen⟩, fun _ inside => outside ?_⟩
      obtain ⟨others, path⟩ := inside
      exact (located.isIn_iff (by simp)).mpr ⟨others, path.symm⟩

/-- Everything that ends with a statement is left: if there is content in the end, the cursor is not
in the body of an `IF`, `ELSE` or `WHILE` any more. -/
theorem leavesSingleBodies (located : builder.At tokens draft) (isOpen : draft.IsOpen) :
    ∃ left other, builder.leaveStatementContainers = .ok left ∧ left.At tokens other ∧
      draft.Escapes other ∧ (left.hasMeaningfulContent = true →
        ¬ [.clause, .statement, .containerSingleStatementBody] <+: other.path) := by
  obtain ⟨builder, _, isFirst, located, first⟩ := located.leaveBetween isOpen
  obtain ⟨builder, _, isSecond, located, second⟩ := located.leaveSelectionTarget first.isOpen
  obtain ⟨builder, _, isThird, located, third⟩ := located.leaveJoinCondition second.isOpen
  have before := (first.trans second).trans third
  simp only [Builder.leaveStatementContainers, isFirst, isSecond, isThird, ok_bind]
  split
  next =>
    obtain ⟨builder, _, isFourth, located, fourth⟩ := located.leaveCursorQuery third.isOpen
    obtain ⟨builder, _, isFifth, located, fifth⟩ := located.leaveMergeAction fourth.isOpen
    obtain ⟨builder, inner, isSixth, located, sixth⟩ := located.leavePartialStatement fifth.2
    obtain ⟨left, other, isLast, outside, last, free⟩ :=
      located.leaveSingleBodies sixth.isOpen builder.tree.size
    have after := (before.trans fourth).above.trans (fifth.1.trans sixth.above)
    have few := Nat.le_of_lt located.stands.shown.length_outer_lt
    rw [isFourth, ok_bind, isFifth, ok_bind, isSixth, ok_bind]
    exact ⟨left, other, isLast, outside, ⟨after.trans last.above, last.isOpen⟩, fun _ => free few⟩
  next empty =>
    exact ⟨builder, _, rfl, located, before.toEscapes, fun content => absurd content empty⟩

theorem leaveStatementContainers (located : builder.At tokens draft) (isOpen : draft.IsOpen) :
    Reaches tokens builder.leaveStatementContainers draft.Escapes := by
  obtain ⟨left, other, isOk, located, escapes, _⟩ := located.leavesSingleBodies isOpen
  exact ⟨left, other, isOk, located, escapes⟩

end Builder.At

end SqlLayout
