import SqlLayout.Proofs.Builder.Comments
import SqlLayout.Proofs.Draft.Placement

/-!
# New statements and clauses

Starting a statement or a clause always succeeds. The comments on lines of their own at the end of
what came before leave their containers and open what comes next.
-/

namespace SqlLayout

/-- Where the next statement may begin, seen from the container in hand; `anywhere` tells whether it
may begin behind an empty statement. -/
inductive Builder.Next (builder : Builder) (draft : Draft) (anywhere : Bool) :
    Option NodeId → Prop where
  /-- Nowhere. -/
  | nowhere (stands : builder.Stands draft) : Next builder draft anywhere none
  /-- In a new body behind a condition. -/
  | body (id : NodeId) (condition : draft.kind = .booleanExpression)
      (stands : builder.Stands (draft.follow (.leaf id .containerSingleStatementBody ""))) :
      Next builder draft anywhere (some id)
  /-- Around the current statement. -/
  | outside {others : List NodeKind} (path : draft.path = .clause :: .statement :: others)
      (enough : 2 ≤ draft.outer.length) (stands : builder.Stands draft)
      (several : anywhere = false → others.head? ≠ some .containerSingleStatementBody) :
      Next builder draft anywhere (some (draft.ups 2).id)

theorem Draft.IsOpen.enclosed {draft : Draft} (isOpen : draft.IsOpen) (sound : draft.Sound) :
    draft.outer ≠ [] := by
  refine sound.enclosed fun isRoot => ?_
  rw [Draft.IsOpen, isRoot] at isOpen
  exact absurd isOpen (by decide)

theorem Draft.follow_id (draft : Draft) (outline : Outline) :
    (draft.follow outline).id = draft.id := by
  rw [follow]
  split <;> rfl

theorem Draft.follow_kind (draft : Draft) (outline : Outline) :
    (draft.follow outline).kind = draft.kind := by
  rw [follow]
  split <;> rfl

theorem Draft.shed_shed (draft : Draft) :
    draft.shed.shed = draft.shed ∧ draft.shed.shedding = [] := by
  have none : (Outline.shedList draft.shed.children).2 = [] := Outline.shedList_kept draft.children
  refine ⟨?_, none⟩
  rw [Draft.shed, Outline.shedList_eq_self none]

/-- The comments that leave a container, and then those that leave one inside it, go before a new
container; after the first time none are left. -/
theorem Builder.Stands.takeCommentsTwice {builder : Builder} {inner draft : Draft}
    (above : inner.Above draft) (sound : inner.Sound) (levels : Nat)
    (enough : levels < draft.outer.length) (opened : List (NodeId × NodeKind)) {id : NodeId}
    {kind : NodeKind}
    (stands : builder.Stands (((draft.ups (levels + 1)).enters opened).enter id kind)) :
    ∃ taken, (if draft.id = inner.id then builder.takeComments inner.id
        else builder.takeComments draft.id >>= fun builder =>
          builder.takeComments inner.id) = .ok taken ∧
      taken.Stands ((((draft.shed.ups (levels + 1)).enters opened).addAll draft.shedding).enter id
        kind) := by
  have ready :
      builder.Stands ((((draft.ups (levels + 1)).enters opened).addAll []).enter id kind) := by
    rwa [Draft.addAll_nil]
  obtain ⟨taken, first, stands⟩ := ready.takeComments enough (above.sound sound).regular
  rw [List.nil_append] at stands
  split
  next same => exact ⟨taken, same ▸ first, stands⟩
  next =>
    obtain ⟨below, shedding⟩ := above.shed sound
    obtain ⟨more, within, up⟩ := Draft.Above.exists_ups below
    have length := Draft.length_outer_ups within
    rw [← up] at length
    have within : more + levels < inner.shed.outer.length := by
      change draft.outer.length = _ at length
      omega
    have whole : draft.shed.ups (levels + 1) = inner.shed.ups (more + levels + 1) := by
      rw [up, ← Draft.ups_add, Nat.add_assoc]
    rw [whole] at stands ⊢
    obtain ⟨final, second, stands⟩ := stands.takeComments within sound.shed.regular
    refine ⟨final, ?_, by simpa [inner.shed_shed] using stands⟩
    rw [first]
    exact second

/-- The comments that leave a container open a new clause somewhere around it. -/
theorem Built.clause {tokens : List Token} {draft other : Draft} (built : Built tokens draft)
    (enclosed : draft.outer ≠ []) (passes : draft.shed.Passes other)
    (opens : other.kind ∈ NodeKind.parents .clause) (id : NodeId) :
    Built tokens ((other.addAll draft.shedding).enter id .clause) := by
  have unstaged : other.kind.stages = [] :=
    (by decide : ∀ kind ∈ NodeKind.parents .clause, kind.stages = []) _ opens
  have unstaged : (other.addAll draft.shedding).kind.stages = [] := unstaged
  exact (built.migrate enclosed passes unstaged).pass
    (.enter id rfl opens (Draft.accepts_of_unstaged unstaged _) nofun (absurd · (by decide)))

/-- A new clause is open, in new containers, behind everything in a container around the draft. -/
structure Builder.Begins (builder : Builder) (draft : Draft) (levels : Nat)
    (opened : List (NodeId × NodeKind)) (clause : NodeId) : Prop where
  enough : levels < draft.outer.length
  stands : builder.Stands (((draft.ups (levels + 1)).enters opened).enter clause .clause)
  passes : draft.shed.Passes ((draft.shed.ups (levels + 1)).enters opened)
  opens : ((draft.shed.ups (levels + 1)).enters opened).kind ∈ NodeKind.parents .clause

theorem Builder.Begins.takeComments {builder : Builder} {tokens : List Token} {inner draft : Draft}
    {levels : Nat} {opened : List (NodeId × NodeKind)} {clause : NodeId}
    (begins : builder.Begins draft levels opened clause) (above : inner.Above draft)
    (sound : inner.Sound) (built : Built tokens draft) :
    ∃ taken, (if draft.id = inner.id then builder.takeComments inner.id
        else builder.takeComments draft.id >>= fun builder =>
          builder.takeComments inner.id) = .ok taken ∧
      taken.At tokens
        ((((draft.shed.ups (levels + 1)).enters opened).addAll draft.shedding).enter
          clause .clause) := by
  have enclosed : draft.outer ≠ [] := List.ne_nil_of_length_pos (Nat.zero_lt_of_lt begins.enough)
  obtain ⟨taken, isOk, stands⟩ :=
    Builder.Stands.takeCommentsTwice above sound levels begins.enough opened begins.stands
  exact ⟨taken, isOk, stands, built.clause enclosed begins.passes begins.opens clause⟩

namespace Builder.At

variable {builder : Builder} {tokens : List Token} {draft : Draft}

theorem nextStatementContainer (located : builder.At tokens draft) (isOpen : draft.IsOpen)
    (leaveEmpty : Bool) :
    ∃ left container? other, builder.nextStatementContainer leaveEmpty = .ok (left, container?) ∧
      draft.Escapes other ∧ Built tokens other ∧ left.Next other leaveEmpty container? := by
  obtain ⟨left, other, isOk, located, escapes, single⟩ := located.leavesSingleBodies isOpen
  simp only [Builder.nextStatementContainer, isOk, bind, Except.bind]
  split
  next inside =>
    have condition : other.kind = .booleanExpression := by
      simp only [Bool.or_eq_true, located.isIn_iff (by simp : [NodeKind.booleanExpression, _] ≠ [])]
        at inside
      rcases inside with ⟨_, path⟩ | ⟨_, path⟩ <;> exact Draft.kind_eq path
    have enclosed := escapes.isOpen.enclosed located.sound
    have parent : left.tree.parent left.cursor = some other.up.id := by
      rw [located.stands.cursor, located.stands.shown.parent_up enclosed]
    obtain ⟨grown, body, saved, sees⟩ :=
      located.stands.sees.up.saveIn .containerSingleStatementBody ""
    rw [parent]
    simp only [saved]
    refine ⟨grown, some body, other, rfl, escapes, located.built, .body body condition ⟨?_, ?_⟩⟩
    · exact sees.shown.of_outline (Draft.outline_follow enclosed _)
    · rw [sees.cursor, Draft.follow_id]
  next =>
    split
    next inside =>
      simp only [Bool.and_eq_true] at inside
      obtain ⟨others, path, nested⟩ := located.nested_of_isIn (by simp) inside.1
      obtain ⟨target, outer, rfl, _⟩ := nested.tail.exists_parent (by decide)
      have enough : 2 ≤ other.outer.length :=
        Draft.length_le_of_path (path.trans (rfl : _ = [_, _] ++ _)) (List.cons_ne_nil _ _)
      rw [located.stands.cursor, located.stands.shown.ancestor_ups enough]
      refine ⟨left, _, other, rfl, escapes, located.built, .outside path enough located.stands ?_⟩
      rintro rfl isBody
      obtain rfl : target = .containerSingleStatementBody := Option.some.inj isBody
      exact single (by simpa using inside.2) ⟨outer, by rw [path]; rfl⟩
    next => exact ⟨left, none, other, rfl, escapes, located.built, .nowhere located.stands⟩

/-- A statement is begun in a container around the current one or in a new body behind a condition,
if there is one. -/
theorem beginsStatement (located : builder.At tokens draft) (isOpen : draft.IsOpen) :
    ∃ left container? other, builder.nextStatementContainer false = .ok (left, container?) ∧
      draft.Escapes other ∧ Built tokens other ∧
      (container? = none ∧ left.Stands other ∨ left.cursor = other.id ∧
        ∃ target levels opened clause,
        container? = some target ∧
        (left.startStatementIn target).Begins other levels opened clause) := by
  obtain ⟨left, container?, other, isOk, escapes, built, next⟩ :=
    located.nextStatementContainer isOpen false
  refine ⟨left, container?, other, isOk, escapes, built, ?_⟩
  cases next with
  | nowhere stands => exact .inl ⟨rfl, stands⟩
  | body body condition stands =>
    have enclosed : other.outer ≠ [] := escapes.isOpen.enclosed built.sound
    have sees : left.Sees (other.up.enter body .containerSingleStatementBody) left.cursor :=
      ⟨stands.shown.of_outline (by rw [Draft.outline_enter, Draft.outline_follow enclosed]), rfl⟩
    obtain ⟨statement, clause, begun⟩ := sees.startStatementIn
    refine .inr ⟨stands.cursor.trans (Draft.follow_id ..), body, 0,
      [(body, .containerSingleStatementBody), (statement, .statement)], clause, rfl,
      List.length_pos_iff.mpr enclosed, begun, ?_, (by decide : NodeKind.statement ∈ _)⟩
    have inOwner : other.shed.up.kind ∈ NodeKind.parents .containerSingleStatementBody ∧
        other.shed.up.kind.stages = [] :=
      (by decide : ∀ kind ∈ NodeKind.parents .booleanExpression,
        kind ∈ NodeKind.parents .containerSingleStatementBody ∧ kind.stages = []) _
        (condition ▸ built.sound.shed.kind_up enclosed)
    have left : other.shed.Passes other.shed.up :=
      .single (.leave (Draft.leavable_of_isFree (by rw [Draft.shed, condition]; rfl)) enclosed)
    refine (left.tail (.enter body rfl inOwner.1 (Draft.accepts_of_unstaged inOwner.2 _) (by simp)
        fun _ => ?_)).tail
      (.enter statement rfl (by decide : NodeKind.containerSingleStatementBody ∈ _) ?_ (fun _ => ?_)
        (absurd · (by decide)))
    · exact built.unbranched.shed.up enclosed (by rw [Draft.shed, condition]; decide)
    · exact Draft.accepts_of_unstaged rfl _
    · exact ⟨fun _ => by simp [Draft.enter], by simp [Draft.enter]⟩
  | @outside others path enough stands several =>
    have sees : left.Sees (other.ups 2) left.cursor := ⟨stands.shown.ups 2, rfl⟩
    obtain ⟨statement, clause, begun⟩ := sees.startStatementIn
    refine .inr ⟨stands.cursor, _, 1, [(statement, .statement)], clause, rfl, enough, begun, ?_,
      (by decide : NodeKind.statement ∈ _)⟩
    have enclosed : other.shed.outer ≠ [] := List.ne_nil_of_length_pos (Nat.lt_of_succ_lt enough)
    have path : other.shed.path = _ := path
    have isStatement : other.shed.up.kind = .statement := by
      have above := Draft.path_up enclosed
      rw [path] at above
      exact Draft.kind_eq above
    have around : other.shed.up.outer ≠ [] := by
      refine List.ne_nil_of_length_pos ?_
      rw [Draft.outer_up enclosed, List.length_tail]
      exact Nat.sub_pos_of_lt enough
    have target : (other.shed.ups 2).kind ∈ NodeKind.parents .statement :=
      isStatement ▸ built.sound.shed.up.kind_up around
    have unstaged : (other.shed.ups 2).kind.stages = [] :=
      (by decide : ∀ kind ∈ NodeKind.parents .statement, kind.stages = []) _ target
    have enough : 2 ≤ other.shed.outer.length := enough
    have left : other.shed.Passes (other.shed.ups 2) :=
      (Draft.above_ups enough (by rw [path]; simp; decide)).passes
    refine left.tail
      (.enter statement rfl target (Draft.accepts_of_unstaged unstaged _) (fun _ => ?_)
      (absurd · (by decide)))
    refine ⟨fun isBody => absurd ?_ (several rfl), fun isContent => ?_⟩
    · have above : (other.shed.ups 2).path = others := by
        rw [Draft.path_ups enough, path]
        rfl
      rw [← above, Draft.path, isBody]
      rfl
    · exact built.placed.shed.up.owner isStatement isContent around

/-- A statement starts in a container around the current one, or in a new body behind a
condition. -/
theorem considerStatement (located : builder.At tokens draft) (isOpen : draft.IsOpen) :
    Reaches tokens builder.considerStatement Draft.IsOpen := by
  refine (located.leaveBetween isOpen).bind fun builder _ located first => ?_
  refine (located.leaveSelectionTarget first.isOpen).bind fun builder _ located second => ?_
  refine (located.leaveJoinCondition second.isOpen).bind fun builder inner located third => ?_
  obtain ⟨left, _, other, isOk, escapes, built,
      ⟨rfl, stands⟩ | ⟨cursor, target, levels, opened, clause, rfl,
    begins⟩⟩ := located.beginsStatement third.isOpen <;> rw [isOk, ok_bind] <;> dsimp only [ok_bind]
  · exact ⟨left, other, rfl, ⟨stands, built⟩, escapes.isOpen⟩
  · obtain ⟨taken, both, final⟩ := begins.takeComments escapes.above located.sound built
    rw [← located.stands.cursor, ← cursor] at both
    exact ⟨taken, _, both, final, (by decide : NodeKind.clause ∈ NodeKind.holders)⟩

theorem beginsClause (located : builder.At tokens draft) (isOpen : draft.IsOpen)
    (isClause : draft.kind = .clause) :
    ∃ grown moved clause, builder.saveIn draft.up.id .clause "" = (grown, clause) ∧
      grown.moveTo clause = .ok moved ∧ moved.Begins draft 0 [] clause := by
  have enclosed := isOpen.enclosed located.sound
  obtain ⟨grown, clause, saved, sees⟩ := located.stands.sees.up.openIn .clause
  obtain ⟨moved, movedTo, stands⟩ := sees.moveTo
  refine ⟨grown, moved, clause, saved, movedTo, List.length_pos_iff.mpr enclosed, stands, ?_, ?_⟩
  · exact .single (.leave (Draft.leavable_of_isFree (by rw [Draft.shed, isClause]; rfl)) enclosed)
  · exact isClause ▸ located.sound.shed.kind_up enclosed

/-- A clause starts behind one with content, or in a group. -/
theorem considerClause (located : builder.At tokens draft) (isOpen : draft.IsOpen) :
    Reaches tokens builder.considerClause Draft.IsOpen := by
  refine (located.leaveSelectionTarget isOpen).bind fun builder _ located first => ?_
  refine (located.leaveBetween first.isOpen).bind fun builder _ located second => ?_
  refine (located.leavePartialStatement (.inl second.isOpen)).bind fun builder _ located third => ?_
  refine (located.leaveJoinCondition third.isOpen).bind fun builder draft located fourth => ?_
  have isOpen := fourth.isOpen
  have enterClause : draft.kind ∈ NodeKind.parents .clause →
      Reaches tokens (builder.enter .clause) Draft.IsOpen := by
    intro opens
    refine (located.enter rfl opens (Draft.accepts_of_holder isOpen _)
      nofun (absurd · (by decide))).imp ?_
    rintro _ ⟨id, rfl⟩
    exact (by decide : NodeKind.clause ∈ NodeKind.holders)
  rw [located.stands.cursorKind_eq]
  split
  next isClause =>
    split
    next =>
      have parent : builder.tree.parent builder.cursor = some draft.up.id := by
        rw [located.stands.cursor, located.stands.shown.parent_up (isOpen.enclosed located.sound)]
      obtain ⟨grown, moved, clause, saved, movedTo, begins⟩ := located.beginsClause isOpen isClause
      obtain ⟨taken, isOk, final⟩ := begins.takeComments .refl located.sound located.built
      rw [if_pos rfl, ← located.stands.cursor] at isOk
      simp only [parent, saved, movedTo]
      exact ⟨taken, _, isOk, final, (by decide : NodeKind.clause ∈ NodeKind.holders)⟩
    next => exact located.reaches isOpen
  next group => exact enterClause (group ▸ by decide)
  next group => exact enterClause (group ▸ by decide)
  next group => exact enterClause (group ▸ by decide)
  next group => exact enterClause (group ▸ by decide)
  next => exact located.reaches isOpen

theorem findBatchEnd (located : builder.At tokens draft) (isOpen : draft.IsOpen) :
    ∃ left valid other, builder.findBatchEnd = .ok (left, valid) ∧ left.At tokens other ∧
      other.IsOpen ∧ (valid = true → other.Rests) := by
  obtain ⟨left, container?, other, isOk, escapes, built, next⟩ :=
    located.nextStatementContainer isOpen true
  rw [Builder.findBatchEnd, isOk, ok_bind]
  cases next with
  | nowhere stands => exact ⟨left, _, other, rfl, ⟨stands, built⟩, escapes.isOpen, nofun⟩
  | body body condition stands =>
    refine ⟨left, _, _, rfl, ⟨stands, built.follow body condition⟩, ?_, fun valid => ?_⟩
    · rw [Draft.IsOpen, Draft.follow_kind]
      exact escapes.isOpen
    · have enclosed : other.outer ≠ [] := escapes.isOpen.enclosed built.sound
      have shown : left.tree.Shows (other.up.enter body .containerSingleStatementBody) :=
        stands.shown.of_outline (by rw [Draft.outline_enter, Draft.outline_follow enclosed])
      have isBody : left.tree.kind body = .containerSingleStatementBody := shown.kind_id
      have path : left.tree.pathIs body [.containerContentBody, .ddlAsBlock] = false :=
        shown.pathIs_eq (by simp)
      rw [isBody, path] at valid
      exact absurd valid (by decide)
  | @outside others path enough stands _ =>
    refine ⟨left, _, other, rfl, ⟨stands, built⟩, escapes.isOpen, fun valid => ?_⟩
    have shown := stands.shown.ups 2
    have above : (other.ups 2).path = others := by
      rw [Draft.path_ups enough, path]
      rfl
    simp only [Bool.or_eq_true, beq_iff_eq, shown.kind_id,
      shown.pathIs_eq (List.cons_ne_nil _ _), above, List.isPrefixOf_iff_prefix] at valid
    rcases valid with isRoot | ⟨more, inBody⟩
    · have nested := (built.sound.ups 2).nested
      rw [Draft.path, isRoot] at nested above
      exact .inl (by rw [path, ← above, nested.eq_nil_of_root])
    · exact .inr ⟨more, by rw [path, ← inBody]; rfl⟩

end Builder.At

end SqlLayout
