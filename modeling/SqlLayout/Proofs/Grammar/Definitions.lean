import SqlLayout.Grammar.Definitions
import SqlLayout.Proofs.Grammar.Rule

/-!
# Declarations, definitions, cursors and permissions complete
-/

namespace SqlLayout.Reading

variable {reading : Reading} {builder : Builder} {tokens : List Token} {draft : Draft}

theorem OnWord.definition (onWord : reading.OnWord) (located : builder.At tokens draft)
    (isOpen : draft.IsOpen) {kind : NodeKind} (anywhere : kind.parents = NodeKind.holders)
    (plain : kind.isParens = false) (holder : kind ∈ NodeKind.holders) :
    Reaches (tokens ++ [reading.token]) (reading.definition builder kind) Draft.AtRest := by
  refine (located.considerStatement isOpen).bind fun builder draft located isOpen => ?_
  have inside : kind ≠ .statement := by
    rintro rfl
    exact absurd holder (by decide)
  refine (located.enter plain (anywhere ▸ isOpen) (isOpen.accepts kind) inside
    fun inIf => absurd (anywhere ▸ inIf) (by decide)).bind ?_
  rintro builder _ located ⟨id, rfl⟩
  exact onWord.saveWord located holder

theorem leaveProcedureOptions_reaches (located : builder.At tokens draft) (isOpen : draft.IsOpen) :
    Reaches tokens (leaveProcedureOptions builder) Draft.IsOpen := by
  rw [leaveProcedureOptions]
  split
  next inside =>
    obtain ⟨others, path⟩ := (located.isIn_iff (by simp)).mp inside
    have path : draft.path =
        [NodeKind.containerContentBody, .ddlWithClause] ++ .ddlProceduralBlock :: others := path
    exact (located.moveUpTo path (by decide)).imp fun _ left => (left.escapes (by decide)).isOpen
  next => exact located.reaches isOpen

theorem OnWord.returns (onWord : reading.OnWord) (located : builder.At tokens draft)
    (isOpen : draft.IsOpen) :
    Reaches (tokens ++ [reading.token]) (.ok (reading.returns builder)) Draft.AtRest := by
  obtain ⟨opened, node, savedNode, sees⟩ := located.stands.sees.openIn .ddlReturns
  obtain ⟨grown, word, saved, sees⟩ := sees.saveIn .otherKeyword reading.value
  have stands : grown.Stands (draft.add (.bracket node .ddlReturns
      (.leaf word .otherKeyword reading.value))) := ⟨sees.shown.of_outline rfl, sees.cursor⟩
  obtain ⟨grownAt, atRest⟩ :=
    located.add isOpen stands ((onWord.isKeyword word).bracket node rfl) rfl
  rw [Draft.enter_id] at saved
  simp only [Reading.returns, Builder.save, located.stands.cursor, savedNode,
    Builder.saveLeafIn, saved]
  exact grownAt.reaches atRest

theorem two_le_triggerLength {phrase : Phrase} {words : Nat}
    (found : phrase.triggerLength? = some words) : 2 ≤ words := by
  have more : ∀ matched, matched.1 ≤ (Phrase.skipFurtherAction matched).1 := by
    intro matched
    rw [Phrase.skipFurtherAction]
    split <;> simp
  simp only [Phrase.triggerLength?, Option.bind_eq_some_iff, Option.map_eq_some_iff] at found
  obtain ⟨⟨timed, rest⟩, timing, after, _, rfl⟩ := found
  have timing : 1 ≤ timed := by
    split at timing
    · simp only [Option.some.injEq, Prod.mk.injEq] at timing
      omega
    · obtain ⟨_, _, both⟩ := Option.map_eq_some_iff.mp timing
      simp only [Prod.mk.injEq] at both
      omega
  have first := more (timed + 1, after)
  have second := more (Phrase.skipFurtherAction (timed + 1, after))
  exact (Nat.succ_le_succ timing).trans (first.trans second)

theorem OnWord.triggerCondition (onWord : reading.OnWord) (located : builder.At tokens draft)
    (isOpen : draft.IsOpen) {words : Nat} (triggers : reading.phrase.triggerLength? = some words) :
    Completes tokens reading.source (reading.triggerCondition builder words) := by
  have enough := two_le_triggerLength triggers
  have exact : 1 < (if reading.word == "INSTEAD" then 2 else 1) →
      reading.phrase.Exact (if reading.word == "INSTEAD" then 2 else 1) := by
    split
    next instead =>
      exact fun _ => Phrase.exact_of_triggerLength? (by rw [triggers]; rfl) (eq_of_beq instead)
    next => exact fun several => absurd several (by decide)
  refine (leaveProcedureOptions_reaches located isOpen).thenStep fun builder draft located isOpen =>
    ?_
  obtain ⟨opened, node, savedNode, sees⟩ := located.stands.sees.openIn .triggerCondition
  obtain ⟨grown, used, keyword, saved, sees, isKeyword, place⟩ :=
    onWord.saveKeyword sees exact
  rw [Draft.enter_id] at saved
  simp only [Builder.save, located.stands.cursor, savedNode, saved]
  split
  next =>
    have stands : grown.Stands (draft.add (.bracket node .triggerCondition keyword)) :=
      ⟨sees.shown.of_outline rfl, sees.cursor⟩
    obtain ⟨grownAt, atRest⟩ := located.add isOpen stands (isKeyword.bracket node rfl) rfl
    exact ⟨grown, used, _, rfl, grownAt, atRest⟩
  next last found =>
    have covers : Phrase.Covers reading.source last :=
      Phrase.covers_of_lastPlace? (onWord.phrase ▸ found)
    have within : used ≤ last := by
      rcases place with rfl | atTiming
      · exact Nat.zero_le _
      · rw [onWord.phrase] at found atTiming
        refine Phrase.lastPlace?_mono ?_ atTiming found
        split <;> omega
    have continues : ∀ token ∈ reading.tokens (used + 1) last, token.continuesPhrase = true :=
      fun token member => covers.continues token (List.mem_of_mem_drop member)
    obtain ⟨outlines, sees, read, parts⟩ := sees.saveTokens continues
    have whole : reading.source.take (used + 1) ++ reading.tokens (used + 1) last =
        reading.source.take (last + 1) := by
      have front : reading.source.take (used + 1) =
          (reading.source.take (last + 1)).take (used + 1) := by
        rw [List.take_take, Nat.min_eq_left (Nat.succ_le_succ within)]
      rw [front]
      exact List.take_append_drop ..
    have read := isKeyword.read.append read
    rw [whole] at read
    obtain ⟨front, final, ends, content⟩ : ∃ front final, [keyword] ++ outlines = front ++ [final] ∧
        final.kind.isTrivia = false := by
      cases outlines using List.reverseRecOn with
      | nil => exact ⟨[], keyword, rfl, isKeyword.content⟩
      | append_singleton front final =>
        exact ⟨[keyword] ++ front, final, by simp, content_of_covers covers (used + 1) parts⟩
    rw [ends] at read
    have stands : (grown.saveTokens node (reading.tokens (used + 1) last)).Stands
        (draft.add (.node node .triggerCondition "" {} (front ++ [final]))) := by
      refine ⟨sees.shown.of_outline ?_, sees.cursor⟩
      rw [← ends]
      rfl
    obtain ⟨grownAt, atRest⟩ := located.add isOpen stands (read.wrap content node rfl) rfl
    exact ⟨_, last, _, rfl, grownAt, atRest⟩

theorem OnWord.as_ (onWord : reading.OnWord) (located : builder.At tokens draft)
    (isOpen : draft.IsOpen) :
    Reaches (tokens ++ [reading.token]) (reading.as_ builder) Draft.AtRest := by
  refine (leaveProcedureOptions_reaches located isOpen).bind fun builder draft located isOpen => ?_
  split
  next inside =>
    have isHead := (located.isIn_kind _).mp inside
    split
    next => exact onWord.saveWord located isOpen
    next =>
      exact (onWord.enter located (isHead ▸ by decide) (isOpen.accepts _)
        rfl (absurd · (by decide))).bind
        fun builder draft located entered => startStatement located entered (by decide) (by decide)
  split
  next inside =>
    obtain ⟨others, path, _⟩ := located.path_of_isIn [] .cteAlias inside rfl
    refine (located.moveUp path (by simp) (by decide)).bind fun builder draft located left => ?_
    have isBody := Draft.kind_eq left.path
    have accepted : draft.Accepts .cteAsBlock := Draft.accepts_of_unstaged (by rw [isBody]; rfl) _
    exact (onWord.enter located (isBody ▸ by decide) accepted rfl (absurd · (by decide))).imp
      fun _ entered => entered.atRest (by decide)
  next => exact onWord.saveWord located isOpen

theorem OnWord.for_ (onWord : reading.OnWord) (located : builder.At tokens draft)
    (isOpen : draft.IsOpen) :
    Reaches (tokens ++ [reading.token]) (reading.for_ builder) Draft.AtRest := by
  rw [Reading.for_]
  split
  next inside =>
    have isHead := (located.isIn_kind _).mp inside
    exact (onWord.enter located (isHead ▸ by decide) (isOpen.accepts _)
      rfl (absurd · (by decide))).bind
      fun builder draft located entered => startStatement located entered (by decide) (by decide)
  refine (located.leaveSelectionTarget isOpen).bind fun builder draft located escapes => ?_
  split
  next inside =>
    obtain ⟨others, path, _⟩ :=
      located.path_of_isIn [.clause, .statement, .containerContentBody] .cursorForBlock inside rfl
    exact onWord.enterPart located path rfl (by decide)
  exact (located.optional escapes.isOpen (located.considerClause escapes.isOpen) _).bind_ite
    fun builder draft located isOpen => onWord.saveWord located isOpen

theorem OnWord.with_ (onWord : reading.OnWord) (located : builder.At tokens draft)
    (isOpen : draft.IsOpen) :
    Reaches (tokens ++ [reading.token]) (reading.with_ builder) Draft.AtRest := by
  refine (located.optional isOpen (located.considerStatement isOpen) _).bind_ite
    fun builder draft located isOpen => ?_
  dsimp only
  split
  next inside =>
    simp only [Bool.and_eq_true] at inside
    obtain ⟨others, path⟩ := (located.isIn_iff (by simp)).mp inside.1
    have isClause := Draft.kind_eq path
    refine (onWord.enter located (isClause ▸ by decide) (isOpen.accepts _)
      rfl (absurd · (by decide))).bind
      fun builder draft located entered => ?_
    have isBody := Draft.kind_eq entered.path
    have accepted : draft.Accepts .cteAlias := Draft.accepts_of_unstaged (by rw [isBody]; rfl) _
    exact located.enterHolder rfl (isBody ▸ by decide) accepted (by decide) (by decide) (by decide)
  split
  next inside =>
    obtain ⟨others, path, _⟩ :=
      located.path_of_isIn [.containerContentBody] .permissionsRecipient inside rfl
    exact onWord.enterPart located path rfl (by decide)
  split
  next inside =>
    simp only [Bool.or_eq_true, located.isIn_kind] at inside
    have opens : draft.kind ∈ NodeKind.parents .ddlWithClause := by
      rcases inside with kind | kind <;> rw [kind] <;> decide
    exact (onWord.enter located opens (isOpen.accepts _) rfl (absurd · (by decide))).imp
      fun _ entered => entered.atRest (by decide)
  split
  next => exact onWord.saveWord located isOpen
  next =>
    exact (located.considerClause isOpen).bind
      fun builder draft located isOpen => onWord.saveWord located isOpen

theorem OnWord.permissionsDetail (onWord : reading.OnWord) (located : builder.At tokens draft)
    (inside : builder.isIn [.permissionsDetail] = true) :
    Reaches (tokens ++ [reading.token]) (reading.permissionsDetail builder) Draft.AtRest := by
  obtain ⟨others, path, _⟩ := located.path_of_isIn [] .permissionsDetail inside rfl
  rw [Reading.permissionsDetail]
  split
  next => exact onWord.enterPart located path rfl (by decide)
  next => exact onWord.enterPart located path rfl (by decide)
  next => exact onWord.enterPart located path rfl (by decide)
  next =>
    have isOpen : draft.IsOpen := by
      rw [Draft.IsOpen, Draft.kind_eq path]
      decide
    exact onWord.saveTyped located isOpen

theorem OnWord.permissions (onWord : reading.OnWord) (located : builder.At tokens draft)
    (isOpen : draft.IsOpen) :
    Reaches (tokens ++ [reading.token]) (reading.permissions builder) Draft.AtRest := by
  rw [Reading.permissions]
  split
  next => exact onWord.saveWord located isOpen
  next =>
    refine (located.considerStatement isOpen).bind fun builder draft located isOpen => ?_
    exact (onWord.enterHere located isOpen rfl rfl).imp fun _ entered => entered.atRest (by decide)

theorem OnWord.permissionsRecipient (onWord : reading.OnWord) (located : builder.At tokens draft)
    (inside : builder.isIn [.containerContentBody, .permissionsTarget] = true) :
    Reaches (tokens ++ [reading.token]) (reading.permissionsRecipient builder) Draft.AtRest := by
  obtain ⟨others, path, _⟩ :=
    located.path_of_isIn [.containerContentBody] .permissionsTarget inside rfl
  exact onWord.enterPart located path rfl (by decide)

theorem OnWord.cascade (onWord : reading.OnWord) (located : builder.At tokens draft)
    (isOpen : draft.IsOpen) :
    Reaches (tokens ++ [reading.token]) (reading.cascade builder) Draft.AtRest := by
  rw [Reading.cascade]
  split
  next inside =>
    rcases Bool.or_eq_true_iff.mp inside with inside | inside
    · obtain ⟨others, path⟩ := (located.isIn_iff (by simp)).mp inside
      have path : draft.path =
          [NodeKind.containerContentBody, .permissionsRecipient] ++ .permissionsBlock :: others :=
            path
      exact onWord.enterPart located path rfl (by decide)
    · obtain ⟨others, path⟩ := (located.isIn_iff (by simp)).mp inside
      have path : draft.path =
          [NodeKind.containerContentBody, .ddlWithClause] ++ .permissionsBlock :: others := path
      exact onWord.enterPart located path rfl (by decide)
  next => exact onWord.saveWord located isOpen

end SqlLayout.Reading
