import SqlLayout.Proofs.Draft.Trace

/-!
# Parentheses balance

A document that needs no error recovery has no closing parenthesis without a group, so the open
groups are the opening parentheses that wait for a closing one.
-/

namespace SqlLayout

open Outline

theorem Token.count_symbols {token : Token} (plain : token.isPlain = true) :
    token.symbols.count .opening = 0 ∧ token.symbols.count .closing = 0 := by
  simp only [isPlain, Bool.and_eq_true, bne_iff_ne] at plain
  rw [symbols]
  split
  · simp
  · split
    next isOpening => exact absurd isOpening plain.1
    next isClosing => exact absurd isClosing plain.2
    next => simp

theorem Token.count_symbolsOf {tokens : List Token}
    (plain : ∀ token ∈ tokens, token.isPlain = true) :
    (symbolsOf tokens).count .opening = 0 ∧ (symbolsOf tokens).count .closing = 0 := by
  induction tokens with
  | nil => simp
  | cons first rest ih =>
    rcases List.forall_mem_cons.mp plain with ⟨here, later⟩
    rw [← List.singleton_append, symbolsOf_append, symbolsOf_singleton, List.count_append,
      List.count_append, (count_symbols here).1, (count_symbols here).2, (ih later).1, (ih later).2]
    exact ⟨rfl, rfl⟩

namespace Draft

variable {draft other : Draft}

/-! ### Marks stay -/

theorem Flagged.enter (flagged : draft.Flagged) (id : NodeId) (kind : NodeKind) :
    (draft.enter id kind).Flagged := by
  simpa [Flagged, Draft.enter, frame] using flagged

theorem Flagged.up (flagged : draft.Flagged) : draft.up.Flagged := by
  unfold Draft.up
  split
  · exact flagged
  next frame outer around => simpa [Flagged, around] using flagged

theorem Flagged.ups (flagged : draft.Flagged) (levels : Nat) : (draft.ups levels).Flagged := by
  induction levels generalizing draft with
  | zero => exact flagged
  | succ levels ih => exact ih flagged.up

theorem Flagged.slip (flagged : draft.Flagged) (outline : Outline) :
    (draft.slip outline).Flagged := by
  unfold Draft.slip
  split
  · exact flagged
  next frame outer around => simpa [Flagged, around] using flagged

theorem Flagged.follow (flagged : draft.Flagged) (outline : Outline) :
    (draft.follow outline).Flagged := by
  unfold Draft.follow
  split
  · exact flagged
  next frame outer around => simpa [Flagged, around] using flagged

theorem Flagged.setAttribute (flagged : draft.Flagged) (id : NodeId) {key : Attribute}
    {value : String} (keeps : key = .errorFound → value = "1") :
    (draft.setAttribute id key value).Flagged := by
  have marked : ∀ attributes : Attributes, attributes.get? .errorFound = some "1" →
      (attributes.set key value).get? .errorFound = some "1" := by
    intro attributes found
    rw [Attributes.get?_set]
    split
    next same => rw [keeps same.symm]
    next => exact found
  rcases draft with ⟨own, kind, attributes, children, outer⟩
  rcases flagged with ⟨outermost, isLast, found⟩
  cases outer using List.reverseRecOn with
  | nil =>
    obtain rfl : attributes = outermost := by simpa using isLast
    refine ⟨_, by simp [Draft.setAttribute, Frame.setAttributes]; rfl, ?_⟩
    split
    · exact marked _ found
    · exact found
  | append_singleton front last _ =>
    obtain rfl : last.attributes = outermost := by simpa [List.getLast?_cons] using isLast
    refine ⟨_, by simp [Draft.setAttribute, Frame.setAttributes, List.getLast?_cons]; rfl, ?_⟩
    split
    · exact marked _ found
    · exact found

theorem Flagged.mark (flagged : draft.Flagged) : draft.mark.Flagged := by
  have own : (draft.setAttribute draft.id .hasError "1").Flagged := flagged.setAttribute _ nofun
  exact own.setAttribute _ fun _ => rfl

theorem Flagged.pass (flagged : draft.Flagged) (pass : draft.Pass other) : other.Flagged := by
  cases pass with
  | leave _ _ => exact flagged.up
  | enter id _ _ _ _ _ => exact flagged.enter id _

theorem Flagged.passes (flagged : draft.Flagged) (passes : draft.Passes other) : other.Flagged := by
  induction passes with
  | refl => exact flagged
  | tail _ pass ih => exact ih.pass pass

/-! ### Open groups -/

theorem groups_enter (draft : Draft) (id : NodeId) (kind : NodeKind) :
    (draft.enter id kind).groups = draft.groups + if kind.isParens then 1 else 0 := by
  rw [groups, path_enter, List.countP_cons]
  rfl

theorem groups_up_plain (plain : draft.kind.isParens = false) (enclosed : draft.outer ≠ []) :
    draft.up.groups = draft.groups := by
  simp [groups_up enclosed, plain]

theorem groups_slip (draft : Draft) (outline : Outline) :
    (draft.slip outline).groups = draft.groups := by
  unfold slip
  split
  · rfl
  next frame outer around => simp [groups, path, around]

theorem groups_follow (draft : Draft) (outline : Outline) :
    (draft.follow outline).groups = draft.groups := by
  unfold follow
  split
  · rfl
  next frame outer around => simp [groups, path, around]

theorem Pass.groups (pass : draft.Pass other) : other.groups = draft.groups := by
  cases pass with
  | leave leavable enclosed => exact groups_up_plain leavable.plain enclosed
  | enter id plain _ _ _ _ => simp [groups_enter, plain]

theorem Passes.groups (passes : draft.Passes other) : other.groups = draft.groups := by
  induction passes with
  | refl => rfl
  | tail _ pass ih => exact pass.groups.trans ih

/-- The open groups of a draft are the opening parentheses without a closing one. -/
def Balanced (draft : Draft) : Prop :=
  draft.past.count .closing + draft.groups = draft.past.count .opening

theorem Balanced.outline (balanced : draft.Balanced) (sound : draft.Sound) :
    draft.outline.symbols.count .closing = draft.outline.symbols.count .opening := by
  rw [outline_symbols sound, List.count_append, List.count_append, List.count_replicate_self,
    List.count_replicate, balanced]
  simp

/-- Nothing changes if no parenthesis is added and no group is opened or closed. -/
theorem Balanced.of_append (balanced : draft.Balanced) {symbols : List Symbol}
    (past : other.past = draft.past ++ symbols) (groups : other.groups = draft.groups)
    (none : symbols.count .opening = 0 ∧ symbols.count .closing = 0) : other.Balanced := by
  rw [Balanced, past, groups, List.count_append, List.count_append, none.1, none.2]
  exact balanced

theorem Balanced.congr (balanced : draft.Balanced) (past : other.past = draft.past)
    (groups : other.groups = draft.groups) : other.Balanced := by
  rw [Balanced, past, groups]
  exact balanced

theorem Balanced.pass (balanced : draft.Balanced) (pass : draft.Pass other) (sound : draft.Sound) :
    other.Balanced :=
  balanced.congr (pass.past sound) pass.groups

end Draft

/-- Parentheses balance as long as nothing needed recovery. -/
theorem Built.flagged_or_balanced {tokens : List Token} {draft : Draft} (built : Built tokens draft)
    (faithful : ∀ token ∈ tokens, token.Faithful) : draft.Flagged ∨ draft.Balanced := by
  induction built with
  | start statement clause =>
    right
    have empty : Draft.Balanced { id := Tree.root, kind := .root } := by
      simp [Draft.Balanced, Draft.past, Frame.past, Draft.groups, Draft.path, NodeKind.beginning,
        NodeKind.isParens]
    refine empty.congr ?_ (by simp [Draft.groups_enter, NodeKind.isParens])
    simp only [Draft.past_enter, NodeKind.beginning]
    rfl
  | pass built pass ih =>
    apply (ih faithful).imp (·.pass pass)
    exact fun balanced => balanced.pass pass built.sound
  | add built read _ _ _ ih =>
    rcases List.forall_mem_append.mp faithful with ⟨before, more⟩
    apply (ih before).imp id
    intro balanced
    have spelled := read.spelled more
    rw [symbolsOfList_cons, symbolsOfList_nil, List.append_nil] at spelled
    exact balanced.of_append (by rw [Draft.past_add, spelled])
      rfl (Token.count_symbolsOf read.plain)
  | trivia built id isTrivia _ _ ih =>
    apply (ih (List.forall_mem_append.mp faithful).1).imp (fun flagged => flagged)
    intro balanced
    refine balanced.of_append ?_ rfl (Token.count_symbols (Token.isPlain_of_isTrivia isTrivia))
    rw [Draft.past_add, Token.symbols_of_isTrivia isTrivia]
  | @slip _ _ draft built id isTrivia _ inside empty ih =>
    rcases ih (List.forall_mem_append.mp faithful).1 with flagged | balanced
    · exact .inl (flagged.slip _)
    · right
      rcases inside with ⟨others, path⟩
      have enclosed := Draft.enclosed_of_path path.symm
      have plain : draft.kind.isParens = false := by rw [← (List.cons.inj path).1]; rfl
      refine balanced.of_append ?_ (Draft.groups_slip _ _)
        (Token.count_symbols (Token.isPlain_of_isTrivia isTrivia))
      rw [Draft.past_slip empty plain enclosed, Token.symbols_of_isTrivia isTrivia]
  | openGroup built id isOpening group _ _ ih =>
    rcases ih (List.forall_mem_append.mp faithful).1 with flagged | balanced
    · exact .inl (flagged.enter id _)
    · right
      rw [Draft.Balanced] at balanced
      simp only [Draft.Balanced, Draft.past_enter, Draft.groups_enter,
        NodeKind.beginning, group, if_true, List.count_append, List.count_singleton]
      simp
      omega
  | @closeGroup _ _ draft built isClosing group ih =>
    rcases ih (List.forall_mem_append.mp faithful).1 with flagged | balanced
    · exact .inl flagged.up
    · right
      have enclosed := built.sound.enclosed_of_isParens group
      have groups := Draft.groups_up enclosed
      rw [Draft.Balanced] at balanced
      simp [Draft.Balanced, Draft.past_up built.sound enclosed, NodeKind.ending, group] at groups ⊢
      omega
  | stray _ id _ flagged _ _ _ => exact .inl flagged
  | mark built ih =>
    apply (ih faithful).imp Draft.Flagged.mark
    exact fun balanced => balanced.congr (by simp [Draft.mark]) (by simp [Draft.groups, Draft.mark])
  | follow built id _ ih =>
    apply (ih faithful).imp (·.follow _)
    exact fun balanced => balanced.congr (Draft.past_follow _ _) (Draft.groups_follow _ _)
  | @separate _ token draft built id keyword isWord _ ih =>
    rcases ih (List.forall_mem_append.mp faithful).1 with flagged | balanced
    · exact .inl (flagged.ups _)
    · -- The open groups are closed, and none is open afterwards.
      right
      have closed := Draft.groups_top built.sound
      have whole : draft.top.Balanced := by
        rw [Draft.Balanced, Draft.past_top built.sound, closed, balanced.outline built.sound]
        rfl
      refine whole.of_append (Draft.past_add _ _) rfl ?_
      simp [symbols_node, symbols_leaf keyword _ (rfl : NodeKind.isLeaf .otherKeyword = true),
        NodeKind.symbols, NodeKind.ending, NodeKind.isTrivia, NodeKind.isComment, NodeKind.isParens,
        NodeKind.tokens, NodeKind.tokenKind, NodeKind.isLeaf]
  | @migrate _ draft other built _ passes _ ih =>
    rcases ih faithful with flagged | balanced
    · have stays : draft.shed.Flagged := flagged
      have moved : other.Flagged := stays.passes passes
      exact .inl moved
    · right
      have perm : (other.addAll draft.shedding).past.Perm draft.past := by
        rw [Draft.past_addAll, passes.past built.sound.shed, Draft.past_shed, List.append_assoc]
        exact (shedList_perm draft.children).append_left _
      rw [Draft.Balanced, perm.count_eq, perm.count_eq]
      have same : (other.addAll draft.shedding).groups = draft.groups := passes.groups
      rw [same]
      exact balanced

end SqlLayout
