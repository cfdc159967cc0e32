import SqlLayout.Proofs.Draft.Tidy

/-!
# Traces

How the past of a draft follows the symbols of the tokens that were read: it takes every symbol as
it comes, closes groups that are abandoned, and lets blanks and comments leave the containers at its
end. Content therefore keeps its order, and no blank or comment is lost.
-/

namespace SqlLayout

open Outline

/-- A past that follows the symbols of a source, with a number of groups abandoned on the way. -/
inductive Trace : Nat → List Symbol → List Symbol → Prop where
  | start : Trace 0 [] []
  /-- Symbols are taken as they come. -/
  | take {abandoned : Nat} {source past : List Symbol} (trace : Trace abandoned source past)
      (symbols : List Symbol) : Trace abandoned (source ++ symbols) (past ++ symbols)
  /-- Groups are closed that the source leaves open. -/
  | abandon {abandoned : Nat} {source past : List Symbol} (trace : Trace abandoned source past)
      (groups : Nat) : Trace (abandoned + groups) source (past ++ List.replicate groups .closing)
  /-- Blanks and comments leave the containers at the end. -/
  | shed {abandoned : Nat} {source front : List Symbol} {outlines : List Outline}
      (trace : Trace abandoned source (front ++ symbolsOfList outlines))
      (regular : ∀ outline ∈ outlines, outline.Regular) (orderly : Orderly outlines) :
      Trace abandoned source
        (front ++ symbolsOfList (shedList outlines).1 ++ symbolsOfList (shedList outlines).2)

/-! ### The past of what is built -/

namespace Draft

/-- Leaving and opening containers that are no groups takes no symbol. -/
theorem Pass.past {draft other : Draft} (pass : draft.Pass other) (sound : draft.Sound) :
    other.past = draft.past := by
  cases pass with
  | leave leavable enclosed => rw [past_up sound enclosed, NodeKind.ending, leavable.plain]; simp
  | enter id plain _ _ _ _ => rw [past_enter, NodeKind.beginning, plain]; simp

theorem Passes.past {draft other : Draft} (passes : draft.Passes other) (sound : draft.Sound) :
    other.past = draft.past := by
  induction passes with
  | refl => rfl
  | tail before pass ih => rw [pass.past (Passes.sound before sound), ih]

theorem past_shed (draft : Draft) :
    draft.shed.past = Frame.past draft.outer ++ draft.kind.beginning ++
      symbolsOfList (shedList draft.children).1 :=
  rfl

end Draft

theorem Token.symbols_of_isTrivia {token : Token} (isTrivia : token.kind.isTrivia = true)
    (id : NodeId) : (Outline.leaf id token.kind.leafKind token.value).symbols = token.symbols := by
  rw [symbols_leaf id _ (TokenKind.isLeaf_leafKind _), NodeKind.symbols,
    TokenKind.isTrivia_leafKind, if_pos isTrivia, Token.symbols, if_pos isTrivia]

/-- The past of what is built from faithful tokens follows their symbols. -/
theorem Built.trace {tokens : List Token} {draft : Draft} (built : Built tokens draft)
    (faithful : ∀ token ∈ tokens, token.Faithful) :
    ∃ abandoned, Trace abandoned (Token.symbolsOf tokens) draft.past := by
  -- Every case that reads a token takes its symbols, whatever becomes of them in the document.
  have taking : ∀ {front more : List Token} {past symbols : List Symbol},
      (∃ abandoned, Trace abandoned (Token.symbolsOf front) past) → symbols = Token.symbolsOf more →
      ∃ abandoned, Trace abandoned (Token.symbolsOf (front ++ more)) (past ++ symbols) := by
    rintro front more past symbols ⟨abandoned, trace⟩ rfl
    exact ⟨abandoned, Token.symbolsOf_append front more ▸ trace.take _⟩
  induction built with
  | start statement clause =>
    rw [Draft.past_enter, Draft.past_enter, Draft.past, symbolsOfList_nil]
    exact ⟨0, .start⟩
  | pass built pass ih =>
    rw [pass.past built.sound]
    exact ih faithful
  | add _ read _ _ _ ih =>
    obtain ⟨before, more⟩ := List.forall_mem_append.mp faithful
    rw [Draft.past_add]
    exact taking (ih before) (by simpa using read.spelled more)
  | trivia _ id isTrivia _ _ ih =>
    rw [Draft.past_add]
    refine taking (ih (List.forall_mem_append.mp faithful).1) ?_
    rw [Token.symbols_of_isTrivia isTrivia, Token.symbolsOf_singleton]
  | @slip _ _ draft built id isTrivia _ inside empty ih =>
    obtain ⟨others, path⟩ := inside
    have enclosed := Draft.enclosed_of_path path.symm
    have plain : draft.kind.isParens = false := by rw [← (List.cons.inj path).1]; rfl
    rw [Draft.past_slip empty plain enclosed]
    refine taking (ih (List.forall_mem_append.mp faithful).1) ?_
    rw [Token.symbols_of_isTrivia isTrivia, Token.symbolsOf_singleton]
  | openGroup _ id isOpening group _ _ ih =>
    rw [Draft.past_enter, NodeKind.beginning, if_pos group]
    refine taking (ih (List.forall_mem_append.mp faithful).1) ?_
    simp [Token.symbols, isOpening, TokenKind.isTrivia, TokenKind.isComment]
  | @closeGroup _ _ draft built isClosing group ih =>
    have enclosed := built.sound.enclosed_of_isParens group
    rw [Draft.past_up built.sound enclosed, NodeKind.ending, if_pos group]
    refine taking (ih (List.forall_mem_append.mp faithful).1) ?_
    simp [Token.symbols, isClosing, TokenKind.isTrivia, TokenKind.isComment]
  | stray _ id isClosing _ _ _ ih =>
    rw [Draft.past_add, symbols_leaf id _ rfl]
    refine taking (ih (List.forall_mem_append.mp faithful).1) ?_
    rw [Token.symbolsOf_singleton, Token.symbols, isClosing]
    rfl
  | mark _ ih =>
    simp only [Draft.mark, Draft.past_setAttribute]
    exact ih faithful
  | follow _ id _ ih =>
    rw [Draft.past_follow]
    exact ih faithful
  | separate built id keyword isWord _ ih =>
    obtain ⟨before, more⟩ := List.forall_mem_append.mp faithful
    obtain ⟨abandoned, trace⟩ := ih before
    rw [Draft.past_add, Draft.past_top built.sound, Draft.outline_symbols built.sound]
    refine taking ⟨_, trace.abandon _⟩ ?_
    simp [symbols_node, Token.symbols, isWord, TokenKind.isTrivia, TokenKind.isComment,
      symbols_leaf keyword _ (rfl : NodeKind.isLeaf .otherKeyword = true), NodeKind.symbols,
      NodeKind.ending, NodeKind.isTrivia, NodeKind.isComment, NodeKind.isParens, NodeKind.tokens,
      NodeKind.tokenKind, NodeKind.isLeaf]
  | migrate built _ passes _ ih =>
    obtain ⟨abandoned, trace⟩ := ih faithful
    rw [Draft.past_addAll, passes.past built.sound.shed, Draft.past_shed]
    exact ⟨abandoned, trace.shed built.sound.regular built.tidy.inside⟩

/-- The document of what is built follows the symbols too: at the end the open groups are
abandoned. -/
theorem Built.trace_outline {tokens : List Token} {draft : Draft} (built : Built tokens draft)
    (faithful : ∀ token ∈ tokens, token.Faithful) :
    ∃ abandoned, Trace abandoned (Token.symbolsOf tokens) draft.outline.symbols := by
  obtain ⟨abandoned, trace⟩ := built.trace faithful
  rw [Draft.outline_symbols built.sound]
  exact ⟨_, trace.abandon _⟩

/-! ### What a trace keeps -/

namespace Trace

variable {abandoned : Nat} {source past : List Symbol}

/-- What is neither a blank nor a comment keeps its order, apart from the parentheses of abandoned
groups. -/
theorem filter (trace : Trace abandoned source past) {selects : Symbol → Bool}
    (silent : ∀ kind text, selects (.trivia kind text) = false)
    (closes : abandoned = 0 ∨ selects .closing = false) :
    past.filter selects = source.filter selects := by
  induction trace with
  | start => rfl
  | take _ symbols ih => rw [List.filter_append, List.filter_append, ih closes]
  | abandon _ groups ih =>
    rcases closes with none | silentClosing
    · obtain ⟨rfl, rfl⟩ := Nat.add_eq_zero_iff.mp none
      simpa using ih (.inl rfl)
    · simp [ih (.inr silentClosing), silentClosing]
  | @shed _ _ front outlines _ regular _ ih =>
    rw [List.filter_append, List.filter_append, shedList_filter silent regular,
      filter_of_isTrivia silent (regular_of_mem_shedList regular).2 isTrivia_of_mem_shedList,
      List.append_nil, ← List.filter_append, ih closes]

theorem perm (trace : Trace abandoned source past) :
    past.Perm (source ++ List.replicate abandoned .closing) := by
  induction trace with
  | start => simp
  | take _ symbols ih =>
    refine (ih.append_right symbols).trans ?_
    rw [List.append_assoc, List.append_assoc]
    exact List.perm_append_comm.append_left _
  | abandon _ groups ih =>
    rw [List.replicate_add, ← List.append_assoc]
    exact ih.append_right _
  | @shed _ _ front outlines _ _ _ ih =>
    rw [List.append_assoc]
    exact ((shedList_perm outlines).append_left front).trans ih

theorem trivia (trace : Trace abandoned source past) :
    (past.filterMap Symbol.trivia?).Perm (source.filterMap Symbol.trivia?) := by
  have same := trace.perm.filterMap Symbol.trivia?
  rw [List.filterMap_append, List.filterMap_replicate_of_none rfl, List.append_nil] at same
  exact same

end Trace

end SqlLayout
