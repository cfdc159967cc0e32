import SqlLayout.Proofs.Conservation
import SqlLayout.Proofs.Draft.Balance
import SqlLayout.Proofs.Draft.Dangling

/-!
# A document spells the script it was read from

The text of a document is read off its symbols, and so is the text of a token list. Both are the
same if every group is closed and no comment dangles at the end of a group.
-/

namespace SqlLayout

theorem TokenKind.leafKind_isBlank (kind : TokenKind) :
    (kind == .whiteSpace) = (kind.leafKind == .whiteSpace) := by
  cases kind <;> rfl

namespace Token

def breaksLine (token : Token) : Bool :=
  token.kind == .whiteSpace && containsLineBreak token.value

/-- Whether a group ends behind nothing but blanks and comments. -/
def closesGroup : List Token → Bool
  | [] => false
  | token :: rest => token.kind == .closeParens || (token.kind.isTrivia && closesGroup rest)

/-- Whether a comment on a line of its own dangles at the end of a group. -/
def dangles : List Token → Bool
  | blank :: comment :: rest =>
      (blank.breaksLine && comment.kind.isComment && closesGroup rest) || dangles (comment :: rest)
  | _ => false

variable {token : Token} {tokens : List Token}

theorem symbols_cases (token : Token) :
    (token.kind.isTrivia = true ∧ token.symbols = [.trivia token.kind.leafKind token.value]) ∨
      token.symbols = [.opening] ∨ (token.kind = .closeParens ∧ token.symbols = [.closing]) ∨
      token.symbols = [.token token.kind token.value] := by
  rw [symbols]
  split
  next isTrivia => exact .inl ⟨isTrivia, rfl⟩
  next =>
    right
    split
    next => exact .inl rfl
    next isClosing => exact .inr (.inl ⟨isClosing, rfl⟩)
    next => exact .inr (.inr rfl)

theorem closesGroup_of_symbols {between back : List Symbol}
    (reads : symbolsOf tokens = between ++ .closing :: back)
    (trivia : ∀ symbol ∈ between, symbol.isTrivia = true) : closesGroup tokens = true := by
  induction tokens generalizing between with
  | nil => simp at reads
  | cons first rest ih =>
    rw [← List.singleton_append, symbolsOf_append, symbolsOf_singleton] at reads
    rw [closesGroup]
    cases between with
    | nil =>
      rcases symbols_cases first with ⟨_, is⟩ | is | ⟨isClosing, is⟩ | is
      · simp [is] at reads
      · simp [is] at reads
      · simp [isClosing]
      · simp [is] at reads
    | cons symbol others =>
      rcases List.forall_mem_cons.mp trivia with ⟨isTrivia, othersTrivia⟩
      rcases symbols_cases first with ⟨firstTrivia, is⟩ | is | ⟨_, is⟩ | is
      · rw [is, List.cons_append, List.cons_append] at reads
        rw [firstTrivia, ih (List.cons.inj reads).2 othersTrivia]
        simp
      all_goals
        rw [is] at reads
        rw [← (List.cons.inj reads).1] at isTrivia
        exact absurd isTrivia (by simp [Symbol.isTrivia])

theorem dangles_cons (first : Token) (rest : List Token) (later : dangles rest = true) :
    dangles (first :: rest) = true := by
  cases rest with
  | nil => exact absurd later (by decide)
  | cons second rest => rw [dangles, later, Bool.or_true]

theorem dangles_of_symbols (dangling : Symbol.Dangle (symbolsOf tokens)) :
    dangles tokens = true := by
  induction tokens with
  | nil =>
    rcases dangling with ⟨front, back, whole, _⟩
    simp at whole
  | cons first rest ih =>
    rw [← List.singleton_append, symbolsOf_append, symbolsOf_singleton] at dangling
    rcases symbols_cases first with ⟨_, is⟩ | is | ⟨_, is⟩ | is
    · rw [is, List.singleton_append] at dangling
      rcases dangling.cases_cons with
        further | ⟨breaks, comment, behind, back, reads, isComment, trivia⟩
      · exact dangles_cons _ _ (ih further)
      · cases rest with
        | nil => simp at reads
        | cons second rest =>
          rw [← List.singleton_append, symbolsOf_append, symbolsOf_singleton] at reads
          rcases symbols_cases second with ⟨_, is⟩ | is | ⟨_, is⟩ | is
          · rw [is, List.singleton_append] at reads
            rcases List.cons.inj reads with ⟨rfl, onward⟩
            have starts : first.breaksLine = true := by
              rw [← breaks, breaksLine, Symbol.breaksLine, TokenKind.leafKind_isBlank]
            have comments : second.kind.isComment = true := by
              rw [← TokenKind.isComment_leafKind]
              exact isComment
            rw [dangles, starts, comments, closesGroup_of_symbols onward trivia]
            rfl
          all_goals
            rw [is] at reads
            rw [← (List.cons.inj reads).1] at isComment
            exact absurd isComment (by simp [Symbol.isComment])
    · rw [is] at dangling
      exact dangles_cons _ _ (ih (dangling.tail rfl))
    · rw [is] at dangling
      exact dangles_cons _ _ (ih (dangling.tail rfl))
    · rw [is] at dangling
      exact dangles_cons _ _ (ih (dangling.tail rfl))

/-! ### Text -/

theorem chars_symbols (faithful : token.Faithful) :
    token.symbols.flatMap Symbol.chars = token.spelling.toList := by
  rw [symbols]
  split
  next isTrivia =>
    revert isTrivia
    rw [spelling]
    cases token.kind <;>
      simp [TokenKind.isTrivia, TokenKind.isComment, Symbol.chars, TokenKind.leafKind,
        NodeKind.ownText, NodeKind.isParens]
  next =>
    rw [Faithful] at faithful
    split
    next isOpening =>
      rw [isOpening] at faithful
      simp [spelling, isOpening, faithful, Symbol.chars]
    next isClosing =>
      rw [isClosing] at faithful
      simp [spelling, isClosing, faithful, Symbol.chars]
    next =>
      rw [List.flatMap_singleton]
      rfl

theorem spelling_symbolsOf (faithful : ∀ token ∈ tokens, token.Faithful) :
    (String.join (tokens.map spelling)).toList = (symbolsOf tokens).flatMap Symbol.chars := by
  rw [String.toList_join, List.flatMap_map, symbolsOf, List.flatMap_assoc]
  exact List.flatMap_congr fun token member => (chars_symbols (faithful token member)).symm

theorem count_parens (tokens : List Token) :
    (symbolsOf tokens).count .opening = tokens.countP (·.kind == .openParens) ∧
      (symbolsOf tokens).count .closing = tokens.countP (·.kind == .closeParens) := by
  have single : ∀ token : Token,
      token.symbols.count .opening = [token].countP (·.kind == .openParens) ∧
        token.symbols.count .closing = [token].countP (·.kind == .closeParens) := by
    intro token
    by_cases plain : token.isPlain = true
    · rw [(count_symbols plain).1, (count_symbols plain).2]
      simp only [isPlain, Bool.and_eq_true, bne_iff_ne] at plain
      simp [plain]
    · have isParens : token.kind = .openParens ∨ token.kind = .closeParens := by
        simpa [isPlain, Decidable.or_iff_not_imp_left] using plain
      rcases isParens with is | is <;>
        simp [symbols, is, TokenKind.isTrivia, TokenKind.isComment]
  induction tokens with
  | nil => simp
  | cons first rest ih =>
    rw [← List.singleton_append, symbolsOf_append, symbolsOf_singleton, List.count_append,
      List.count_append, List.countP_append, List.countP_append, ih.1, ih.2, (single first).1,
      (single first).2]
    exact ⟨rfl, rfl⟩

end Token

theorem NodeKind.chars_symbols (kind : NodeKind) (text : String) :
    (kind.symbols text).flatMap Symbol.chars = (kind.ownText text).toList := by
  have group : kind.isParens = true → (kind.ownText text).toList = ['('] := by
    cases kind <;> simp [isParens, ownText]
  rw [symbols]
  split
  · simp [Symbol.chars]
  next content =>
    split
    next isGroup => simp [group isGroup, Symbol.chars]
    next plain =>
      split
      next stray => simp [stray, ownText, isParens, Symbol.chars]
      next => exact chars_tokens (by simpa using content) (by simpa using plain) text

namespace Tree

variable {tree : Tree} {draft : Draft}

theorem Shows.renderEvents_walk (shown : tree.Shows draft) :
    (tree.renderEvents tree.walk).toList = draft.outline.symbols.flatMap Symbol.chars := by
  rw [renderEvents, String.toList_join, List.flatMap_map, shown.walk_eq]
  refine flatMap_events (fun id => ?_) (fun id => ?_) shown.stores
  · exact (NodeKind.chars_symbols _ _).symm
  · rw [eventText, NodeKind.ending]
    split <;> simp [Symbol.chars]

/-- In a document without errors the groups that were abandoned miss their closing parenthesis. -/
theorem Shows.countP_parens {tokens : List Token} {abandoned : Nat} (shown : tree.Shows draft)
    (built : Built tokens draft) (faithful : ∀ token ∈ tokens, token.Faithful)
    (clean : tree.hasError = false)
    (trace : Trace abandoned (Token.symbolsOf tokens) draft.outline.symbols) :
    tokens.countP (·.kind == .openParens) = tokens.countP (·.kind == .closeParens) + abandoned := by
  have opens : draft.outline.symbols.count .opening = tokens.countP (·.kind == .openParens) := by
    rw [trace.perm.count_eq, List.count_append, (Token.count_parens _).1]
    simp [List.count_replicate]
  have closes : draft.outline.symbols.count .closing =
      tokens.countP (·.kind == .closeParens) + abandoned := by
    rw [trace.perm.count_eq, List.count_append, (Token.count_parens _).2, List.count_replicate_self]
  have balance : draft.outline.symbols.count .closing = draft.outline.symbols.count .opening := by
    rcases built.flagged_or_balanced faithful with flagged | balanced
    · rw [shown.hasError_iff.mpr flagged] at clean
      exact absurd clean (by decide)
    · exact balanced.outline built.sound
  omega

/-- A script without errors whose comments do not dangle comes back from its document exactly if its
parentheses balance. -/
theorem ofText_spelling_eq_iff {script : String} (isOk : Tree.ofText script = .ok tree)
    (finished : (TokenList.ofText script).unfinished = false) (clean : tree.hasError = false)
    (firm : Token.dangles (TokenList.ofText script).tokens = false) (warning : String) :
    tree.spelling warning = (TokenList.ofText script).spelling warning ↔
      (TokenList.ofText script).tokens.countP (·.kind == .openParens) =
        (TokenList.ofText script).tokens.countP (·.kind == .closeParens) := by
  rcases Tree.ofTokens_shows (.ofText script) with ⟨other, draft, isOther, shown, built⟩
  obtain rfl : tree = other := Except.ok.inj (isOk.symm.trans isOther)
  have faithful := TokenList.faithful_ofText script
  rcases built.trace_outline faithful with ⟨abandoned, trace⟩
  have total := shown.countP_parens built faithful clean trace
  have text : tree.spelling warning = (TokenList.ofText script).spelling warning ↔
      draft.outline.symbols.flatMap Symbol.chars =
        (Token.symbolsOf (TokenList.ofText script).tokens).flatMap Symbol.chars := by
    rw [Tree.spelling, clean, TokenList.spelling, finished, ← String.toList_inj,
      String.toList_append, String.toList_append, shown.renderEvents_walk,
      Token.spelling_symbolsOf faithful]
    simp
  rw [text]
  constructor
  · -- The text would be longer by the parentheses of the groups that were closed at the end.
    intro same
    have longer := (trace.perm.flatMap_right Symbol.chars).length_eq
    rw [same, List.flatMap_append, List.length_append] at longer
    have none : ((List.replicate abandoned Symbol.closing).flatMap Symbol.chars).length =
        abandoned := by
      simp [List.length_flatMap, Symbol.chars]
    omega
  · intro balanced
    obtain rfl : abandoned = 0 := by omega
    rw [trace.eq_source fun dangling => ?_]
    have isDangling := Token.dangles_of_symbols dangling
    rw [firm] at isDangling
    exact absurd isDangling (by decide)

/-- A script with a group and a comment comes back. -/
theorem ofText_spelling_eq_example :
    ∃ tree, Tree.ofText "SELECT (1) -- c\n\nFROM t" = .ok tree ∧
      tree.spelling "" = (TokenList.ofText "SELECT (1) -- c\n\nFROM t").spelling "" := by
  rcases Tree.ofTokens_shows (.ofText "SELECT (1) -- c\n\nFROM t") with ⟨tree, _, isOk, _⟩
  have clean : tree.hasError = false := by
    have found : (Tree.ofText "SELECT (1) -- c\n\nFROM t").toOption.map Tree.hasError =
        some false := by
      decide +kernel
    rw [show Tree.ofText "SELECT (1) -- c\n\nFROM t" = .ok tree from isOk] at found
    exact Option.some.inj found
  refine ⟨tree, isOk, (ofText_spelling_eq_iff isOk ?_ clean ?_ "").mpr ?_⟩ <;> decide +kernel

/-- A comment that dangles leaves its group. -/
theorem ofText_spelling_ne :
    (TokenList.ofText "SELECT (1\n-- c\n)\nSELECT 2").unfinished = false ∧
      (Tree.ofText "SELECT (1\n-- c\n)\nSELECT 2").toOption.map Tree.hasError = some false ∧
      (TokenList.ofText "SELECT (1\n-- c\n)\nSELECT 2").spelling "" =
        "SELECT (1\n-- c\n)\nSELECT 2" ∧
      (Tree.ofText "SELECT (1\n-- c\n)\nSELECT 2").toOption.map (Tree.spelling · "") =
        some "SELECT (1\n)\n-- c\nSELECT 2" := by
  refine ⟨?_, ?_, ?_, ?_⟩ <;> decide +kernel

end Tree

end SqlLayout
