import SqlLayout.Proofs.Draft.Trace
import SqlLayout.Proofs.Grammar.Document
import SqlLayout.Proofs.Token.Faithful
import SqlLayout.Proofs.Tree.Walk

/-!
# Reading a script keeps its source text

The tree of a script has the content of the script in the order of the script, and the blanks and
comments of the script, each once. Closing parentheses are left out: a group ends where its
container ends.
-/

namespace SqlLayout

/-- Whether a node of a kind holds content: it is neither a blank nor a comment, and it does not
stand for a closing parenthesis without a group. -/
def NodeKind.holdsContent (kind : NodeKind) (text : String) : Bool :=
  !kind.isTrivia && !(kind == .other && text == ")")

/-- Whether a token is neither a blank, a comment nor a closing parenthesis. -/
def Token.isContent (token : Token) : Bool :=
  !token.kind.isTrivia && token.kind != .closeParens

namespace Symbol

def contentChars (symbol : Symbol) : List Char :=
  if symbol.isContent then symbol.chars else []

theorem flatMap_contentChars (symbols : List Symbol) :
    symbols.flatMap contentChars = (symbols.filter isContent).flatMap chars := by
  induction symbols with
  | nil => rfl
  | cons first rest ih =>
    cases content : first.isContent <;> simp [contentChars, content, ih]

end Symbol

theorem flatMap_filter_eq {α β : Type} (list : List α) (selects : α → Bool) (read : α → List β) :
    (list.filter selects).flatMap read =
      list.flatMap fun element => if selects element then read element else [] := by
  induction list with
  | nil => rfl
  | cons first rest ih => cases selected : selects first <;> simp [selected, ih]

theorem NodeKind.contentChars_symbols (kind : NodeKind) (text : String) :
    (if kind.holdsContent text then (kind.ownText text).toList else []) =
      (kind.symbols text).flatMap Symbol.contentChars := by
  have group : kind.isParens = true → kind ≠ .other ∧ (kind.ownText text).toList = ['('] := by
    cases kind <;> simp [isParens, ownText]
  rw [holdsContent, symbols]
  cases trivia : kind.isTrivia with
  | true => simp [Symbol.contentChars, Symbol.isContent]
  | false =>
    cases parens : kind.isParens with
    | true =>
      obtain ⟨notOther, own⟩ := group parens
      simp [notOther, own, Symbol.contentChars, Symbol.isContent, Symbol.chars]
    | false =>
      by_cases stray : kind = .other ∧ text = ")"
      · simp [stray, Symbol.contentChars, Symbol.isContent]
      · have same : (kind.tokens text).flatMap Symbol.contentChars =
            (kind.tokens text).flatMap Symbol.chars := by
          refine List.flatMap_congr fun symbol member => ?_
          rcases eq_token_of_mem_tokens member with ⟨_, _, rfl⟩
          rfl
        rw [if_pos (by simpa using not_and_or.mp stray), if_neg (by simp),
          if_neg (by simp), if_neg stray, same, chars_tokens trivia parens]

theorem NodeKind.trivia_symbols (kind : NodeKind) (text : String) :
    (if kind.isTrivia then [(kind, text)] else []) =
      (kind.symbols text).flatMap fun symbol => symbol.trivia?.toList := by
  rw [symbols]
  split
  · simp [Symbol.trivia?]
  · split
    · simp [Symbol.trivia?]
    · split
      · simp [Symbol.trivia?]
      · refine (List.flatMap_eq_nil_iff.mpr fun symbol member => ?_).symm
        rcases eq_token_of_mem_tokens member with ⟨_, _, rfl⟩
        rfl

theorem Token.contentChars_symbols {token : Token} (faithful : token.Faithful) :
    token.symbols.flatMap Symbol.contentChars =
      if token.isContent then token.spelling.toList else [] := by
  rw [symbols, isContent]
  cases trivia : token.kind.isTrivia with
  | true => simp [Symbol.contentChars, Symbol.isContent]
  | false =>
    rw [if_neg (by simp)]
    split
    next isOpening =>
      rw [Faithful, isOpening] at faithful
      simp [isOpening, spelling, faithful, Symbol.contentChars, Symbol.isContent, Symbol.chars]
    next isClosing => simp [isClosing, Symbol.contentChars, Symbol.isContent]
    next notClosing =>
      rw [if_pos (by simpa using notClosing), List.flatMap_singleton]
      rfl

theorem Token.trivia_symbols (token : Token) :
    (token.symbols.flatMap fun symbol => symbol.trivia?.toList) =
      if token.kind.isTrivia then [(token.kind.leafKind, token.value)] else [] := by
  rw [symbols]
  split
  · simp [Symbol.trivia?]
  · split <;> simp [Symbol.trivia?]

/-! ### The content and the trivia of tokens -/

theorem Token.spelling_content {tokens : List Token} (faithful : ∀ token ∈ tokens, token.Faithful) :
    (String.join ((tokens.filter Token.isContent).map Token.spelling)).toList =
      ((symbolsOf tokens).filter Symbol.isContent).flatMap Symbol.chars := by
  rw [String.toList_join, List.flatMap_map, flatMap_filter_eq,
    ← Symbol.flatMap_contentChars, symbolsOf, List.flatMap_assoc]
  exact List.flatMap_congr fun token member =>
    (Token.contentChars_symbols (faithful token member)).symm

theorem Token.trivia_symbolsOf (tokens : List Token) :
    ((tokens.filter fun token => token.kind.isTrivia).map fun token =>
        (token.kind.leafKind, token.value)) = (symbolsOf tokens).filterMap Symbol.trivia? := by
  rw [List.filterMap_eq_flatMap_toList, symbolsOf, List.flatMap_assoc, ← List.flatMap_pure_eq_map,
    flatMap_filter_eq]
  exact List.flatMap_congr fun token _ => (Token.trivia_symbols token).symm

namespace Tree

variable {tree : Tree} {draft : Draft}

theorem Shows.content (shown : tree.Shows draft) :
    (String.join ((tree.entered.filter fun id => (tree.kind id).holdsContent (tree.text id)).map
      tree.ownText)).toList =
        (draft.outline.symbols.filter Symbol.isContent).flatMap Symbol.chars := by
  rw [String.toList_join, List.flatMap_map, flatMap_filter_eq, ← Symbol.flatMap_contentChars]
  exact shown.flatMap_entered NodeKind.contentChars_symbols rfl

theorem Shows.trivia (shown : tree.Shows draft) :
    ((tree.entered.filter fun id => (tree.kind id).isTrivia).map fun id =>
      (tree.kind id, tree.text id)) = draft.outline.symbols.filterMap Symbol.trivia? := by
  rw [List.filterMap_eq_flatMap_toList, ← List.flatMap_pure_eq_map, flatMap_filter_eq]
  exact shown.flatMap_entered NodeKind.trivia_symbols rfl

/-- Reading a script neither loses, repeats nor reorders content, and neither loses, repeats nor
changes a blank or a comment. -/
theorem ofText_conserves (script : String) :
    ∃ tree, Tree.ofText script = .ok tree ∧
      String.join ((tree.entered.filter fun id => (tree.kind id).holdsContent (tree.text id)).map
          tree.ownText) =
        String.join (((TokenList.ofText script).tokens.filter Token.isContent).map Token.spelling) ∧
      ((tree.entered.filter fun id => (tree.kind id).isTrivia).map fun id =>
          (tree.kind id, tree.text id)).Perm
        (((TokenList.ofText script).tokens.filter fun token => token.kind.isTrivia).map fun token =>
          (token.kind.leafKind, token.value)) := by
  obtain ⟨tree, draft, isOk, shown, built⟩ := Tree.ofTokens_shows (.ofText script)
  have faithful := TokenList.faithful_ofText script
  obtain ⟨abandoned, trace⟩ := built.trace_outline faithful
  refine ⟨tree, isOk, ?_, ?_⟩
  · rw [← String.toList_inj, shown.content, Token.spelling_content faithful,
      trace.filter (fun _ _ => rfl) (.inr rfl)]
  · rw [shown.trivia, Token.trivia_symbolsOf]
    exact trace.trivia

end Tree

end SqlLayout
