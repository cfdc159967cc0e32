import Mathlib.Data.List.Forall2
import SqlLayout.Proofs.Formatting
import SqlLayout.Proofs.Grammar.Reserved

/-!
# Names keep their spelling

Every piece of a formatted script is written for some of its tokens, one after the other. Without
brackets around names, a piece for a word that is not reserved is the word as it is spelled,
wherever it stands; only a colon that makes it a label or a host variable is written together with
it. A reserved word is written as a keyword also where it serves as a name, such as behind a period.
-/

namespace SqlLayout

variable {kind : NodeKind} {text : String}

/-- A word that is not reserved. -/
def Token.isName (token : Token) : Bool :=
  token.kind == .word && !Keyword.isReserved (Text.upper token.value)

/-- If a name is among the tokens that a piece is written for, the piece is that name, with a colon
at most. -/
def Token.KeepsNames (tokens : List Token) (piece : String) : Prop :=
  ∀ token ∈ tokens, token.isName = true →
    tokens = [token] ∧ piece = token.value ∨
      ∃ colon : Token, colon.kind = .colon ∧
        (tokens = [token, colon] ∧ piece = token.value ++ ":" ∨
          tokens = [colon, token] ∧ piece = ":" ++ token.value)

/-- A list is divided among pieces, in order, and each piece fits its part. -/
def Divided {α β : Type} (fits : List α → β → Prop) (list : List α) (pieces : List β) : Prop :=
  ∃ groups, groups.flatten = list ∧ List.Forall₂ fits groups pieces

namespace Divided

variable {α β : Type} {fits : List α → β → Prop} {list others : List α} {pieces more : List β}

theorem nil : Divided fits [] [] :=
  ⟨[], rfl, .nil⟩

theorem single {piece : β} (isPiece : fits list piece) : Divided fits list [piece] :=
  ⟨[list], by simp, .cons isPiece .nil⟩

theorem append (first : Divided fits list pieces) (second : Divided fits others more) :
    Divided fits (list ++ others) (pieces ++ more) := by
  obtain ⟨front, rfl, here⟩ := first
  obtain ⟨back, rfl, behind⟩ := second
  exact ⟨front ++ back, List.flatten_append, List.rel_append here behind⟩

end Divided

/-! ### Pieces and the symbols that they are written for -/

namespace Symbol

/-- If a name is among the symbols that a piece is written for, the piece is that name, with a colon
at most. -/
def KeepsNames (symbols : List Symbol) (piece : String) : Prop :=
  ∀ value, .token .word value ∈ symbols → Keyword.isReserved (Text.upper value) = false →
    symbols = [.token .word value] ∧ piece = value ∨
      symbols = [.token .word value, .token .colon ":"] ∧ piece = value ++ ":" ∨
      symbols = [.token .colon ":", .token .word value] ∧ piece = ":" ++ value

theorem keepsNames_of_reserved {symbols : List Symbol}
    (reserved : ∀ value, .token .word value ∈ symbols →
      Keyword.isReserved (Text.upper value) = true)
    (piece : String) : KeepsNames symbols piece :=
  fun value member isName => absurd ((reserved value member).symm.trans isName) (by decide)

theorem keepsNames_nil (piece : String) : KeepsNames [] piece :=
  keepsNames_of_reserved (fun _ member => absurd member List.not_mem_nil) piece

theorem keepsNames_word (text : String) : KeepsNames [.token .word text] text := by
  intro value member _
  obtain rfl : value = text := by simpa using member
  exact .inl ⟨rfl, rfl⟩

theorem keepsNames_ofLabel (text : String) : KeepsNames (ofLabel text) text := by
  unfold ofLabel
  split
  next name cut =>
    have whole : text = String.ofList name.reverse ++ ":" := by
      have reversed := congrArg List.reverse cut
      rw [← String.toList_inj]
      simpa using reversed
    intro value member _
    obtain rfl : value = String.ofList name.reverse := by simpa using member
    exact .inr (.inl ⟨rfl, whole⟩)
  next => exact keepsNames_word text

theorem keepsNames_ofName (text : String) : KeepsNames (ofName text) text := by
  unfold ofName
  split
  next => exact keepsNames_of_reserved (by simp) text
  next name _ cut =>
    have whole : text = ":" ++ String.ofList name := by
      rw [← String.toList_inj, cut]
      simp
    intro value member _
    obtain rfl : value = String.ofList name := by simpa using member
    exact .inr (.inr ⟨rfl, whole⟩)
  next => exact keepsNames_word text

/-- Symbols are divided among pieces, in order, and names keep their spelling. -/
abbrev WrittenAs (symbols : List Symbol) (pieces : List String) : Prop :=
  Divided KeepsNames symbols pieces

theorem WrittenAs.silent (pieces : List String) : WrittenAs [] pieces := by
  induction pieces with
  | nil => exact .nil
  | cons piece pieces ih => exact (Divided.single (keepsNames_nil piece)).append ih

end Symbol

/-! ### The pieces of an outline -/

theorem NodeKind.filter_symbols (content : kind.isTrivia = false) (plain : kind.isParens = false)
    (kept : kind ≠ .other ∨ text ≠ ")") :
    (kind.symbols text).filter Symbol.isContent = kind.tokens text := by
  rw [symbols, if_neg (by simp [content]), if_neg (by simp [plain]), if_neg (not_and_or.mpr kept)]
  refine List.filter_eq_self.mpr fun symbol member => ?_
  obtain ⟨_, _, rfl⟩ := eq_token_of_mem_tokens member
  rfl

/-- A leaf keeps the names in it, if only reserved words are written as keywords. -/
theorem NodeKind.keepsNames_leaf {wording : Wording} (unbracketed : wording.bracketNames = false)
    (isLeaf : kind.isLeaf = true)
    (reserved : kind.isRespelled = true → Keyword.isReserved (Text.upper text) = true) :
    Symbol.KeepsNames ((kind.symbols text).filter Symbol.isContent) (wording.leaf kind text) := by
  cases kind
  case lineComment | slashComment | blockComment | whiteSpace => exact Symbol.keepsNames_nil _
  case other =>
    by_cases stray : text = ")"
    · subst stray
      exact Symbol.keepsNames_nil _
    · rw [filter_symbols rfl rfl (.inr stray)]
      have plain : wording.leaf .other text = text := by
        simp [Wording.leaf, Wording.plainName, unbracketed]
      rw [plain]
      exact Symbol.keepsNames_ofName text
  case label =>
    rw [filter_symbols rfl rfl (.inl (by decide))]
    exact Symbol.keepsNames_ofLabel text
  case functionKeyword =>
    rw [filter_symbols rfl rfl (.inl (by decide))]
    exact Symbol.keepsNames_word text
  case otherKeyword | dataTypeKeyword | alphaOperator =>
    rw [filter_symbols rfl rfl (.inl (by decide))]
    refine Symbol.keepsNames_of_reserved (fun value member => ?_) _
    obtain rfl : value = text := by simpa [tokens, NodeKind.isLeaf, tokenKind] using member
    exact reserved rfl
  case scopeResolutionOperator =>
    rw [filter_symbols rfl rfl (.inl (by decide))]
    refine Symbol.keepsNames_of_reserved (fun value member => ?_) _
    simp only [tokens, Symbol.ofScope] at member
    split at member <;> simp at member
  case string | nationalString | quotedString | bracketName | comma | period | semicolon |
    asterisk | equalsSign
      | otherOperator | number | binaryValue | monetaryValue | pseudoName =>
    rw [filter_symbols rfl rfl (.inl (by decide))]
    exact Symbol.keepsNames_of_reserved (by simp [tokens, NodeKind.isLeaf, tokenKind]) _
  all_goals exact absurd isLeaf (by decide)

namespace Outline

variable {attributes : Attributes} {children : List Outline}

/-- Only reserved words are written as keywords. -/
def Reserves (outline : Outline) : Prop :=
  ∀ node ∈ outline.nodes, node.kind.isRespelled = true →
    Keyword.isReserved (Text.upper node.text) = true

theorem Reserves.child {id : NodeId}
    (reserves : Reserves (.node id kind text attributes children)) :
    ∀ child ∈ children, child.Reserves := by
  intro child member node inside
  refine reserves node ?_
  rw [nodes_eq]
  exact List.mem_cons_of_mem _ (List.mem_flatMap_of_mem member inside)

theorem Reserves.own {id : NodeId} (reserves : Reserves (.node id kind text attributes children)) :
    kind.isRespelled = true → Keyword.isReserved (Text.upper text) = true := by
  have here := reserves (.node id kind text attributes children)
  rw [nodes_eq] at here
  exact here List.mem_cons_self

theorem isReserved_of_compound (fits : Fits .compoundKeyword attributes children)
    (regular : ∀ child ∈ children, child.Regular) (clean : Symbol.Clean (symbolsOfList children))
    (reserves : ∀ child ∈ children, child.Reserves) {value : String}
    (member : .token .word value ∈ symbolsOfList children) :
    Keyword.isReserved (Text.upper value) = true := by
  rw [symbolsOfList_eq] at member
  obtain ⟨simple, _, phrased⟩ := fits.worded rfl
  obtain ⟨⟨id, kind, text, attributes, below⟩, among, inside⟩ := List.mem_flatMap.mp member
  have isLeaf : kind.isLeaf = true := fits.flat rfl _ among
  obtain rfl : below = [] := by
    obtain ⟨_, below, _⟩ := regular _ among
    exact below.childless isLeaf
  rw [symbols_childless id text attributes isLeaf] at inside
  cases isTrivia : kind.isTrivia with
  | true => simp [NodeKind.symbols, isTrivia] at inside
  | false =>
    obtain ⟨isKeyword, _⟩ :=
      (phrased (spaceless_of_clean clean)).keywords _ (List.mem_map_of_mem among) isTrivia
    obtain rfl : kind = .otherKeyword := isKeyword
    have same : Symbol.token .word value = .token .word text := List.mem_singleton.mp inside
    obtain ⟨_, rfl⟩ := Symbol.token.inj same
    exact (reserves _ among).own rfl

theorem writtenAs_piecesOfList {wording : Wording} {outlines : List Outline}
    (each : ∀ outline ∈ outlines,
      Symbol.WrittenAs (outline.symbols.filter Symbol.isContent) (outline.pieces wording)) :
    Symbol.WrittenAs ((symbolsOfList outlines).filter Symbol.isContent)
      (piecesOfList wording (fun _ => true) outlines) := by
  induction outlines with
  | nil =>
    rw [piecesOfList]
    exact .nil
  | cons first rest ih =>
    obtain ⟨here, later⟩ := List.forall_mem_cons.mp each
    rw [symbolsOfList_cons, List.filter_append, piecesOfList, if_pos rfl]
    exact here.append (ih later)

/-- The symbols of an outline are written as its pieces, and names keep their spelling. -/
theorem writtenAs_pieces {wording : Wording} (unbracketed : wording.bracketNames = false)
    {outline : Outline} (regular : outline.Regular) (clean : Symbol.Clean outline.symbols)
    (reserves : outline.Reserves) :
    Symbol.WrittenAs (outline.symbols.filter Symbol.isContent) (outline.pieces wording) := by
  induction regular with
  | @node id kind text attributes children bare fits below ih =>
    have inside := writtenAs_piecesOfList fun child member => ih child member
      (clean.of_subset fun _ => mem_symbols_of_child member) (reserves.child child member)
    rw [pieces]
    cases isLeaf : kind.isLeaf with
    | true =>
      obtain rfl : children = [] := fits.childless isLeaf
      rw [symbols_childless id text attributes isLeaf]
      split
      next isBlank =>
        subst isBlank
        exact .nil
      next => exact .single (NodeKind.keepsNames_leaf unbracketed isLeaf reserves.own)
    | false =>
      obtain rfl : text = "" := by simpa [isLeaf] using bare
      have written : kind ≠ .whiteSpace := by
        rintro rfl
        cases isLeaf
      rw [if_neg written, if_neg (by decide), symbols_node, NodeKind.symbols_of_isInner isLeaf,
        List.filter_append, List.filter_append]
      split
      next isCompound =>
        subst isCompound
        obtain ⟨simple, isSimple, _⟩ := fits.worded rfl
        rw [isSimple]
        -- One piece stands for all the words of the keyword; the comments among them come behind
        -- it.
        refine Divided.append (.single ?_) (Symbol.WrittenAs.silent _)
        refine Symbol.keepsNames_of_reserved (fun value member => ?_) _
        have words : Symbol.Clean (symbolsOfList children) := by
          refine clean.of_subset ?_
          rw [symbols_node]
          simp
        exact isReserved_of_compound fits below words reserves.child (List.mem_of_mem_filter member)
      next notCompound =>
        rw [NodeKind.beginning, NodeKind.ending]
        split
        next =>
          have opening : Symbol.WrittenAs [.opening] ["("] :=
            .single (Symbol.keepsNames_of_reserved (by simp) "(")
          exact (opening.append inside).append (Symbol.WrittenAs.silent [")"])
        next notGroup => simpa using inside

end Outline

theorem Tree.Stores.reserves {tree : Tree} {parent : Option NodeId} {outline : Outline}
    (stored : tree.Stores parent outline)
    (reserved : ∀ id, (tree.kind id).isRespelled = true →
      Keyword.isReserved (Text.upper (tree.text id)) = true) :
    outline.Reserves := by
  induction outline generalizing parent with
  | node id kind text attributes children ih =>
    have here := stored.node_eq
    intro node member
    rw [Outline.nodes_eq] at member
    rcases List.mem_cons.mp member with rfl | below
    · simpa [Tree.kind, Tree.text, here, Outline.text] using reserved id
    · obtain ⟨child, among, inside⟩ := List.mem_flatMap.mp below
      exact ih child among (stored.child child among) node inside

/-! ### Tokens -/

theorem exists_of_flatten_eq_map {α β : Type} {image : α → β} {groups : List (List β)}
    {list : List α} (whole : groups.flatten = list.map image) :
    ∃ parts : List (List α), parts.flatten = list ∧ parts.map (List.map image) = groups := by
  induction groups generalizing list with
  | nil =>
    obtain rfl : list = [] := by simpa using whole.symm
    exact ⟨[], rfl, rfl⟩
  | cons group groups ih =>
    obtain ⟨first, rest, rfl, rfl, later⟩ := List.append_eq_map_iff.mp whole
    obtain ⟨parts, rfl, rfl⟩ := ih later.symm
    exact ⟨first :: parts, rfl, rfl⟩

namespace Token

def symbol (token : Token) : Symbol :=
  if token.kind = .openParens then .opening else .token token.kind token.value

theorem filter_symbols (token : Token) :
    token.symbols.filter Symbol.isContent = if token.isContent then [token.symbol] else [] := by
  rw [symbols, isContent, symbol]
  cases isTrivia : token.kind.isTrivia with
  | true => rfl
  | false =>
    rw [if_neg (by decide)]
    split
    next isOpening => simp [isOpening, Symbol.isContent]
    next isClosing => simp [isClosing, Symbol.isContent]
    next notOpening notClosing =>
      rw [if_neg notOpening, if_pos (by simpa using notClosing)]
      rfl

theorem filter_symbolsOf (tokens : List Token) :
    (symbolsOf tokens).filter Symbol.isContent = (tokens.filter isContent).map symbol := by
  rw [symbolsOf, List.filter_flatMap, ← List.flatMap_pure_eq_map, flatMap_filter_eq]
  exact List.flatMap_congr fun token _ => token.filter_symbols

theorem eq_of_symbol {token : Token} {kind : TokenKind} {value : String}
    (same : token.symbol = .token kind value) : token.kind = kind ∧ token.value = value := by
  rw [symbol] at same
  split at same
  · cases same
  · exact Symbol.token.inj same

theorem keepsNames_of_symbols {tokens : List Token} {piece : String}
    (keeps : Symbol.KeepsNames (tokens.map symbol) piece) : KeepsNames tokens piece := by
  intro token member named
  obtain ⟨isWord, unreserved⟩ : token.kind = .word ∧
      Keyword.isReserved (Text.upper token.value) = false := by
    simpa [isName] using named
  have own : token.symbol = .token .word token.value := by
    simp [symbol, isWord]
  -- A token with the symbol of a colon is another one.
  have other : ∀ colon : Token, colon.symbol = .token .colon ":" → token ≠ colon := by
    rintro colon isColon rfl
    exact absurd (isWord.symm.trans (eq_of_symbol isColon).1) (by decide)
  rcases keeps token.value (own ▸ List.mem_map_of_mem member) unreserved with
    ⟨alone, text⟩ | ⟨label, text⟩ | ⟨host, text⟩
  · obtain ⟨first, rfl, _⟩ := List.map_eq_singleton_iff.mp alone
    obtain rfl := List.mem_singleton.mp member
    exact .inl ⟨rfl, text⟩
  · obtain ⟨first, rest, rfl, _, behind⟩ := List.map_eq_cons_iff.mp label
    obtain ⟨colon, rfl, isColon⟩ := List.map_eq_singleton_iff.mp behind
    obtain rfl : token = first := by simpa [other colon isColon] using member
    exact .inr ⟨colon, (eq_of_symbol isColon).1, .inl ⟨rfl, text⟩⟩
  · obtain ⟨colon, rest, rfl, isColon, behind⟩ := List.map_eq_cons_iff.mp host
    obtain ⟨last, rfl, _⟩ := List.map_eq_singleton_iff.mp behind
    obtain rfl : token = last := by simpa [other colon isColon] using member
    exact .inr ⟨colon, (eq_of_symbol isColon).1, .inr ⟨rfl, text⟩⟩

/-- Tokens of content are divided among pieces as their symbols are. -/
theorem exists_of_writtenAs {tokens : List Token} {pieces : List String}
    (written : Symbol.WrittenAs (tokens.map symbol) pieces) :
    ∃ groups : List (List Token), groups.flatten = tokens ∧
      List.Forall₂ KeepsNames groups pieces := by
  obtain ⟨groups, whole, keeps⟩ := written
  obtain ⟨parts, flat, rfl⟩ := exists_of_flatten_eq_map whole
  exact ⟨parts, flat, (List.forall₂_map_left_iff.mp keeps).imp fun _ _ => keepsNames_of_symbols⟩

end Token

namespace Built

variable {tokens : List Token} {draft : Draft}

theorem filter_symbols (built : Built tokens draft) (faithful : ∀ token ∈ tokens, token.Faithful) :
    draft.outline.symbols.filter Symbol.isContent =
      (tokens.filter Token.isContent).map Token.symbol := by
  obtain ⟨_, trace⟩ := built.trace_outline faithful
  rw [trace.filter (fun _ _ => rfl) (.inr rfl), Token.filter_symbolsOf]

theorem clean_symbols (built : Built tokens draft) (faithful : ∀ token ∈ tokens, token.Faithful)
    (clean : ∀ token ∈ tokens, token.IsClean) : Symbol.Clean draft.outline.symbols := by
  intro value member
  have among : .token .word value ∈ draft.outline.symbols.filter Symbol.isContent :=
    List.mem_filter.mpr ⟨member, rfl⟩
  rw [built.filter_symbols faithful] at among
  obtain ⟨token, inside, same⟩ := List.mem_map.mp among
  obtain ⟨isWord, rfl⟩ := Token.eq_of_symbol same
  exact (clean token (List.mem_of_mem_filter inside) isWord).1

end Built

/-! ### Scripts -/

/-- Without brackets around names, a script without regions of kept text is formatted as pieces that
are written for its tokens in order, and every word that is not reserved keeps its spelling, behind
a period or not and whatever is chosen for keywords. -/
theorem format_keeps_names (style : Style) (unbracketed : style.bracketNames = false)
    (script warning : String) (quiet : (TokenList.ofText script).Quiet) :
    ∃ tree text pieces groups, Tree.ofText script = .ok tree ∧
      format style script warning =
        .ok { text := tree.warningText warning ++ text, parseError := tree.hasError } ∧
      style.Spaced pieces text ∧
      groups.flatten = (TokenList.ofText script).tokens.filter Token.isContent ∧
      List.Forall₂ Token.KeepsNames groups pieces := by
  obtain ⟨tree, draft, isOk, shown, built⟩ := Tree.ofTokens_shows (.ofText script)
  have faithful := TokenList.faithful_ofText script
  obtain ⟨text, isText, spaced⟩ :=
    shown.format_pieces built.sound (built.quiet faithful quiet) style warning
  have isClean := TokenList.isClean_ofText script
  have reserves := shown.stores.reserves (Tree.ofTokens_reserves isClean isOk)
  have plain : style.wording.bracketNames = false := unbracketed
  have written := Outline.writtenAs_pieces plain built.sound.outline_regular
    (built.clean_symbols faithful isClean) reserves
  rw [built.filter_symbols faithful] at written
  obtain ⟨groups, whole, keeps⟩ := Token.exists_of_writtenAs written
  exact ⟨tree, text, _, groups, isOk, format_eq_ok isOk isText, spaced, whole, keeps⟩

theorem format_keeps_names_example :
    (Style.bracketNames { upperKeywords := false } = false ∧
        (TokenList.ofText "again: select t.Name, t.Key, :Limit from dbo.Items t").Quiet) ∧
      ∃ tree text pieces groups,
        Tree.ofText "again: select t.Name, t.Key, :Limit from dbo.Items t" = .ok tree ∧
        format { upperKeywords := false } "again: select t.Name, t.Key, :Limit from dbo.Items t"
          defaultWarning =
          .ok { text := tree.warningText defaultWarning ++ text, parseError := tree.hasError } ∧
        Style.Spaced { upperKeywords := false } pieces text ∧
        groups.flatten =
          (TokenList.ofText "again: select t.Name, t.Key, :Limit from dbo.Items t").tokens.filter
            Token.isContent ∧
        List.Forall₂ Token.KeepsNames groups pieces :=
  have quiet : (TokenList.ofText "again: select t.Name, t.Key, :Limit from dbo.Items t").Quiet := by
    decide +kernel
  ⟨⟨rfl, quiet⟩, format_keeps_names { upperKeywords := false } rfl _ defaultWarning quiet⟩

/-- A reserved word is written as a keyword also behind a period. -/
theorem format_respells_reserved :
    Style.bracketNames {} = false ∧ (TokenList.ofText "SELECT t.Key FROM t").Quiet ∧
      [(.period, "."), (.word, "Key")] <:+:
        (TokenList.ofText "SELECT t.Key FROM t").tokens.map
          (fun token => (token.kind, token.value)) ∧
      Keyword.isReserved (Text.upper "Key") = true ∧
      format {} "SELECT t.Key FROM t" defaultWarning =
        .ok { text := "SELECT\n\tt.KEY\nFROM\n\tt\n", parseError := false } := by
  refine ⟨?_, ?_, ?_, ?_, ?_⟩ <;> decide +kernel

end SqlLayout
