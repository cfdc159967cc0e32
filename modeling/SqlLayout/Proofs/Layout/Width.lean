import SqlLayout.Proofs.Formatting
import SqlLayout.Proofs.Layout.Rows

/-!
# The width of formatted text

A script whose quotations and comments hold neither tabs nor line breaks is laid out in lines that
are as wide as they are measured. A line with more than one piece is then no wider than the style
allows, unless it was moved behind an opening parenthesis.
-/

namespace SqlLayout

open Text

/-! ### Leaves without tabs and line breaks -/

namespace Wording

variable {text : String} (wording : Wording)

theorem smooth_operator (smooth : Smooth text) : Smooth (wording.operator text) := by
  unfold operator
  split
  · exact smooth.upper
  · exact smooth.lower

theorem smooth_keyword (smooth : Smooth text) : Smooth (wording.keyword text) := by
  have spellings : ∀ entry ∈ Keyword.preferredSpellings, Smooth entry.2 := by decide +kernel
  refine wording.smooth_operator ?_
  cases found :
      if wording.preferredKeywords then Keyword.preferred? (Text.upper text) else none with
  | none => exact smooth
  | some spelling =>
    split at found
    · obtain ⟨front, back, whole, _⟩ := List.lookup_eq_some_iff.mp found
      exact spellings (Text.upper text, spelling) (by simp [whole])
    · cases found

theorem smooth_quoteBody {opening : String} {close : Char} (opens : Smooth opening)
    (closes : Smooth (String.ofList [close])) (smooth : Smooth text) :
    Smooth (quoteBody opening close text) := by
  have body : Smooth (String.ofList (doubleDelimiter close text.toList)) := by
    refine (smooth.append closes).of_subset ?_
    rw [String.toList_ofList, String.toList_append, String.toList_ofList]
    intro c member
    obtain ⟨d, within, isC⟩ := List.mem_flatMap.mp member
    split at isC <;> simp_all
  rw [quoteBody, String.ofList_append]
  exact opens.append (body.append closes)

theorem smooth_joinLines (tabless : '\t' ∉ text.toList) : Smooth (joinLines text) := by
  simp [Smooth, joinLines, tabless]

theorem smooth_plainName (smooth : Smooth text) : Smooth (wording.plainName text) := by
  unfold plainName
  split
  · exact smooth_quoteBody (by decide) (by decide) smooth
  · exact smooth

theorem dropBytes_subset {count : Nat} {chars rest : List Char}
    (cut : Span.dropBytes count chars = some rest) : rest ⊆ chars := by
  fun_induction Span.dropBytes count chars with
  | case1 => simp_all
  | case2 => cases cut
  | case3 count c chars _ ih => exact List.Subset.trans (ih cut) (List.subset_cons_self c chars)
  | case4 => cases cut

theorem smooth_leaf (kind : NodeKind) (smooth : Smooth text) : Smooth (wording.leaf kind text) := by
  unfold leaf
  split
  · exact Smooth.append (by decide) (smooth_joinLines smooth.1)
  · exact Smooth.append (by decide) (smooth_joinLines smooth.1)
  · exact (Smooth.append (by decide) smooth).append (by decide)
  · exact smooth_quoteBody (by decide) (by decide) smooth
  · exact smooth_quoteBody (by decide) (by decide) smooth
  · exact smooth_quoteBody (by decide) (by decide) smooth
  · exact smooth_quoteBody (by decide) (by decide) smooth
  · decide
  · exact wording.smooth_operator smooth
  · exact wording.smooth_operator smooth
  · exact wording.smooth_operator smooth
  · exact wording.smooth_operator smooth
  · exact wording.smooth_operator smooth
  · exact wording.smooth_operator smooth
  · exact wording.smooth_operator smooth
  · exact wording.smooth_keyword smooth
  · exact wording.smooth_keyword smooth
  · exact wording.smooth_keyword smooth
  · exact wording.smooth_plainName smooth
  · exact smooth.lower
  · refine Smooth.append (by decide) (smooth.of_subset ?_).upper
    rw [String.toList_ofList]
    cases cut : Span.dropBytes 2 text.toList with
    | none => exact List.nil_subset _
    | some rest => exact dropBytes_subset cut
  · exact smooth

/-- A comment that runs to the end of its line is written without its line break. -/
theorem smooth_leaf_of_lineComment {kind : NodeKind}
    (isLine : kind = .lineComment ∨ kind = .slashComment) (tabless : '\t' ∉ text.toList) :
    Smooth (wording.leaf kind text) := by
  rcases isLine with rfl | rfl <;> exact Smooth.append (by decide) (smooth_joinLines tabless)

end Wording

/-! ### Symbols without tabs and line breaks -/

/-- A quotation or a comment without tabs, and without line breaks but at the end of a comment that
runs to the end of its line. -/
def Token.Smooth (token : Token) : Prop :=
  token.kind.isSolid = false → ('\t' ∈ token.value.toList → token.kind = .whiteSpace) ∧
    ('\n' ∈ token.value.toList → token.kind ∈ [.whiteSpace, .lineComment, .slashComment])

instance (token : Token) : Decidable token.Smooth :=
  inferInstanceAs (Decidable (_ → _))

/-- No quotation and no comment holds a tab or a line break, but at its end. -/
def TokenList.Smooth (list : TokenList) : Prop :=
  ∀ token ∈ list.tokens, token.Smooth

instance (list : TokenList) : Decidable list.Smooth :=
  inferInstanceAs (Decidable (∀ token ∈ list.tokens, _))

/-- A symbol whose leaf is written without tabs and line breaks. A word has no spaces either. -/
def Symbol.Smooth : Symbol → Prop
  | token kind value => Text.Smooth value ∧ (kind = .word → ' ' ∉ value.toList)
  | trivia kind text => kind = .whiteSpace ∨
      '\t' ∉ text.toList ∧ ('\n' ∈ text.toList → kind = .lineComment ∨ kind = .slashComment)
  | opening | closing => True

theorem Token.Smooth.symbols {token : Token} (smooth : token.Smooth)
    (solid : token.kind.isSolid = true → ∀ c ∈ token.value.toList, isBlank c = false) :
    ∀ symbol ∈ token.symbols, symbol.Smooth := by
  obtain ⟨kind, value, span⟩ := token
  unfold Token.symbols
  cases trivia : kind.isTrivia with
  | true =>
    rw [if_pos rfl, List.forall_mem_singleton]
    cases kind with
    | whiteSpace => exact .inl rfl
    | lineComment => exact .inr ⟨fun member => (nomatch (smooth rfl).1 member), fun _ => .inl rfl⟩
    | slashComment => exact .inr ⟨fun member => (nomatch (smooth rfl).1 member), fun _ => .inr rfl⟩
    | blockComment =>
      exact .inr ⟨fun member => (nomatch (smooth rfl).1 member),
        fun member => by simpa using (smooth rfl).2 member⟩
    | _ => cases trivia
  | false =>
    rw [if_neg (by decide)]
    have text : Text.Smooth value ∧ (kind = .word → ' ' ∉ value.toList) := by
      cases isSolid : kind.isSolid with
      | true =>
        exact ⟨smooth_of_not_isBlank (solid isSolid),
          fun _ member => absurd (solid isSolid _ member) (by decide)⟩
      | false =>
        obtain ⟨tabless, unbroken⟩ := smooth isSolid
        refine ⟨⟨fun member => ?_, fun member => ?_⟩, ?_⟩
        · rw [show kind = .whiteSpace from tabless member] at trivia
          cases trivia
        · have content :
              ∀ kind ∈ [TokenKind.whiteSpace, .lineComment, .slashComment],
                kind.isTrivia = true := by
            decide
          rw [content kind (unbroken member)] at trivia
          cases trivia
        · rintro rfl
          cases isSolid
    split
    · simp [Symbol.Smooth]
    · simp [Symbol.Smooth]
    · simpa [Symbol.Smooth] using text

theorem Built.smooth_symbols {list : TokenList} {draft : Draft} (built : Built list.tokens draft)
    (faithful : ∀ token ∈ list.tokens, token.Faithful)
    (smooth : ∀ token ∈ list.tokens, ∀ symbol ∈ token.symbols, symbol.Smooth) :
    ∀ symbol ∈ draft.outline.symbols, symbol.Smooth := by
  obtain ⟨_, trace⟩ := built.trace_outline faithful
  have source : ∀ symbol ∈ Token.symbolsOf list.tokens, symbol.Smooth := by
    intro symbol member
    obtain ⟨token, among, member⟩ := List.mem_flatMap.mp member
    exact smooth token among symbol member
  intro symbol member
  cases symbol with
  | token kind value =>
    have among : .token kind value ∈ draft.outline.symbols.filter Symbol.isContent :=
      List.mem_filter.mpr ⟨member, rfl⟩
    rw [trace.filter (fun _ _ => rfl) (.inr rfl)] at among
    exact source _ (List.mem_of_mem_filter among)
  | trivia kind text =>
    have among : (kind, text) ∈ draft.outline.symbols.filterMap Symbol.trivia? :=
      List.mem_filterMap.mpr ⟨_, member, rfl⟩
    rw [trace.trivia.mem_iff] at among
    obtain ⟨symbol, among, same⟩ := List.mem_filterMap.mp among
    have isTrivia : symbol = .trivia kind text := by
      cases symbol <;> simp_all [Symbol.trivia?]
    exact isTrivia ▸ source _ among
  | opening | closing => trivial

/-! ### Pieces without tabs and line breaks -/

namespace Symbol

variable {text : String}

theorem smooth_ofLabel (smooth : ∀ symbol ∈ ofLabel text, symbol.Smooth) : Text.Smooth text := by
  unfold ofLabel at smooth
  split at smooth
  next name cut =>
    have whole : text = String.ofList name.reverse ++ ":" := by
      have reversed := congrArg List.reverse cut
      rw [← String.toList_inj]
      simpa using reversed
    rw [whole]
    exact (smooth _ List.mem_cons_self).1.append (by decide)
  next => exact (smooth _ List.mem_cons_self).1

theorem smooth_ofName (smooth : ∀ symbol ∈ ofName text, symbol.Smooth) : Text.Smooth text := by
  unfold ofName at smooth
  split at smooth
  next cut =>
    have whole : text = ":" := by rw [← String.toList_inj, cut]; rfl
    rw [whole]
    decide
  next name _ cut =>
    have whole : text = ":" ++ String.ofList name := by
      rw [← String.toList_inj, cut]
      simp
    rw [whole]
    exact Text.Smooth.append (by decide) (smooth _ (List.mem_cons_of_mem _ List.mem_cons_self)).1
  next => exact (smooth _ List.mem_cons_self).1

theorem smooth_ofScope (smooth : ∀ symbol ∈ ofScope text, symbol.Smooth) : Text.Smooth text := by
  unfold ofScope at smooth
  split at smooth
  next first second cut =>
    have whole : text = String.ofList [first] ++ String.ofList second := by
      rw [← String.toList_inj, cut]
      simp
    rw [whole]
    exact (smooth _ List.mem_cons_self).1.append
      (smooth _ (List.mem_cons_of_mem _ List.mem_cons_self)).1
  next => exact (smooth _ List.mem_cons_self).1

end Symbol

namespace NodeKind

variable {kind : NodeKind} {text : String}

/-- A leaf of content has no tabs and line breaks if its tokens have none. -/
theorem smooth_of_tokens (isLeaf : kind.isLeaf = true)
    (smooth : ∀ symbol ∈ kind.tokens text, symbol.Smooth) : Text.Smooth text := by
  unfold tokens at smooth
  split at smooth
  · exact Symbol.smooth_ofLabel smooth
  · exact Symbol.smooth_ofName smooth
  · exact Symbol.smooth_ofScope smooth
  · rw [if_pos (by simp [isLeaf])] at smooth
    exact (smooth _ List.mem_cons_self).1

theorem smooth_leaf (wording : Wording) (isLeaf : kind.isLeaf = true) (written : kind ≠ .whiteSpace)
    (smooth : ∀ symbol ∈ kind.symbols text, symbol.Smooth) :
    Text.Smooth (wording.leaf kind text) := by
  unfold symbols at smooth
  split at smooth
  next =>
    obtain blank | ⟨tabless, unbroken⟩ := smooth _ List.mem_cons_self
    · exact absurd blank written
    · by_cases broken : '\n' ∈ text.toList
      · exact wording.smooth_leaf_of_lineComment (unbroken broken) tabless
      · exact wording.smooth_leaf kind ⟨tabless, broken⟩
  · split at smooth
    next parens =>
      have plain : kind.isParens = false := by
        revert isLeaf
        cases kind <;> decide
      rw [plain] at parens
      cases parens
    · split at smooth
      next stray =>
        rw [stray.1, stray.2]
        exact wording.smooth_leaf .other (by decide)
      · exact wording.smooth_leaf kind (smooth_of_tokens isLeaf smooth)

end NodeKind

namespace Outline

theorem smooth_piecesOfList {wording : Wording} {outlines : List Outline}
    (each : ∀ outline ∈ outlines, ∀ piece ∈ outline.pieces wording, Text.Smooth piece)
    (selects : NodeKind → Bool) :
    ∀ piece ∈ piecesOfList wording selects outlines, Text.Smooth piece := by
  induction outlines with
  | nil => simp [piecesOfList]
  | cons first rest ih =>
    obtain ⟨here, later⟩ := List.forall_mem_cons.mp each
    rw [piecesOfList]
    split
    · exact List.forall_mem_append.mpr ⟨here, ih later⟩
    · exact ih later

theorem spaceless {outlines : List Outline}
    (smooth : ∀ outline ∈ outlines, ∀ symbol ∈ outline.symbols, symbol.Smooth) :
    Spaceless (outlines.map part) := by
  refine spaceless_of_clean fun value member => ?_
  rw [symbolsOfList_eq] at member
  obtain ⟨outline, among, inside⟩ := List.mem_flatMap.mp member
  exact notMem_upper (by decide) ((smooth outline among _ inside).2 rfl)

theorem smooth_of_phrased {simple : String} {parts : List (NodeKind × String)}
    (phrased : Phrased simple parts) : Text.Smooth simple := by
  rw [phrased.text]
  refine Text.Smooth.intercalate (by decide) fun word member => ?_
  obtain ⟨part, content, rfl⟩ := List.mem_map.mp member
  obtain ⟨member, content⟩ := List.mem_filter.mp content
  have plain := (phrased.keywords part member (by simpa using content)).2
  simp only [Keyword.isPlain, Bool.and_eq_true, List.all_eq_true] at plain
  exact ⟨fun tab => absurd (plain.2 _ tab) (by decide), fun lineEnd =>
    absurd (plain.2 _ lineEnd) (by decide)⟩

/-- The pieces of a document have no tabs and line breaks if its symbols have none. -/
theorem smooth_pieces (wording : Wording) {outline : Outline} (regular : outline.Regular)
    (smooth : ∀ symbol ∈ outline.symbols, symbol.Smooth) :
    ∀ piece ∈ outline.pieces wording, Text.Smooth piece := by
  induction outline with
  | node id kind text attributes children ih =>
    obtain ⟨_, fits, below⟩ := regular
    have own : ∀ symbol ∈ kind.symbols text, symbol.Smooth := by
      intro symbol member
      refine smooth symbol ?_
      rw [symbols_node]
      simp [member]
    have inside : ∀ child ∈ children, ∀ symbol ∈ child.symbols, symbol.Smooth :=
      fun child member symbol among => smooth symbol (mem_symbols_of_child member among)
    have each : ∀ child ∈ children, ∀ piece ∈ child.pieces wording, Text.Smooth piece :=
      fun child member => ih child member (below child member) (inside child member)
    rw [pieces]
    split
    · simp
    next written =>
      split
      next isLeaf =>
        exact List.forall_mem_singleton.mpr (NodeKind.smooth_leaf wording isLeaf written own)
      next =>
        split
        next isCompound =>
          refine List.forall_mem_append.mpr ⟨?_, smooth_piecesOfList each _⟩
          obtain ⟨simple, isSimple, phrased⟩ := fits.worded isCompound
          simpa [isSimple] using
            wording.smooth_keyword (smooth_of_phrased (phrased (spaceless inside)))
        next =>
          split
          · exact List.forall_mem_cons.mpr ⟨by decide, List.forall_mem_append.mpr
              ⟨smooth_piecesOfList each _, List.forall_mem_singleton.mpr (by decide)⟩⟩
          · exact smooth_piecesOfList each _

end Outline

/-! ### Scripts -/

namespace Tree

variable {tree : Tree} {draft : Draft}

theorem line_opening (tree : Tree) (style : Style) (warning : String) :
    (tree.opening style warning).line = .start := by
  unfold opening
  split <;> rfl

/-- Without a region of kept text a document is laid out in rows that may follow each other. -/
theorem Shows.format_rows (shown : tree.Shows draft) (sound : draft.Sound)
    (quiet : draft.outline.Quiet) {style : Style} (plain : style.Plain)
    (smooth : ∀ piece ∈ draft.outline.pieces style.wording, Text.Smooth piece) (warning : String) :
    ∃ text rows, tree.format style warning = .ok (tree.warningText warning ++ text) ∧
      text.toList.splitOn '\n' = rows.map (Row.text style) ∧
      rows.flatMap Row.pieces = draft.outline.pieces style.wording ∧
      (∀ mark ∈ rows.flatten, mark.isKept = false) ∧ ([] :: rows).IsChain (Row.Follows style) := by
  obtain ⟨after, isOk, adds⟩ := Outline.lays_layOut style tree sound.outline_regular {}
    (tree.opening style warning)
  have free := tree.region_opening style warning
  have sets :=
    ((Writer.tracks_laid style tree).layOut sound.outline_regular isOk (quiet.spoken _)).trans
    (Writer.Spaces.refl after).settle.sets
  obtain ⟨region, marks, last, written, laid, _⟩ := sets free
  rw [line_opening] at laid
  -- The marks hold the pieces of the document, which are smooth.
  have isPieces : marks.filterMap Mark.piece? = draft.outline.pieces style.wording := by
    obtain ⟨_, others, same, isPieces, _⟩ :=
      ((adds quiet).before (Writer.puts_settle after style)).written free
    rw [written, List.append_cancel_right_eq] at same
    rwa [← same, List.reverse_reverse] at isPieces
  have smoothMarks : ∀ piece, .content piece ∈ marks → Text.Smooth piece := by
    intro piece member
    refine smooth piece ?_
    rw [← isPieces]
    exact List.mem_filterMap.mpr ⟨_, member, rfl⟩
  obtain ⟨rows, divide⟩ := laid.rows plain smoothMarks (.start style [])
  rw [List.nil_append] at divide
  refine ⟨String.join (marks.map (Mark.text style)), rows, ?_,
    divide.lines plain smoothMarks laid.unkept, divide.pieces.trans isPieces, ?_, divide.2.2.2⟩
  · rw [format_eq, shown.outline_eq, isOk, Except.map, ending, region,
      ← output_opening tree style warning, Writer.output, written]
    simp [Writer.output, String.join_append]
  · intro mark member
    obtain ⟨row, among, member⟩ := List.mem_flatten.mp member
    refine laid.unkept mark ?_
    rw [← divide.2.1]
    exact mem_intercalate_of_mem among member

end Tree

/-- A script without regions of kept text, whose quotations and comments hold neither tabs nor line
breaks, is formatted in lines that hold the pieces of its tree in order. Without the white space at
its end, a line with more than one piece is no wider than the style allows. The exception is a line
that was moved behind an opening parenthesis: it fits together with the line before it, both without
their indentation. -/
theorem format_lines (style : Style) (script warning : String)
    (quiet : (TokenList.ofText script).Quiet) (smooth : (TokenList.ofText script).Smooth)
    (plain : style.Plain) :
    ∃ tree text rows, Tree.ofText script = .ok tree ∧
      format style script warning =
        .ok { text := tree.warningText warning ++ text, parseError := tree.hasError } ∧
      text.toList.splitOn '\n' = rows.map (Row.text style) ∧
      rows.flatMap Row.pieces = (tree.outline Tree.root).pieces style.wording ∧
      (∀ mark ∈ rows.flatten, mark.isKept = false) ∧ ([] :: rows).IsChain (Row.Follows style) := by
  obtain ⟨tree, draft, isOk, shown, built⟩ := Tree.ofTokens_shows (.ofText script)
  have faithful := TokenList.faithful_ofText script
  have smoothSymbols := built.smooth_symbols faithful fun token member =>
    (smooth token member).symbols (TokenList.not_isBlank_ofText script token member)
  have smoothPieces := Outline.smooth_pieces style.wording built.sound.outline_regular smoothSymbols
  obtain ⟨text, rows, isText, rest⟩ :=
    shown.format_rows built.sound (built.quiet faithful quiet) plain
    smoothPieces warning
  exact ⟨tree, text, rows, isOk, format_eq_ok isOk isText, shown.outline_eq ▸ rest⟩

theorem format_lines_example :
    ((TokenList.ofText "SELECT (aaaaaaa bbbbbb, c)").Quiet ∧
        (TokenList.ofText "SELECT (aaaaaaa bbbbbb, c)").Smooth ∧ Style.Plain { maxWidth := 20 }) ∧
      ∃ tree text rows, Tree.ofText "SELECT (aaaaaaa bbbbbb, c)" = .ok tree ∧
        format { maxWidth := 20 } "SELECT (aaaaaaa bbbbbb, c)" defaultWarning =
          .ok { text := tree.warningText defaultWarning ++ text, parseError := tree.hasError } ∧
        text.toList.splitOn '\n' = rows.map (Row.text { maxWidth := 20 }) ∧
        rows.flatMap Row.pieces =
          (tree.outline Tree.root).pieces (Style.wording { maxWidth := 20 }) ∧
        (∀ mark ∈ rows.flatten, mark.isKept = false) ∧
        ([] :: rows).IsChain (Row.Follows { maxWidth := 20 }) :=
  have quiet : (TokenList.ofText "SELECT (aaaaaaa bbbbbb, c)").Quiet := by decide +kernel
  have smooth : (TokenList.ofText "SELECT (aaaaaaa bbbbbb, c)").Smooth := by decide +kernel
  have plain : Style.Plain { maxWidth := 20 } := by decide +kernel
  ⟨⟨quiet, smooth, plain⟩, format_lines { maxWidth := 20 } _ defaultWarning quiet smooth plain⟩

/-- A line that was moved behind an opening parenthesis can be wider than the style allows. -/
theorem format_too_wide :
    (TokenList.ofText "SELECT (aaaaaaa bbbbbb, c)").Quiet ∧
      (TokenList.ofText "SELECT (aaaaaaa bbbbbb, c)").Smooth ∧ Style.Plain { maxWidth := 20 } ∧
      format { maxWidth := 20 } "SELECT (aaaaaaa bbbbbb, c)" defaultWarning =
        .ok { text := "SELECT\n\t(\n\t\taaaaaaa bbbbbb\n\t\t,c\n\t\t)\n", parseError := false } ∧
      "\t\taaaaaaa bbbbbb".toList ∈
        "SELECT\n\t(\n\t\taaaaaaa bbbbbb\n\t\t,c\n\t\t)\n".toList.splitOn '\n' ∧
      Style.width { maxWidth := 20 } "\t\taaaaaaa bbbbbb".toList = 22 := by
  refine ⟨?_, ?_, ?_, ?_, ?_, ?_⟩ <;> decide +kernel

end SqlLayout
