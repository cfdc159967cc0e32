import SqlLayout.Proofs.Layout.Wording
import SqlLayout.Proofs.RoundTrip

/-!
# Formatting keeps the tokens

A script that was read without errors is formatted as a text with the same tokens, up to the case of
keywords and numbers. Three things are needed for that. Each piece of the document is read back as
the tokens that it was written for. Pieces that could join have white space between them, apart from
what stands tight. And the parentheses of the script balance, since the layout closes every group.
-/

namespace SqlLayout

open Text Piece

/-! ### Compound keywords -/

theorem Text.ascii_intercalate {words : List String}
    (ascii : ∀ word ∈ words, ∀ c ∈ word.toList, c.toNat < 128) :
    ∀ c ∈ (" ".intercalate words).toList, c.toNat < 128 := by
  induction words with
  | nil => simp
  | cons first words ih =>
    rcases List.forall_mem_cons.mp ascii with ⟨here, later⟩
    cases words with
    | nil => simpa using here
    | cons second words =>
      rw [String.intercalate_cons_cons, String.toList_append, String.toList_append]
      refine List.forall_mem_append.mpr ⟨List.forall_mem_append.mpr ⟨here, ?_⟩, ih later⟩
      exact forall_mem_of_all (by decide)

theorem Writes.words {recase : Char → Char} (recases : Recases recase)
    {parts : List (NodeKind × String)} (some : parts ≠ [])
    (capital : ∀ part ∈ parts, Scan.isCapital (upper part.2).toList = true) :
    Writes (parts.map fun part => ⟨.word, part.2⟩)
      (String.ofList ((" ".intercalate (parts.map fun part => upper part.2)).toList.map recase))
        false := by
  induction parts with
  | nil => exact absurd rfl some
  | cons part parts ih =>
    rcases List.forall_mem_cons.mp capital with ⟨here, later⟩
    rcases Scan.isWord_of_isCapital here with ⟨isUpper, isLower, each⟩
    have ascii : ∀ c ∈ (upper part.2).toList, c.toNat < 128 := fun c inside => (each c inside).1
    have self : (upper part.2).toList.map Char.toUpper = (upper part.2).toList :=
      (List.map_congr_left fun c inside => (each c inside).2).trans (List.map_id _)
    have same : upper (String.ofList (upper part.2).toList) = upper part.2 := by
      rw [upper_of_ascii ascii, self, String.ofList_toList]
    have word :
        Writes [⟨.word, part.2⟩] (String.ofList ((upper part.2).toList.map recase)) false := by
      refine Writes.word ?_ ?_
      · rw [String.toList_ofList]
        rcases recases with rfl | rfl
        · rw [self]
          exact isUpper
        · exact isLower
      · rw [upper_recase_of_ascii recases ascii, same]
    cases parts with
    | nil => simpa using word
    | cons second parts =>
      have join : " ".intercalate ((part :: second :: parts).map fun part => upper part.2) =
          upper part.2 ++ " " ++ " ".intercalate ((second :: parts).map fun part => upper part.2) :=
        String.intercalate_cons_cons
      have calm : ∀ atom ∈ ((second :: parts).map fun part => (⟨.word, part.2⟩ : Atom)).getLast?,
          atom.kind ≠ .otherOperator := by
        intro atom isLast
        rcases List.mem_map.mp (List.mem_of_getLast? isLast) with ⟨_, _, rfl⟩
        simp
      have space : String.ofList (" ".toList.map recase) = " " := by
        rcases recases with rfl | rfl <;> decide
      rw [join, String.toList_append, String.toList_append, List.map_append, List.map_append,
        String.ofList_append, String.ofList_append]
      exact word.append (ih (List.cons_ne_nil _ _) later) (List.cons_ne_nil _ _) calm (.inl space)

theorem Writes.compound {wording : Wording} (unpreferred : wording.preferredKeywords = false)
    {simple : String} {parts : List (NodeKind × String)} (phrased : Phrased simple parts) :
    Writes ((parts.filter fun part => !part.1.isTrivia).map fun part => ⟨.word, part.2⟩)
      (wording.keyword simple) false := by
  have capital : ∀ part ∈ parts.filter fun part => !part.1.isTrivia,
      Scan.isCapital (upper part.2).toList = true := by
    intro part member
    rcases List.mem_filter.mp member with ⟨among, content⟩
    have plain := (phrased.keywords part among (by simpa using content)).2
    simp only [Keyword.isPlain, Bool.and_eq_true, bne_iff_ne, ne_eq] at plain
    rw [Scan.isCapital, Bool.and_eq_true, List.all_eq_true]
    refine ⟨?_, fun c inside => by simp [List.all_eq_true.mp plain.2 c inside]⟩
    rcases List.exists_cons_of_ne_nil (show (upper part.2).toList ≠ [] by simpa using plain.1)
      with ⟨c, tail, cut⟩
    rw [cut] at plain ⊢
    exact List.all_eq_true.mp plain.2 c List.mem_cons_self
  have some : (parts.filter fun part => !part.1.isTrivia) ≠ [] := by
    rcases phrased.content with ⟨part, member, content⟩
    exact List.ne_nil_of_mem (List.mem_filter.mpr ⟨member, by simp [content]⟩)
  rw [Wording.keyword_eq unpreferred, phrased.text]
  generalize (parts.filter fun part => !part.1.isTrivia) = parts at capital some ⊢
  have ascii : ∀ word ∈ parts.map fun part => upper part.2, ∀ c ∈ word.toList, c.toNat < 128 := by
    refine List.forall_mem_map.mpr fun part member c inside => ?_
    exact ((Scan.isWord_of_isCapital (capital part member)).2.2 c inside).1
  rcases wording.operator_of_ascii (Text.ascii_intercalate ascii) with ⟨recase, recases, isPiece⟩
  rw [isPiece]
  exact Writes.words recases some capital

theorem NodeKind.suits_leaf {wording : Wording} (unpreferred : wording.preferredKeywords = false)
    {kind : NodeKind} {text : String}
    (reserved : kind.isRespelled = true → Keyword.isReserved (upper text) = true)
    (readable : ∀ symbol ∈ kind.symbols text, symbol.Readable) : wording.Suits kind text := by
  refine ⟨?_, ?_⟩
  · intro tight
    simp only [List.mem_cons, List.not_mem_nil, or_false] at tight
    rcases tight with rfl | rfl | rfl
    · have isMark := (Writes.mark '.' rfl wording (readable _ List.mem_cons_self).1).1
      rw [show wording.leaf .period text = wording.operator text from rfl, isMark]
      decide
    · have isMark := (Writes.mark ';' rfl wording (readable _ List.mem_cons_self).1).1
      rw [show wording.leaf .semicolon text = wording.operator text from rfl, isMark]
      decide
    · rw [show wording.leaf .scopeResolutionOperator text = wording.operator text from rfl,
        wording.operator_scope readable]
      decide
  · intro isKeyword
    have isPiece : wording.leaf kind text = wording.operator text := by
      simp only [List.mem_cons, List.not_mem_nil, or_false] at isKeyword
      rcases isKeyword with rfl | rfl <;> exact Wording.keyword_eq unpreferred text
    have isRespelled : kind.isRespelled = true := by
      simp only [List.mem_cons, List.not_mem_nil, or_false] at isKeyword
      rcases isKeyword with rfl | rfl <;> rfl
    have word :=
      (Keyword.isWord_of_isReserved (reserved isRespelled) _ (wording.operator_mem text)).1
    rw [isPiece, isCalm, (Scan.lexeme_of_isWord word).2.2]
    simp

/-! ### The pieces of a document -/

def Chunk.IsFor (atoms : List Atom) (chunk : Chunk) : Prop :=
  Writes atoms chunk.text chunk.runsOn

namespace Outline

variable {wording : Wording}

theorem divided_chunksOfList {outlines : List Outline} (selects : NodeKind → Bool)
    (atoms : Outline → List Atom)
    (each : ∀ outline ∈ outlines, selects outline.kind = true →
      Divided Chunk.IsFor (atoms outline) (outline.chunks wording)) :
    Divided Chunk.IsFor ((outlines.filter fun outline => selects outline.kind).flatMap atoms)
      (chunksOfList wording selects outlines) := by
  induction outlines with
  | nil =>
    rw [chunksOfList]
    exact .nil
  | cons first rest ih =>
    rcases List.forall_mem_cons.mp each with ⟨here, later⟩
    rw [chunksOfList]
    cases selected : selects first.kind with
    | false =>
      rw [List.filter_cons_of_neg (by simp [selected])]
      exact ih later
    | true =>
      rw [List.filter_cons_of_pos (by simp [selected]), List.flatMap_cons]
      exact (here selected).append (ih later)

theorem atoms_of_isTrivia {outline : Outline} (regular : outline.Regular)
    (isTrivia : outline.kind.isTrivia = true) : outline.symbols.filterMap Symbol.atom? = [] := by
  rcases regular with @⟨id, kind, text, attributes, children, _, fits, _⟩
  change kind.isTrivia = true at isTrivia
  have isLeaf : kind.isLeaf = true := by
    revert isTrivia
    cases kind <;> decide
  obtain rfl : children = [] := fits.childless isLeaf
  rw [symbols_childless id text attributes isLeaf, NodeKind.symbols, if_pos isTrivia]
  rfl

theorem atoms_of_compound {attributes : Attributes} {children : List Outline} {simple : String}
    (fits : Fits .compoundKeyword attributes children) (regular : ∀ child ∈ children, child.Regular)
    (phrased : Phrased simple (children.map part)) :
    (symbolsOfList children).filterMap Symbol.atom? =
      ((children.map part).filter fun part => !part.1.isTrivia).map fun part =>
        ⟨.word, part.2⟩ := by
  have each : ∀ child ∈ children, child.symbols.filterMap Symbol.atom? =
      if child.kind.isTrivia then [] else [⟨.word, child.text⟩] := by
    rintro ⟨id, kind, text, attributes, below⟩ member
    have isLeaf : kind.isLeaf = true := fits.flat rfl _ member
    obtain rfl : below = [] := by
      rcases regular _ member with ⟨_, below, _⟩
      exact below.childless isLeaf
    rw [symbols_childless id text attributes isLeaf]
    cases isTrivia : kind.isTrivia with
    | true =>
      rw [← symbols_childless id text attributes isLeaf]
      exact (atoms_of_isTrivia (regular _ member) isTrivia).trans (by simp [isTrivia])
    | false =>
      rcases phrased.keywords _ (List.mem_map_of_mem member) isTrivia with ⟨isKeyword, _⟩
      obtain rfl : kind = .otherKeyword := isKeyword
      rfl
  clear fits regular phrased
  induction children with
  | nil => simp
  | cons first rest ih =>
    rcases List.forall_mem_cons.mp each with ⟨here, later⟩
    rw [symbolsOfList_cons, List.filterMap_append, here, ih later, List.map_cons, List.filter_cons]
    cases isTrivia : first.kind.isTrivia <;> simp [part, isTrivia]

/-- The pieces of a document are written for its tokens, in order. -/
theorem divided_chunks (unbracketed : wording.bracketNames = false)
    (unpreferred : wording.preferredKeywords = false) {outline : Outline}
    (regular : outline.Regular) (clean : Symbol.Clean outline.symbols) (reserves : outline.Reserves)
    (readable : ∀ symbol ∈ outline.symbols, symbol.Readable) :
    Divided Chunk.IsFor (outline.symbols.filterMap Symbol.atom?) (outline.chunks wording) := by
  induction regular with
  | @node id kind text attributes children bare fits below ih =>
    have each : ∀ child ∈ children,
        Divided Chunk.IsFor (child.symbols.filterMap Symbol.atom?) (child.chunks wording) := by
      intro child member
      exact ih child member (clean.of_subset fun _ => mem_symbols_of_child member)
        (reserves.child child member) fun symbol inside =>
          readable symbol (mem_symbols_of_child member inside)
    have inside : Divided Chunk.IsFor ((symbolsOfList children).filterMap Symbol.atom?)
        (chunksOfList wording (fun _ => true) children) := by
      have all := divided_chunksOfList (fun _ => true) _ fun child member _ => each child member
      rwa [List.filter_true, ← List.filterMap_flatMap, ← symbolsOfList_eq] at all
    rw [chunks]
    cases isLeaf : kind.isLeaf with
    | true =>
      obtain rfl : children = [] := fits.childless isLeaf
      rw [symbols_childless id text attributes isLeaf] at readable ⊢
      split
      next isBlank =>
        subst isBlank
        exact .nil
      next written =>
        exact .single
          (NodeKind.writes_leaf unbracketed unpreferred isLeaf written reserves.own readable)
    | false =>
      obtain rfl : text = "" := by simpa [isLeaf] using bare
      have written : kind ≠ .whiteSpace := by
        rintro rfl
        cases isLeaf
      rw [if_neg written, if_neg (by decide), symbols_node, NodeKind.symbols_of_isInner isLeaf,
        List.filterMap_append, List.filterMap_append]
      split
      next isCompound =>
        subst isCompound
        rcases fits.worded rfl with ⟨simple, isSimple, phrased⟩
        have words : Symbol.Clean (symbolsOfList children) := by
          refine clean.of_subset ?_
          rw [symbols_node]
          simp
        have phrased := phrased (spaceless_of_clean words)
        have comments :
            Divided Chunk.IsFor [] (chunksOfList wording NodeKind.isComment children) := by
          have silent : ∀ child ∈ children, child.kind.isComment = true →
              Divided Chunk.IsFor [] (child.chunks wording) := by
            intro child member isComment
            have whole := each child member
            rwa [atoms_of_isTrivia (below child member) (by simp [NodeKind.isTrivia, isComment])]
              at whole
          have all := divided_chunksOfList NodeKind.isComment (fun _ => []) silent
          rwa [List.flatMap_eq_nil_iff.mpr fun _ _ => rfl] at all
        have keyword := Writes.compound unpreferred phrased
        rw [← atoms_of_compound fits below phrased] at keyword
        have whole :=
          (@Divided.single _ _ Chunk.IsFor _ { text := wording.keyword simple } keyword).append
            comments
        rw [List.append_nil] at whole
        simpa [isSimple, NodeKind.beginning, NodeKind.ending, NodeKind.isParens] using whole
      next notCompound =>
        rw [NodeKind.beginning, NodeKind.ending]
        split
        next =>
          have opening : Divided Chunk.IsFor [⟨.openParens, "("⟩] [{ text := "(" }] :=
            .single (Writes.plain (.mark rfl))
          have closing : Divided Chunk.IsFor [⟨.closeParens, ")"⟩] [{ text := ")" }] :=
            .single (Writes.plain (.mark rfl))
          exact (opening.append inside).append closing
        next notGroup => simpa using inside

theorem suits_wording (unpreferred : wording.preferredKeywords = false) {outline : Outline}
    (regular : outline.Regular) (reserves : outline.Reserves)
    (readable : ∀ symbol ∈ outline.symbols, symbol.Readable) : outline.Suits wording := by
  induction regular with
  | @node id kind text attributes children bare fits below ih =>
    refine .node ?_ ?_
    · intro isLeaf
      obtain rfl : children = [] := fits.childless isLeaf
      rw [symbols_childless id text attributes isLeaf] at readable
      exact NodeKind.suits_leaf unpreferred reserves.own readable
    · intro child member
      exact ih child member (reserves.child child member)
        fun symbol inside => readable symbol (mem_symbols_of_child member inside)

end Outline

/-! ### Neighbouring pieces -/

/-- Two pieces that may touch stay apart when they are read. -/
theorem Writes.meets {atoms others : List Atom} {first second : String} {runsOn : Bool}
    (front : Writes atoms first false) (back : Writes others second runsOn)
    (touches : Touches first second)
    (apart : ∀ atom ∈ atoms.getLast?, ∀ other ∈ others.head?, atom.joins other = false) :
    ∀ c ∈ second.toList.head?, Atom.mayFollow atoms c = true := by
  intro c isHead
  rw [Atom.mayFollow]
  cases isLast : atoms.getLast? with
  | none => rfl
  | some atom =>
    rw [Option.all_some]
    rcases touches with tight | tight | ⟨calm, opens⟩
    · by_cases isPoint : first = "."
      · rcases front.point isPoint with ⟨value, rfl⟩
        cases isLast
        cases digit : isDigit c with
        | false => simp [Scan.mayFollow, digit]
        | true =>
          have starts : Scan.headIs isDigit second.toList = true := by
            rcases List.head?_eq_some_iff.mp isHead with ⟨tail, isSecond⟩
            rw [isSecond]
            exact digit
          rcases back.digit starts with ⟨number, rest, rfl, kinds, isNumber⟩
          have joined := apart _ rfl number rfl
          simp [Atom.joins, isNumber, kinds] at joined
      · have may := front.tight (List.mem_cons_of_mem _ tight) isPoint c
        rwa [Atom.mayFollow, isLast] at may
    · by_cases isPoint : c = '.'
      · subst isPoint
        have only : second = "." := by
          have listed : ∀ mark ∈ tightMarks, mark.toList.head? = some '.' → mark = "." := by decide
          exact listed second tight isHead
        rcases back.point only with ⟨value, rfl⟩
        have joined := apart atom isLast _ rfl
        simpa [Atom.joins] using joined
      · have listed : ∀ mark ∈ tightMarks, mark.toList.head?.all
            (fun d => Scan.isBreak d && d != '-' && d != '/') = true := by
          decide
        have found := listed second tight
        simp only [Option.mem_def.mp isHead, Option.all_some, Bool.and_eq_true, bne_iff_ne,
          and_assoc] at found
        rcases found with ⟨breaks, noComment⟩
        exact Scan.mayFollow_of_isBreak breaks isPoint (fun _ => noComment) _
    · have starts : c = '-' ∨ c = '/' := by
        rcases List.head?_eq_some_iff.mp isHead with ⟨tail, isSecond⟩
        simpa [opensComment, isSecond, Scan.headIs] using opens
      have noOperator := front.calm calm atom isLast
      rcases starts with rfl | rfl <;>
        exact Scan.mayFollow_of_isBreak (by decide) (by decide)
          (fun isOperator => absurd isOperator noOperator) _

theorem Mark.isBlank_text {style : Style}
    (indents : ∀ c ∈ style.indentText.toList, isBlank c = true) {mark : Mark}
    (silent : mark.piece? = none) (unkept : mark.isKept = false) :
    ∀ c ∈ (mark.text style).toList, isBlank c = true := by
  cases mark with
  | lineEnd | space =>
    rw [Mark.text]
    exact forall_mem_of_all (by decide)
  | indentation levels =>
    rw [Mark.text, String.toList_join]
    intro c member
    rcases List.mem_flatMap.mp member with ⟨part, isPart, inside⟩
    rw [List.eq_of_mem_replicate isPart] at inside
    exact indents c inside
  | content => cases silent
  | kept => cases unkept

theorem Chunk.Written.getLast? {marks : List Mark} {chunks : List Chunk} {arrears : Bool}
    {piece : String} (written : Chunk.Written (.content piece :: marks) chunks arrears) :
    chunks.getLast? = some { text := piece, runsOn := arrears } := by
  cases written with
  | blank _ silent => cases silent
  | chunk => simp

/-- Marks that keep the rules for neighbours are read as the tokens that their pieces are written
for. The marks are read from the last one on, before a text that starts with what may follow. -/
theorem Cut.of_written {style : Style} (indents : ∀ c ∈ style.indentText.toList, isBlank c = true)
    {marks : List Mark} {chunks : List Chunk} {arrears : Bool}
    (written : Chunk.Written marks chunks arrears)
    (chain : marks.IsChain fun later earlier => earlier.Precedes later) {groups : List (List Atom)}
    (isFor : List.Forall₂ Chunk.IsFor groups chunks.reverse) {others : List Atom} {rest : List Char}
    (apart : (groups.reverse.flatten ++ others).IsChain fun first second =>
      first.joins second = false)
    (cut : Cut (others.map Atom.key) rest)
    (next : ∀ piece, marks.head? = some (.content piece) → ∀ group ∈ groups.head?, ∀ c ∈ rest.head?,
      (if arrears then (· == '\n') else Atom.mayFollow group) c = true) :
    Cut ((groups.reverse.flatten ++ others).map Atom.key)
      ((String.join (marks.reverse.map (Mark.text style))).toList ++ rest) := by
  induction written generalizing groups others rest with
  | nil =>
    cases isFor
    exact cut
  | @blank marks chunks arrears written mark silent unkept ends ih =>
    have before :=
      @ih (List.isChain_cons.mp chain).2 groups isFor others
        ((mark.text style).toList ++ rest) apart
      (cut.blanks (Mark.isBlank_text indents silent unkept)) ?_
    · simpa [String.join_append, String.join_cons, List.append_assoc] using before
    intro piece isLast group _ c isHead
    have precedes := (List.isChain_cons.mp chain).1 _ isLast
    cases mark with
    | content => cases silent
    | indentation | kept => cases precedes
    | lineEnd =>
      obtain rfl : c = '\n' := by simpa [Mark.text] using isHead.symm
      split
      · rfl
      · exact Atom.mayFollow_blank group _ (by simp)
    | space =>
      obtain rfl : c = ' ' := by simpa [Mark.text] using isHead.symm
      rw [if_neg fun inArrears => by cases ends inArrears]
      exact Atom.mayFollow_blank group _ (by simp)
  | @chunk marks chunks written chunk ih =>
    rw [List.reverse_append, List.reverse_singleton, List.singleton_append] at isFor
    rcases List.forall₂_cons_right_iff.mp isFor with ⟨group, before, here, behind, rfl⟩
    have both := here.prints (next chunk.text rfl group rfl) cut
    rw [← List.map_append] at both
    have whole := ih (List.isChain_cons.mp chain).2 behind (by simpa using apart) both ?_
    · simpa [String.join_append, String.join_cons, Mark.text, List.append_assoc] using whole
    intro piece isLast previous isPrevious c isHead
    rcases List.head?_eq_some_iff.mp isLast with ⟨_, rfl⟩
    rcases List.head?_eq_some_iff.mp isPrevious with ⟨earlier, rfl⟩
    rcases List.forall₂_cons_left_iff.mp behind with ⟨last, _, lastFor, _, isReverse⟩
    obtain rfl : last = { text := piece } := by
      have isChunk := written.getLast?
      rw [← List.head?_reverse, isReverse] at isChunk
      exact Option.some.inj isChunk
    refine Writes.meets lastFor here ((List.isChain_cons_cons.mp chain).1) ?_ c ?_
    · intro atom isAtom other isOther
      rw [List.reverse_cons, List.reverse_cons, List.flatten_append, List.flatten_singleton,
        List.append_assoc, List.isChain_append] at apart
      refine apart.2.2 atom ?_ other ?_
      · rw [List.flatten_append, List.flatten_singleton, List.getLast?_append,
          Option.mem_def.mp isAtom]
        rfl
      · rw [List.head?_append, Option.mem_def.mp isOther]
        rfl
    · rcases List.exists_cons_of_ne_nil (show chunk.text.toList ≠ [] by simpa using here.written)
        with ⟨first, tail, isText⟩
      rw [isText] at isHead ⊢
      exact isHead

/-! ### Scripts -/

theorem Scan.isBlockBody_first {c : Char} {rest : List Char}
    (isBlock : (first c rest).kind = .blockComment) (closed : (first c rest).closed = true) :
    IsBlockBody (first c rest).value := by
  have starts : ∃ body, c = '/' ∧ rest = '*' :: body := by
    have spells := (spells_first c rest).spelling default
    have covers := covers_first c rest
    rw [Covers] at covers
    simp only [Token.spelling, token, raised, isBlock, closed, String.toList_append,
      String.reduceToList, String.toList_ofList, List.cons_append, List.nil_append, List.append_nil,
      reduceCtorEq, ↓reduceIte] at spells
    rw [← spells] at covers
    simp only [List.cons_append, List.append_assoc, List.nil_append, List.cons.injEq] at covers
    exact ⟨_, covers.1.symm, covers.2.symm⟩
  rcases starts with ⟨body, rfl, rfl⟩
  have isFirst : first '/' ('*' :: body) = block body := rfl
  rw [isFirst] at closed ⊢
  unfold block at closed ⊢
  split
  next inside after found => exact fun back => splitBlock_append found back
  next inside found =>
    rw [found] at closed
    cases closed

theorem TokenList.isBlockBody_ofText {script : String}
    (finished : (TokenList.ofText script).unfinished = false) :
    ∀ token ∈ (TokenList.ofText script).tokens, token.kind = .blockComment →
      Scan.IsBlockBody token.value.toList := by
  have fromAnywhere : ∀ (offset : Nat) (text : List Char),
      (scanFrom offset text).unfinished = false →
      ∀ token ∈ (scanFrom offset text).tokens, token.kind = .blockComment →
        Scan.IsBlockBody token.value.toList := by
    intro offset text
    fun_induction scanFrom offset text with
    | case1 => simp
    | case2 offset c rest scan stop later ih =>
      intro finished
      simp only [Bool.or_eq_false_iff, Bool.not_eq_false'] at finished
      refine List.forall_mem_cons.mpr ⟨fun isBlock => ?_, ih finished.2⟩
      rw [String.toList_ofList]
      exact Scan.isBlockBody_first isBlock finished.1
  exact fromAnywhere 0 script.toList finished

theorem Builder.At.findBatchEnd_flagged {builder : Builder} {tokens : List Token} {draft : Draft}
    (located : builder.At tokens draft) (isOpen : draft.IsOpen) (flagged : draft.Flagged) :
    ∃ left valid other, builder.findBatchEnd = .ok (left, valid) ∧ left.At tokens other ∧
      other.Flagged := by
  rcases located.nextStatementContainer isOpen true with
    ⟨left, container?, other, isOk, escapes, built, next⟩
  have flagged : other.Flagged := by
    rcases escapes.above.exists_ups with ⟨levels, _, rfl⟩
    exact flagged.ups levels
  rw [Builder.findBatchEnd, isOk, ok_bind]
  cases next with
  | nowhere stands => exact ⟨left, _, other, rfl, ⟨stands, built⟩, flagged⟩
  | body body condition stands =>
    exact ⟨left, _, _, rfl, ⟨stands, built.follow body condition⟩, flagged.follow _⟩
  | outside _ _ stands _ => exact ⟨left, _, other, rfl, ⟨stands, built⟩, flagged⟩

/-- A script with a token that is left open is marked. -/
theorem Tree.finished_of_clean {list : TokenList} {tree : Tree}
    (isOk : Tree.ofTokens list = .ok tree) (clean : tree.hasError = false) :
    list.unfinished = false := by
  cases unfinished : list.unfinished with
  | false => rfl
  | true =>
    rcases Progress.exists_last list with ⟨last, draft, advances, isLast, located, atRest⟩
    have marked := located.markIf true
    have flagged := Draft.flagged_mark located.stands.shown.rooted
    rcases marked.findBatchEnd_flagged atRest.isOpen flagged with
      ⟨left, valid, other, isEnd, ends, flagged⟩
    have isTree := (advances.ofTokens isLast).symm.trans isOk
    rw [unfinished, Builder.finish_eq, isEnd] at isTree
    cases isTree
    have shown := (ends.markIf !valid).stands.shown
    rw [shown.hasError_iff.mpr] at clean
    · cases clean
    · cases valid
      · exact flagged.mark
      · exact flagged

/-- The tokens of a script that are neither blanks nor comments. -/
def TokenList.atoms (list : TokenList) : List Atom :=
  (list.tokens.filter fun token => !token.kind.isTrivia).map fun token => ⟨token.kind, token.value⟩

theorem TokenList.keys_eq (list : TokenList) : list.keys = list.atoms.map Atom.key := by
  rw [keys, atoms, List.map_map]
  rfl

theorem Token.atoms_symbols {token : Token} (faithful : token.Faithful) :
    token.symbols.filterMap Symbol.atom? = if token.kind.isTrivia then []
      else [⟨token.kind, token.value⟩] := by
  rw [symbols]
  split
  · rfl
  · rw [Faithful] at faithful
    split
    next isOpening =>
      rw [isOpening] at faithful
      simp [Symbol.atom?, isOpening, faithful]
    next isClosing =>
      rw [isClosing] at faithful
      simp [Symbol.atom?, isClosing, faithful]
    next => rfl

theorem TokenList.atoms_symbolsOf {list : TokenList}
    (faithful : ∀ token ∈ list.tokens, token.Faithful) :
    (Token.symbolsOf list.tokens).filterMap Symbol.atom? = list.atoms := by
  rw [atoms, Token.symbolsOf, List.filterMap_flatMap, ← List.flatMap_pure_eq_map, flatMap_filter_eq]
  refine List.flatMap_congr fun token member => ?_
  rw [Token.atoms_symbols (faithful token member)]
  cases token.kind.isTrivia <;> rfl

theorem Symbol.filterMap_atom? (symbols : List Symbol) :
    symbols.filterMap atom? =
      (symbols.filter fun symbol => symbol.atom?.isSome).filterMap atom? := by
  rw [List.filterMap_filter]
  refine List.filterMap_congr fun symbol _ => ?_
  cases symbol <;> rfl

theorem Token.readable_symbols {script : String}
    (finished : (TokenList.ofText script).unfinished = false)
    (ascii : ∀ token ∈ (TokenList.ofText script).tokens, token.kind = .pseudoName →
      ∀ c ∈ token.value.toList, c.toNat < 128) {token : Token}
    (member : token ∈ (TokenList.ofText script).tokens) :
    ∀ symbol ∈ token.symbols, symbol.Readable := by
  have content : token.kind.isTrivia = false →
      ∃ text, Scan.Lexeme token.kind token.value.toList text := by
    intro content
    cases solid : token.kind.isSolid with
    | true => exact TokenList.lexeme_ofText script token member solid
    | false =>
      have quotes : ∃ opening close, Scan.quotes? token.kind = some (opening, close) := by
        revert content solid
        cases token.kind <;>
          simp [TokenKind.isTrivia, TokenKind.isComment, TokenKind.isSolid, Scan.quotes?]
      rcases quotes with ⟨opening, close, quotes⟩
      exact ⟨_, .quoted quotes _⟩
  rw [symbols]
  split
  next =>
    intro symbol isSymbol
    obtain rfl := List.mem_singleton.mp isSymbol
    intro isBlock
    refine TokenList.isBlockBody_ofText finished token member ?_
    revert isBlock
    cases token.kind <;> simp [TokenKind.leafKind]
  next isContent =>
    split
    · simp [Symbol.Readable]
    · simp [Symbol.Readable]
    · intro symbol isSymbol
      obtain rfl := List.mem_singleton.mp isSymbol
      exact ⟨content (by simpa using isContent), ascii token member⟩

/-- A document is laid out as a text that is read as the tokens that its pieces are written for. -/
theorem Tree.Shows.format_cut {tree : Tree} {draft : Draft} (shown : tree.Shows draft)
    (clean : tree.hasError = false) (regular : draft.outline.Regular) (quiet : draft.outline.Quiet)
    {style : Style} (breaks : 0 < style.statementBreaks) (clauseBreaks : 0 < style.clauseBreaks)
    (indents : ∀ c ∈ style.indentText.toList, isBlank c = true)
    (suits : draft.outline.Suits style.wording) {atoms : List Atom}
    (divided : Divided Chunk.IsFor atoms (draft.outline.chunks style.wording))
    (apart : atoms.IsChain fun first second => first.joins second = false) (warning : String) :
    ∃ text, tree.format style warning = .ok text ∧ Cut (atoms.map Atom.key) text.toList := by
  rcases divided with ⟨groups, rfl, isFor⟩
  rcases Outline.lays_layOut style tree regular {} (tree.opening style warning) with
    ⟨after, isLaid, _⟩
  have start : tree.opening style warning = {} := by
    rw [Tree.opening, clean]
    rfl
  rw [start] at isLaid
  have ready : Writer.Ready {} := ⟨⟨rfl, by simp, by simp⟩, by simp [Writer.lastPiece?]⟩
  have chain :=
    ((Outline.ready_layOut breaks clauseBreaks suits quiet isLaid ready).settle style).chain
  rcases Outline.carries_layOut breaks clauseBreaks regular isLaid (quiet.spoken style.wording)
    ((Writer.Inks.start rfl).held false) with ⟨arrears, holds, _⟩
  rcases holds.settle style with ⟨free, marks, isMarks, written⟩
  rw [List.append_nil] at isMarks
  rw [isMarks] at chain
  rw [Outline.flatMap_chunks_spoken, List.nil_append] at written
  refine ⟨(after.settle style).output style, ?_, ?_⟩
  · rw [Tree.format_eq, shown.outline_eq, start, isLaid, Except.map, Tree.ending, free]
  · have cut :=
      @Cut.of_written style indents _ _ _ written chain _ (List.forall₂_reverse_iff.mpr isFor) [] []
      (by rwa [List.reverse_reverse, List.append_nil]) .nil (by simp)
    rwa [List.reverse_reverse, List.append_nil, List.append_nil, ← isMarks] at cut

/-- Formatting keeps the tokens of a script that is read without errors, up to the case of words and
numbers. The style leaves words alone and breaks lines between statements. In the script the
parentheses balance, pseudo names are ASCII, no comment opens a region of kept text, and no number
or sign stands before a period, nor a number behind one. -/
theorem format_keeps_tokens {style : Style} (breaks : 0 < style.statementBreaks)
    (clauseBreaks : 0 < style.clauseBreaks) (unbracketed : style.bracketNames = false)
    (unpreferred : style.preferredKeywords = false)
    (indents : ∀ c ∈ style.indentText.toList, isBlank c = true) {script : String} {tree : Tree}
    (isOk : Tree.ofText script = .ok tree) (clean : tree.hasError = false)
    (quiet : (TokenList.ofText script).Quiet)
    (balanced : (TokenList.ofText script).tokens.countP (·.kind == .openParens) =
      (TokenList.ofText script).tokens.countP (·.kind == .closeParens))
    (ascii : ∀ token ∈ (TokenList.ofText script).tokens, token.kind = .pseudoName →
      ∀ c ∈ token.value.toList, c.toNat < 128)
    (apart : (TokenList.ofText script).atoms.IsChain fun first second => first.joins second = false)
    (warning : String) :
    ∃ text, format style script warning = .ok { text, parseError := false } ∧
      (TokenList.ofText text).keys = (TokenList.ofText script).keys := by
  rcases Tree.ofTokens_shows (.ofText script) with ⟨other, draft, isOther, shown, built⟩
  obtain rfl : tree = other := Except.ok.inj (isOk.symm.trans isOther)
  have faithful := TokenList.faithful_ofText script
  have isClean := TokenList.isClean_ofText script
  have finished := Tree.finished_of_clean isOther clean
  rcases built.trace_outline faithful with ⟨abandoned, trace⟩
  obtain rfl : abandoned = 0 := by
    have total := shown.countP_parens built faithful clean trace
    omega
  have regular := built.sound.outline_regular
  have reserves := shown.stores.reserves (Tree.ofTokens_reserves isClean isOther)
  have readable : ∀ symbol ∈ draft.outline.symbols, symbol.Readable := by
    intro symbol member
    rw [trace.perm.mem_iff, List.replicate_zero, List.append_nil] at member
    rcases List.mem_flatMap.mp member with ⟨token, among, inside⟩
    exact Token.readable_symbols finished ascii among symbol inside
  have atoms : draft.outline.symbols.filterMap Symbol.atom? = (TokenList.ofText script).atoms := by
    have same :=
      @Trace.filter 0 _ _ trace (fun symbol => symbol.atom?.isSome) (fun _ _ => rfl) (.inl rfl)
    rw [← TokenList.atoms_symbolsOf faithful, Symbol.filterMap_atom?, same,
      ← Symbol.filterMap_atom?]
  have divided := @Outline.divided_chunks style.wording unbracketed unpreferred _ regular
    (built.clean_symbols faithful isClean) reserves readable
  have suits := @Outline.suits_wording style.wording unpreferred _ regular reserves readable
  rw [atoms] at divided
  rcases shown.format_cut clean regular (built.quiet faithful quiet) breaks clauseBreaks indents
    suits divided apart
    warning with ⟨text, isText, cut⟩
  refine ⟨text, clean ▸ format_eq_ok isOther isText, ?_⟩
  rw [TokenList.keys_eq (.ofText script)]
  exact cut.keys_ofText

theorem format_keeps_tokens_example :
    ∃ text, format {} "select t.Key, (1e3) -- c\nfrom t" defaultWarning =
        .ok { text, parseError := false } ∧
      (TokenList.ofText text).keys =
        (TokenList.ofText "select t.Key, (1e3) -- c\nfrom t").keys := by
  rcases Tree.ofTokens_shows (.ofText "select t.Key, (1e3) -- c\nfrom t")
    with ⟨tree, _, isOk, _⟩
  have clean : tree.hasError = false := by
    have found : (Tree.ofText "select t.Key, (1e3) -- c\nfrom t").toOption.map
        Tree.hasError = some false := by
      decide +kernel
    rw [show Tree.ofText _ = .ok tree from isOk] at found
    exact Option.some.inj found
  have names : ∀ token ∈ (TokenList.ofText "select t.Key, (1e3) -- c\nfrom t").tokens,
      token.kind ≠ .pseudoName := by
    decide +kernel
  refine format_keeps_tokens ?_ ?_ rfl rfl (forall_mem_of_all (by decide)) isOk clean ?_ ?_
    (fun token member isName => absurd isName (names token member)) ?_ defaultWarning <;>
    decide +kernel

/-- Tokens are joined where no line break comes between statements, or between two declarations, and
at a period that becomes a decimal point. The layout closes a group that the script leaves open, and
the upper case of a pseudo name may be no name. -/
theorem format_changes_tokens :
    [({ statementBreaks := 0 }, "EXEC a EXEC b"),
        ({ clauseBreaks := 0 }, "DECLARE @a INT DECLARE @b INT"), ({}, "SELECT 1 . 5"),
        ({}, "(CREATE PROC p AS"), ({}, "SELECT $ΐ")].all
      (fun (sample : Style × String) =>
        !sample.1.bracketNames && !sample.1.preferredKeywords && sample.1.indentText == "\t" &&
          decide (TokenList.ofText sample.2).Quiet &&
          (Tree.ofText sample.2).toOption.any (!·.hasError) &&
          (format sample.1 sample.2 defaultWarning).toOption.any fun result =>
            (TokenList.ofText result.text).keys != (TokenList.ofText sample.2).keys) = true := by
  decide +kernel

end SqlLayout
