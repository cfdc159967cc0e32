import SqlLayout.Proofs.Token.Lexeme

/-!
# Spelling the tokens of a script

The spelling of the tokens of a script is the script, with the mark of every national string in
upper case, and with a closing delimiter behind a token that the script leaves open. Reading it
again gives the same tokens.

The second part rests on one fact about the reader: it does not tell `n` from `N`. So a script and
its spelling are cut at the same places (`first_map`), and a token that covers the same text has the
same value.
-/

namespace SqlLayout

open Text

variable {property : Char → Bool} {offset : Nat} {text : List Char}

/-- The letter that opens a national string, in upper case; every other character is kept. -/
def raiseMark (c : Char) : Char :=
  if c = 'n' then 'N' else c

/-! ### The reader does not tell `n` from `N` -/

theorem eq_raiseMark_iff {c mark : Char} (other : mark ≠ 'n' ∧ mark ≠ 'N') :
    raiseMark c = mark ↔ c = mark := by
  unfold raiseMark
  split
  next isMark =>
    subst isMark
    exact ⟨fun same => absurd same.symm other.2, fun same => absurd same.symm other.1⟩
  next => rfl

/-- A property of characters that does not tell `n` from `N`. -/
def Unmarked (property : Char → Bool) : Prop :=
  ∀ c, property (raiseMark c) = property c

theorem unmarked_of_eq (same : property 'N' = property 'n') : Unmarked property := by
  intro c
  unfold raiseMark
  split
  next isMark => rw [isMark, same]
  next => rfl

namespace Scan

def map (change : Char → Char) (scan : Scan) : Scan where
  kind := scan.kind
  value := scan.value.map change
  lexeme := scan.lexeme.map change
  rest := scan.rest.map change
  closed := scan.closed

theorem map_raw (kind : TokenKind) (lexeme rest : List Char) :
    (raw kind lexeme rest).map raiseMark = raw kind (lexeme.map raiseMark) (rest.map raiseMark) :=
  rfl

theorem takeWhile_map (unmarked : Unmarked property) (text : List Char) :
    (text.map raiseMark).takeWhile property = (text.takeWhile property).map raiseMark ∧
      (text.map raiseMark).dropWhile property = (text.dropWhile property).map raiseMark := by
  have same : property ∘ raiseMark = property := funext unmarked
  exact ⟨by rw [List.takeWhile_map, same], by rw [List.dropWhile_map, same]⟩

theorem headIs_map (unmarked : Unmarked property) (text : List Char) :
    headIs property (text.map raiseMark) = headIs property text := by
  cases text with
  | nil => rfl
  | cons c rest => exact unmarked c

theorem run_map (kind : TokenKind) (opening : List Char) (unmarked : Unmarked property)
    (text : List Char) :
    run kind (opening.map raiseMark) property (text.map raiseMark) =
      (run kind opening property text).map raiseMark := by
  rw [run, run, map_raw, (takeWhile_map unmarked text).1, (takeWhile_map unmarked text).2,
    List.map_append]

theorem splitLine_map (text : List Char) :
    splitLine (text.map raiseMark) =
      ((splitLine text).1.map raiseMark, (splitLine text).2.map raiseMark) := by
  fun_induction splitLine text with
  | case1 => rfl
  | case2 rest => rfl
  | case3 rest => rfl
  | case4 rest noFeed =>
    rw [List.map_cons, show raiseMark '\r' = '\r' from rfl, splitLine]
    · rfl
    · intro back cut
      cases rest with
      | nil => cases cut
      | cons d rest =>
        rw [List.map_cons, List.cons.injEq, eq_raiseMark_iff (by decide)] at cut
        exact noFeed rest (by rw [cut.1])
  | case5 c rest noFeed noPair noReturn line after split ih =>
    rw [List.map_cons, splitLine]
    · rw [ih, split]
      rfl
    · exact mt (eq_raiseMark_iff (by decide)).mp noFeed
    · exact fun back isReturn _ => noReturn ((eq_raiseMark_iff (by decide)).mp isReturn)
    · exact mt (eq_raiseMark_iff (by decide)).mp noReturn

theorem splitBlock_map (depth : Nat) (text : List Char) :
    splitBlock depth (text.map raiseMark) =
      ((splitBlock depth text).1.map raiseMark,
        (splitBlock depth text).2.map (List.map raiseMark)) := by
  fun_induction splitBlock depth text with
  | case1 => rfl
  | case2 depth rest body after split ih =>
    rw [List.map_cons, List.map_cons, show raiseMark '/' = '/' from rfl,
      show raiseMark '*' = '*' from rfl, splitBlock, ih, split]
    rfl
  | case3 rest => rfl
  | case4 rest outer body after split ih =>
    rw [List.map_cons, List.map_cons, show raiseMark '/' = '/' from rfl,
      show raiseMark '*' = '*' from rfl, splitBlock, ih, split]
    rfl
  | case5 depth c rest noOpening noClosing body after split ih =>
    -- the character after `c` is a slash or an asterisk only if it was one
    have second : ∀ {first mark : Char}, first ≠ 'n' ∧ first ≠ 'N' → mark ≠ 'n' ∧ mark ≠ 'N' →
        ∀ back, raiseMark c = first → rest.map raiseMark = mark :: back →
          ∃ later, c = first ∧ rest = mark :: later := by
      intro first mark firstOther markOther back isFirst cut
      cases rest with
      | nil => cases cut
      | cons d later =>
        rw [List.map_cons, List.cons.injEq, eq_raiseMark_iff markOther] at cut
        exact ⟨later, (eq_raiseMark_iff firstOther).mp isFirst, by rw [cut.1]⟩
    rw [List.map_cons, splitBlock]
    · rw [ih, split]
      rfl
    · intro back isSlash cut
      obtain ⟨later, rfl, rfl⟩ := second (by decide) (by decide) back isSlash cut
      exact noOpening later rfl rfl
    · intro back isStar cut
      obtain ⟨later, rfl, rfl⟩ := second (by decide) (by decide) back isStar cut
      exact noClosing later rfl rfl

theorem splitQuoted_map {close : Char} (other : close ≠ 'n' ∧ close ≠ 'N') (text : List Char) :
    splitQuoted close (text.map raiseMark) =
      ((splitQuoted close text).1.map raiseMark, (splitQuoted close text).2.1.map raiseMark,
        (splitQuoted close text).2.2.map (List.map raiseMark)) := by
  have kept : raiseMark close = close := (eq_raiseMark_iff other).mpr rfl
  fun_induction splitQuoted close text with
  | case1 => rfl
  | case2 => simp [splitQuoted, kept]
  | case3 c apart => simp [splitQuoted, eq_raiseMark_iff other, apart]
  | case4 rest value body after split ih => simp [splitQuoted, kept, ih, split]
  | case5 next rest apart => simp [splitQuoted, kept, eq_raiseMark_iff other, apart]
  | case6 c next rest apart value body after split ih =>
    rw [List.map_cons, List.map_cons, splitQuoted, if_neg (mt (eq_raiseMark_iff other).mp apart),
      ← List.map_cons, ih, split]
    rfl

theorem line_map (kind : TokenKind) (opening text : List Char) :
    line kind (opening.map raiseMark) (text.map raiseMark) =
      (line kind opening text).map raiseMark := by
  simp [line, map, splitLine_map]

theorem block_map (text : List Char) : block (text.map raiseMark) = (block text).map raiseMark := by
  have split := splitBlock_map 0 text
  unfold block
  rcases found : splitBlock 0 text with ⟨body, none | rest⟩
  · simp only [found] at split
    simp [split, map, raiseMark]
  · simp only [found] at split
    simp [split, map, raiseMark]

theorem quoted_map (kind : TokenKind) (opening : List Char) {close : Char}
    (other : close ≠ 'n' ∧ close ≠ 'N') (text : List Char) :
    quoted kind (opening.map raiseMark) close (text.map raiseMark) =
      (quoted kind opening close text).map raiseMark := by
  have kept : raiseMark close = close := (eq_raiseMark_iff other).mpr rfl
  have split := splitQuoted_map other text
  unfold quoted
  rcases found : splitQuoted close text with ⟨value, body, none | rest⟩
  · simp only [found] at split
    simp [split, map]
  · simp only [found] at split
    simp [split, map, kept]

theorem unmarked_isDigit : Unmarked isDigit := unmarked_of_eq (by decide)

theorem splitFraction_map (text : List Char) :
    splitFraction (text.map raiseMark) =
      ((splitFraction text).1.map raiseMark, (splitFraction text).2.map raiseMark) := by
  have digits := takeWhile_map unmarked_isDigit
  rcases text with _ | ⟨c, rest⟩
  · rfl
  · by_cases isPoint : c = '.'
    · subst isPoint
      rw [List.map_cons, show raiseMark '.' = '.' from rfl, splitFraction, (digits rest).1,
        (digits rest).2]
      rfl
    · have raised := mt (eq_raiseMark_iff (by decide)).mp isPoint
      rw [List.map_cons, splitFraction, splitFraction]
      · rfl
      · rintro _ ⟨⟩
        exact isPoint rfl
      · intro back cut
        exact raised (List.cons.inj cut).1

theorem splitExponent_map (text : List Char) :
    splitExponent (text.map raiseMark) =
      ((splitExponent text).1.map raiseMark, (splitExponent text).2.map raiseMark) := by
  have marks : Unmarked fun c => c == 'e' || c == 'E' := unmarked_of_eq rfl
  have signs : Unmarked fun c => c == '+' || c == '-' := unmarked_of_eq rfl
  rcases text with _ | ⟨mark, _ | ⟨sign, rest⟩⟩
  · rfl
  · rfl
  · have digits := takeWhile_map unmarked_isDigit
    have whole := digits (sign :: rest)
    rw [List.map_cons] at whole
    simp only [List.map_cons, splitExponent, marks mark, signs sign, unmarked_isDigit sign,
      headIs_map unmarked_isDigit, whole.1, whole.2, (digits rest).1, (digits rest).2]
    split
    · rfl
    · split <;> rfl

theorem number_map (text : List Char) :
    number (text.map raiseMark) = (number text).map raiseMark := by
  have digits := takeWhile_map unmarked_isDigit text
  simp only [number, map_raw, digits.1, digits.2, splitFraction_map, splitExponent_map,
    List.map_append]

theorem symbol_map (c : Char) (rest : List Char) :
    symbol (raiseMark c) (rest.map raiseMark) = (symbol c rest).map raiseMark := by
  by_cases isMark : c = 'n'
  · subst isMark
    rfl
  · have kept : raiseMark c = c := by rw [raiseMark, if_neg isMark]
    have equals : Unmarked (· == '=') := unmarked_of_eq rfl
    have second : Unmarked (combines c) := unmarked_of_eq (by unfold combines; split <;> rfl)
    rw [kept]
    simp only [symbol, headIs_map equals]
    split
    · simp [map_raw, kept]
    · split
      · simp [map_raw, kept]
      · split
        · cases rest with
          | nil => simp [operator, map_raw, kept]
          | cons d rest =>
            simp only [operator, List.map_cons, second d]
            split <;> simp [map_raw, kept]
        · simp [map_raw, kept]

theorem firstUnmarked_map (c : Char) (rest : List Char) :
    firstUnmarked (raiseMark c) (rest.map raiseMark) = (firstUnmarked c rest).map raiseMark := by
  have letters : Unmarked fun next => isAlphabetic next || next == '_' :=
    unmarked_of_eq (by decide)
  have money : Unmarked isMoneyChar := unmarked_of_eq (by decide)
  have words : Unmarked isWordChar := unmarked_of_eq (by decide)
  have point : Unmarked (· == '.') := unmarked_of_eq rfl
  have dollar : Unmarked (· == '$') := unmarked_of_eq rfl
  have signs : Unmarked isCurrencySign := unmarked_of_eq rfl
  have starts : Unmarked isWordStart := unmarked_of_eq (by decide)
  simp only [firstUnmarked, unmarked_isDigit c, point c, dollar c, signs c, starts c,
    headIs_map unmarked_isDigit, headIs_map letters, headIs_map money]
  split
  · exact number_map (c :: rest)
  · split
    · exact run_map .pseudoName [c] words rest
    · split
      · exact run_map .monetaryValue [c] money rest
      · split
        · exact run_map .word [c] words rest
        · exact symbol_map c rest

theorem isMarked_eq (c : Char) (rest : List Char) :
    isMarked c rest =
      (['\'', '"', '['].contains c || (c == '-' && headIs (· == '-') rest) ||
        (c == '/' && headIs (fun d => d == '/' || d == '*') rest) ||
        ((c == 'N' || c == 'n') && headIs (· == '\'') rest) ||
        (c == '0' && headIs (fun d => d == 'x' || d == 'X') rest)) := by
  cases rest with
  | nil =>
    unfold isMarked
    split <;> simp_all [headIs]
  | cons d rest =>
    unfold isMarked
    split <;> simp_all [headIs]
    grind

theorem isMarked_map (c : Char) (rest : List Char) :
    isMarked (raiseMark c) (rest.map raiseMark) = isMarked c rest := by
  have dash : Unmarked (· == '-') := unmarked_of_eq rfl
  have slashes : Unmarked fun d => d == '/' || d == '*' := unmarked_of_eq rfl
  have quote : Unmarked (· == '\'') := unmarked_of_eq rfl
  have hex : Unmarked fun d => d == 'x' || d == 'X' := unmarked_of_eq rfl
  rw [isMarked_eq, isMarked_eq, headIs_map dash, headIs_map slashes,
    headIs_map quote, headIs_map hex]
  unfold raiseMark
  split
  next isMark =>
    subst isMark
    rfl
  next => rfl

/-- A text and the one with `N` for every `n` are cut at the same places. -/
theorem first_map (c : Char) (rest : List Char) :
    first (raiseMark c) (rest.map raiseMark) = (first c rest).map raiseMark := by
  have blanks : Unmarked isBlank := unmarked_of_eq (by decide)
  cases blank : isBlank c with
  | true =>
    unfold first
    rw [blanks c, if_pos blank, if_pos blank]
    exact run_map .whiteSpace [c] blanks rest
  | false =>
    cases marked : isMarked c rest with
    | false =>
      rw [first_of_not_isMarked blank marked, first_of_not_isMarked ((blanks c).trans blank)
        ((isMarked_map c rest).trans marked), firstUnmarked_map]
    | true =>
      have hexDigits : Unmarked isHexDigit := unmarked_of_eq (by decide)
      unfold isMarked at marked
      split at marked
      · exact line_map .lineComment ['-', '-'] _
      · exact line_map .slashComment ['/', '/'] _
      · exact block_map _
      · exact quoted_map .string ['\''] (by decide) rest
      · exact quoted_map .nationalString ['N', '\''] (by decide) _
      · exact quoted_map .nationalString ['n', '\''] (by decide) _
      · exact quoted_map .quotedString ['"'] (by decide) rest
      · exact quoted_map .bracketName ['['] (by decide) rest
      · exact run_map .binaryValue ['0', 'x'] hexDigits _
      · exact run_map .binaryValue ['0', 'X'] hexDigits _
      · cases marked

end Scan

/-! ### The spelling of one token -/

/-- The text that closes a token of a class that needs closing. -/
def TokenKind.closing : TokenKind → String
  | string | nationalString => "'"
  | quotedString => "\""
  | bracketName => "]"
  | blockComment => "*/"
  | _ => ""

namespace Scan

def token (scan : Scan) (span : Span) : Token :=
  { kind := scan.kind, value := String.ofList scan.value, span }

/-- What a token covers, with the mark of a national string in upper case. -/
def raised (scan : Scan) : List Char :=
  if scan.kind = .nationalString then scan.lexeme.modifyHead Char.toUpper else scan.lexeme

/-- How the token at the front of a text relates to its spelling; `c` is the first character of the
text. -/
structure Spells (c : Char) (scan : Scan) : Prop where
  /-- A token is spelled as it stands, apart from the mark of a national string, and it is
  closed. -/
  spelling : ∀ span, (scan.token span).spelling.toList =
    scan.raised ++ if scan.closed then [] else scan.kind.closing.toList
  /-- Only a token of a class that needs closing can be left open, by the end of the text. -/
  ends : scan.closed = false → scan.rest = [] ∧ scan.kind.closing ∈ ["'", "\"", "]", "*/"]
  /-- A national string starts with its mark. -/
  marked : scan.kind = .nationalString → raiseMark c = 'N'

/-- A class whose tokens are spelled as their value. -/
def isVerbatim : TokenKind → Bool
  | .lineComment | .slashComment | .blockComment | .string | .nationalString | .quotedString
  | .bracketName => false
  | _ => true

variable {c : Char}

theorem spells_raw {kind : TokenKind} (verbatim : isVerbatim kind = true)
    (lexeme rest : List Char) :
    (raw kind lexeme rest).Spells c where
  spelling span := by
    cases kind <;> simp [isVerbatim] at verbatim <;> simp [token, raw, raised, Token.spelling]
  ends isOpen := by cases isOpen
  marked national := by rw [show kind = .nationalString from national] at verbatim; cases verbatim

theorem spells_line {kind : TokenKind} {opening : List Char}
    (isLine : kind = .lineComment ∧ opening = ['-', '-'] ∨ kind = .slashComment ∧
      opening = ['/', '/'])
    (text : List Char) : (line kind opening text).Spells c where
  spelling span := by
    rcases isLine with ⟨rfl, rfl⟩ | ⟨rfl, rfl⟩ <;> simp [token, line, raised, Token.spelling]
  ends isOpen := by cases isOpen
  marked national := by rcases isLine with ⟨rfl, rfl⟩ | ⟨rfl, rfl⟩ <;> cases national

theorem spells_block (text : List Char) : (block text).Spells c := by
  unfold block
  split
  next body rest found =>
    exact ⟨fun span => by simp [token, raised, Token.spelling], nofun,
      nofun⟩
  next body found =>
    exact ⟨fun span => by simp [token, raised, Token.spelling, TokenKind.closing],
      fun _ => ⟨rfl, by simp [TokenKind.closing]⟩, nofun⟩

theorem spells_quoted {kind : TokenKind} {opening front : List Char} {close : Char}
    (quotes : quotes? kind = some (opening, close))
    (fronts : front = opening ∨ kind = .nationalString ∧ front = ['n', '\''])
    (marked : kind = .nationalString → raiseMark c = 'N') (text : List Char) :
    (quoted kind front close text).Spells c := by
  unfold quotes? at quotes
  unfold quoted
  -- the body of a quotation is its value with the delimiter doubled, closed or not
  split
  next value body rest found =>
    refine ⟨fun span => ?_, nofun, marked⟩
    have doubled := splitQuoted_body found
    subst doubled
    split at quotes <;> cases quotes
    all_goals
      rcases fronts with rfl | ⟨⟨⟩, rfl⟩ <;>
        simp [token, raised, Token.spelling, quoteBody, bracketQuote]
  next value body found =>
    have doubled := splitQuoted_body found
    subst doubled
    split at quotes <;> cases quotes
    all_goals
      refine ⟨fun span => ?_, fun _ => ⟨rfl, by simp [TokenKind.closing]⟩, marked⟩
      rcases fronts with rfl | ⟨⟨⟩, rfl⟩ <;>
        simp [token, raised, Token.spelling, quoteBody, bracketQuote, TokenKind.closing]

theorem spells_symbol (c : Char) (rest : List Char) : (symbol c rest).Spells c := by
  unfold symbol
  split
  next kind isMark =>
    unfold punctuation? at isMark
    split at isMark <;> cases isMark <;> exact spells_raw rfl _ _
  next =>
    split
    · exact spells_raw rfl _ _
    · split
      · unfold operator
        split
        · exact spells_raw rfl _ _
        · split <;> exact spells_raw rfl _ _
      · exact spells_raw rfl _ _

theorem spells_first (c : Char) (rest : List Char) : (first c rest).Spells c := by
  have other {kind : TokenKind} (different : kind ≠ .nationalString) {mark : Char} :
      kind = .nationalString → raiseMark mark = 'N' := fun same => absurd same different
  unfold first
  split
  · exact spells_raw rfl _ _
  · split
    · exact spells_line (.inl ⟨rfl, rfl⟩) _
    · exact spells_line (.inr ⟨rfl, rfl⟩) _
    · exact spells_block _
    · exact spells_quoted rfl (.inl rfl) (other (by decide)) _
    · exact spells_quoted rfl (.inl rfl) (fun _ => rfl) _
    · exact spells_quoted rfl (.inr ⟨rfl, rfl⟩) (fun _ => rfl) _
    · exact spells_quoted rfl (.inl rfl) (other (by decide)) _
    · exact spells_quoted rfl (.inl rfl) (other (by decide)) _
    · exact spells_raw rfl _ _
    · exact spells_raw rfl _ _
    · split
      · exact spells_raw rfl _ _
      · split
        · exact spells_raw rfl _ _
        · split
          · exact spells_raw rfl _ _
          · split
            · exact spells_raw rfl _ _
            · exact spells_symbol _ _

end Scan

theorem Token.value_eq_of_spelling {token other : Token} (sameKind : token.kind = other.kind)
    (sameSpelling : token.spelling = other.spelling) : token.value = other.value := by
  have quoted : ∀ {close : Char} {value another : String},
      doubleDelimiter close value.toList ++ [close] =
        doubleDelimiter close another.toList ++ [close] →
      value = another := by
    intro close value another same
    have split : Scan.splitQuoted close (doubleDelimiter close value.toList ++ [close]) =
        (value.toList, doubleDelimiter close value.toList, some []) :=
      Scan.splitQuoted_doubleDelimiter value.toList (by simp)
    rw [same, Scan.splitQuoted_doubleDelimiter another.toList (by simp)] at split
    exact (String.toList_injective (congrArg Prod.fst split)).symm
  rcases token with ⟨kind, value, span⟩
  rcases other with ⟨otherKind, another, place⟩
  cases sameKind
  have sameText := congrArg String.toList sameSpelling
  cases kind
  case string | nationalString | quotedString | bracketName =>
    simp only [Token.spelling, bracketQuote, quoteBody, String.toList_append, String.toList_ofList,
      List.append_cancel_left_eq] at sameText
    exact quoted sameText
  all_goals
    simp only [Token.spelling, String.toList_append, List.append_cancel_left_eq,
      List.append_cancel_right_eq] at sameText
    exact String.toList_injective sameText

/-! ### Upper case at given places -/

/-- A text that starts `offset` bytes into its script, with the characters at the given places of
the script in upper case. -/
def upperAt (starts : List Nat) : Nat → List Char → List Char
  | _, [] => []
  | offset, c :: rest =>
      (if offset ∈ starts then c.toUpper else c) :: upperAt starts (offset + c.utf8Size) rest

theorem byteSize_append (front back : List Char) :
    byteSize (front ++ back) = byteSize front + byteSize back := by
  have shift : ∀ (text : List Char) (size : Nat),
      text.foldl (fun size c => size + c.utf8Size) size = size + byteSize text := by
    intro text
    induction text with
    | nil => simp [byteSize]
    | cons c text ih =>
      intro size
      rw [byteSize, List.foldl_cons, List.foldl_cons, ih, ih (0 + c.utf8Size)]
      omega
  rw [byteSize, List.foldl_append, shift]
  rfl

theorem byteSize_cons (c : Char) (text : List Char) :
    byteSize (c :: text) = c.utf8Size + byteSize text := by
  rw [← List.singleton_append, byteSize_append]
  simp [byteSize]

theorem upperAt_append (starts : List Nat) (offset : Nat) (front back : List Char) :
    upperAt starts offset (front ++ back) =
      upperAt starts offset front ++ upperAt starts (offset + byteSize front) back := by
  induction front generalizing offset with
  | nil => simp [upperAt, byteSize]
  | cons c front ih => simp [upperAt, ih, byteSize_cons, Nat.add_assoc]

theorem upperAt_congr {starts others : List Nat}
    (same : ∀ place, offset ≤ place → place < offset + byteSize text →
      (place ∈ starts ↔ place ∈ others)) :
    upperAt starts offset text = upperAt others offset text := by
  induction text generalizing offset with
  | nil => rfl
  | cons c text ih =>
    have positive := c.utf8Size_pos
    rw [byteSize_cons] at same
    have here := same offset (by omega) (by omega)
    have later : upperAt starts (offset + c.utf8Size) text =
        upperAt others (offset + c.utf8Size) text :=
      ih fun place least most => same place (by omega) (by omega)
    simp only [upperAt, here, later]

theorem upperAt_nil (offset : Nat) (text : List Char) : upperAt [] offset text = text := by
  induction text generalizing offset with
  | nil => rfl
  | cons c text ih => simp [upperAt, ih]

theorem upperAt_start (offset : Nat) (text : List Char) :
    upperAt [offset] offset text = text.modifyHead Char.toUpper := by
  cases text with
  | nil => rfl
  | cons c text =>
    have positive := c.utf8Size_pos
    have none : upperAt [offset] (offset + c.utf8Size) text =
        upperAt [] (offset + c.utf8Size) text :=
      upperAt_congr fun place least _ => by simp; omega
    simp [upperAt, none, upperAt_nil]

namespace TokenList

/-- The places where the national strings of a list start. -/
def nationalStarts (list : TokenList) : List Nat :=
  (list.tokens.filter (·.kind == .nationalString)).map (·.span.start)

def closing (list : TokenList) : String :=
  (list.tokens.getLast?.map (·.kind.closing)).getD ""

/-- The classes and the values of the tokens of a list, without their places. -/
def contents (list : TokenList) : List (TokenKind × String) :=
  list.tokens.map fun token => (token.kind, token.value)

theorem le_start_of_scanFrom (offset : Nat) (text : List Char) :
    ∀ token ∈ (scanFrom offset text).tokens, offset ≤ token.span.start := by
  fun_induction scanFrom offset text with
  | case1 => simp
  | case2 offset c rest scan stop later ih =>
    refine List.forall_mem_cons.mpr ⟨Nat.le_refl _, fun token mem => ?_⟩
    exact Nat.le_trans (Nat.le_add_right ..) (ih token mem)

theorem le_of_mem_nationalStarts {place : Nat}
    (starts : place ∈ (scanFrom offset text).nationalStarts) : offset ≤ place := by
  rcases List.mem_map.mp starts with ⟨token, mem, rfl⟩
  exact le_start_of_scanFrom offset text token (List.mem_filter.mp mem).1

/-- A text that starts `offset` bytes into its script, with the marks of its national strings in
upper case. -/
def respelled (offset : Nat) (text : List Char) : List Char :=
  upperAt (scanFrom offset text).nationalStarts offset text

section Cons

variable (offset : Nat) (c : Char) (rest : List Char)

def scanAfter : TokenList :=
  scanFrom (offset + byteSize (Scan.first c rest).lexeme) (Scan.first c rest).rest

theorem scanFrom_cons :
    scanFrom offset (c :: rest) =
      { tokens :=
          (Scan.first c rest).token ⟨offset, offset + byteSize (Scan.first c rest).lexeme⟩ ::
            (scanAfter offset c rest).tokens
        unfinished := !(Scan.first c rest).closed || (scanAfter offset c rest).unfinished } := by
  rw [scanFrom]
  rfl

/-- The text after the first token, with the marks of its national strings in upper case. -/
def respelledAfter : List Char :=
  respelled (offset + byteSize (Scan.first c rest).lexeme) (Scan.first c rest).rest

theorem respelled_cons :
    respelled offset (c :: rest) = (Scan.first c rest).raised ++ respelledAfter offset c rest := by
  have starts : ∀ place, place ∈ (scanFrom offset (c :: rest)).nationalStarts ↔
      (Scan.first c rest).kind = .nationalString ∧ place = offset ∨
        place ∈ (scanAfter offset c rest).nationalStarts := by
    intro place
    rw [scanFrom_cons]
    by_cases national : (Scan.first c rest).kind = .nationalString <;>
      simp [nationalStarts, Scan.token, national]
  have notLater : ∀ place < offset + byteSize (Scan.first c rest).lexeme,
      place ∉ (scanAfter offset c rest).nationalStarts :=
    fun place before mem => Nat.not_lt_of_le (le_of_mem_nationalStarts mem) before
  have positive : 0 < byteSize (Scan.first c rest).lexeme := by
    rcases nonempty : (Scan.first c rest).lexeme with _ | ⟨d, lexeme⟩
    · exact absurd nonempty (Scan.first_lexeme_ne_nil c rest)
    · rw [byteSize_cons]
      exact Nat.lt_of_lt_of_le d.utf8Size_pos (Nat.le_add_right ..)
  have cut :=
    upperAt_append (scanFrom offset (c :: rest)).nationalStarts offset (Scan.first c rest).lexeme
    (Scan.first c rest).rest
  rw [show _ ++ _ = c :: rest from Scan.covers_first c rest] at cut
  rw [respelled, cut]
  congr 1
  · unfold Scan.raised
    split
    next national =>
      rw [← upperAt_start offset]
      refine upperAt_congr fun place _ before => ?_
      simp [starts, national, notLater place before]
    next other =>
      have unchanged :
          upperAt (scanFrom offset (c :: rest)).nationalStarts offset (Scan.first c rest).lexeme =
            upperAt [] offset (Scan.first c rest).lexeme :=
        upperAt_congr fun place _ before => by simp [starts, other, notLater place before]
      rw [unchanged, upperAt_nil]
  · refine upperAt_congr fun place least _ => ?_
    rw [starts]
    exact or_iff_right fun first => by omega

end Cons

theorem spelling_cons (token : Token) (later : TokenList) (unfinished : Bool) :
    (TokenList.mk (token :: later.tokens) unfinished).spelling "" =
      token.spelling ++ later.spelling "" := by
  simp [spelling, warningLine, String.join_cons]

/-! ### What a script leaves open -/

def missing (list : TokenList) : String :=
  if list.unfinished then list.closing else ""

theorem missing_scanFrom_nil (offset : Nat) : (scanFrom offset []).missing = "" := by
  rw [scanFrom]
  rfl

theorem missing_of_open {c : Char} {rest : List Char}
    (isOpen : (Scan.first c rest).closed = false) :
    (scanFrom offset (c :: rest)).missing = (Scan.first c rest).kind.closing := by
  have last : (scanAfter offset c rest).tokens = [] := by
    rw [scanAfter, ((Scan.spells_first c rest).ends isOpen).1, scanFrom]
  rw [scanFrom_cons, last]
  simp [missing, isOpen, closing, Scan.token]

theorem missing_of_closed {c : Char} {rest : List Char}
    (closed : (Scan.first c rest).closed = true) :
    (scanFrom offset (c :: rest)).missing = (scanAfter offset c rest).missing := by
  rw [scanFrom_cons, closed, missing, missing]
  cases unfinished : (scanAfter offset c rest).unfinished with
  | false => rfl
  | true =>
    -- an unfinished list is not empty, so its last token is the last one here too
    have nonempty : (scanAfter offset c rest).tokens ≠ [] := by
      unfold scanAfter at unfinished ⊢
      cases after : (Scan.first c rest).rest with
      | nil =>
        rw [after, scanFrom] at unfinished
        cases unfinished
      | cons d text =>
        rw [scanFrom_cons]
        exact List.cons_ne_nil _ _
    simp [closing, List.getLast?_cons, List.getLast?_eq_some_getLast nonempty]

theorem missing_mem_of_unfinished (unfinished : (scanFrom offset text).unfinished = true) :
    (scanFrom offset text).missing ∈ ["'", "\"", "]", "*/"] := by
  induction offset, text using scanFrom.induct with
  | case1 offset =>
    rw [scanFrom] at unfinished
    cases unfinished
  | case2 offset c rest scan stop ih =>
    cases closed : (Scan.first c rest).closed with
    | false =>
      rw [missing_of_open closed]
      exact ((Scan.spells_first c rest).ends closed).2
    | true =>
      rw [scanFrom_cons, closed] at unfinished
      rw [missing_of_closed closed]
      exact ih unfinished

/-- A text is spelled as it stands, apart from the marks of its national strings, and it is
closed. -/
theorem spelling_scanFrom (offset : Nat) (text : List Char) :
    ((scanFrom offset text).spelling "").toList =
      respelled offset text ++ (scanFrom offset text).missing.toList := by
  induction offset, text using scanFrom.induct with
  | case1 offset => simp [scanFrom, spelling, respelled, upperAt, String.join, missing]
  | case2 offset c rest scan stop ih =>
    have spells := Scan.spells_first c rest
    have later : ((scanAfter offset c rest).spelling "").toList = _ := ih
    have here : ((scanFrom offset (c :: rest)).spelling "").toList =
        (Scan.first c rest).raised ++ (if (Scan.first c rest).closed then [] else
          (Scan.first c rest).kind.closing.toList) ++
            ((scanAfter offset c rest).spelling "").toList := by
      rw [scanFrom_cons, spelling_cons, String.toList_append, spells.spelling]
    rw [here, later, respelled_cons]
    cases closed : (Scan.first c rest).closed with
    | true =>
      rw [missing_of_closed closed]
      simp [scan, stop, scanAfter, respelledAfter]
    | false =>
      have ended := (spells.ends closed).1
      rw [missing_of_open closed]
      simp [scan, stop, respelledAfter, ended, respelled, upperAt, missing_scanFrom_nil]

/-! ### Reading a spelling again -/

end TokenList

namespace Scan

variable {c : Char} {rest : List Char}

theorem exists_lexeme_eq_cons (c : Char) (rest : List Char) :
    ∃ tail, (first c rest).lexeme = c :: tail := by
  have covers : (first c rest).lexeme ++ (first c rest).rest = c :: rest := covers_first c rest
  rcases nonempty : (first c rest).lexeme with _ | ⟨d, tail⟩
  · exact absurd nonempty (first_lexeme_ne_nil c rest)
  · rw [nonempty] at covers
    exact ⟨tail, by rw [(List.cons_eq_cons.mp covers).1]⟩

theorem raised_of_nationalString (national : (first c rest).kind = .nationalString) :
    ∃ tail, (first c rest).lexeme = c :: tail ∧ (first c rest).raised = 'N' :: tail := by
  rcases exists_lexeme_eq_cons c rest with ⟨tail, cons⟩
  have mark : c.toUpper = 'N' := by
    have marked := (spells_first c rest).marked national
    unfold raiseMark at marked
    split at marked
    next lower => rw [lower]; rfl
    next => rw [marked]; rfl
  exact ⟨tail, cons, by rw [raised, if_pos national, cons, List.modifyHead_cons, mark]⟩

theorem map_raised (c : Char) (rest : List Char) :
    (first c rest).raised.map raiseMark = (first c rest).lexeme.map raiseMark := by
  by_cases national : (first c rest).kind = .nationalString
  · rcases raised_of_nationalString national with ⟨tail, cons, isRaised⟩
    rw [cons, isRaised, List.map_cons, List.map_cons, (spells_first c rest).marked national]
    rfl
  · rw [raised, if_neg national]

/-- A text that differs from another one in the case of marks is cut at the same place, and the same
token is read from it. -/
theorem first_of_raised {d : Char} {back : List Char}
    (front : d :: text = (first c rest).raised ++ back)
    (later : back.map raiseMark = (first c rest).rest.map raiseMark)
    (closed : (first c rest).closed = true) :
    (first d text).kind = (first c rest).kind ∧ (first d text).value = (first c rest).value ∧
      (first d text).rest = back ∧ (first d text).closed = true := by
  have covers : (first c rest).lexeme ++ (first c rest).rest = c :: rest := covers_first c rest
  have same : (first d text).map raiseMark = (first c rest).map raiseMark := by
    have texts : (d :: text).map raiseMark = (c :: rest).map raiseMark := by
      rw [front, List.map_append, map_raised, later, ← List.map_append, covers]
    rw [List.map_cons, List.map_cons] at texts
    rw [← first_map, ← first_map, (List.cons_eq_cons.mp texts).1, (List.cons_eq_cons.mp texts).2]
  have sameKind : (first d text).kind = (first c rest).kind := by
    simpa only [map] using congrArg Scan.kind same
  have sameClosed : (first d text).closed = (first c rest).closed := by
    simpa only [map] using congrArg Scan.closed same
  have sameLength : (first d text).lexeme.length = (first c rest).raised.length := by
    have lengths := congrArg (fun scan => scan.lexeme.length) same
    have raisedLength := congrArg List.length (map_raised c rest)
    simp only [map, List.length_map] at lengths raisedLength
    rw [lengths, raisedLength]
  have cut : (first d text).lexeme = (first c rest).raised ∧ (first d text).rest = back :=
    List.append_inj ((covers_first d text).trans front) sameLength
  -- the two tokens have one class and one spelling, so they have one value
  have sameRaised : (first d text).raised = (first c rest).raised := by
    by_cases national : (first c rest).kind = .nationalString
    · rcases raised_of_nationalString national with ⟨tail, _, isRaised⟩
      rw [raised, if_pos (sameKind.trans national), cut.1, isRaised]
      rfl
    · rw [raised, if_neg (by rw [sameKind]; exact national), cut.1]
  have sameSpelling : ((first d text).token ⟨0, 0⟩).spelling =
      ((first c rest).token ⟨0, 0⟩).spelling := by
    apply String.toList_injective
    rw [(spells_first d text).spelling, (spells_first c rest).spelling, sameRaised,
      sameClosed, sameKind]
  have sameValue := Token.value_eq_of_spelling sameKind sameSpelling
  exact ⟨sameKind, String.ofList_injective sameValue, cut.2, sameClosed.trans closed⟩

end Scan

namespace TokenList

theorem map_respelled (offset : Nat) (text : List Char) :
    (respelled offset text).map raiseMark = text.map raiseMark := by
  induction offset, text using scanFrom.induct with
  | case1 offset => rfl
  | case2 offset c rest scan stop ih =>
    have covers : (Scan.first c rest).lexeme ++ (Scan.first c rest).rest = c :: rest :=
      Scan.covers_first c rest
    have later : (respelledAfter offset c rest).map raiseMark =
        (Scan.first c rest).rest.map raiseMark := ih
    rw [respelled_cons, List.map_append, Scan.map_raised, later, ← List.map_append, covers]

/-- A finished text is read again from its spelling, token by token. -/
theorem scanFrom_respelled (finished : (scanFrom offset text).unfinished = false) (other : Nat) :
    (scanFrom other (respelled offset text)).unfinished = false ∧
      (scanFrom other (respelled offset text)).contents = (scanFrom offset text).contents := by
  induction offset, text using scanFrom.induct generalizing other with
  | case1 offset => simp [respelled, upperAt, scanFrom, contents]
  | case2 offset c rest scan stop ih =>
    have parts : (Scan.first c rest).closed = true ∧
        (scanAfter offset c rest).unfinished = false := by
      rw [scanFrom_cons] at finished
      simpa only [Bool.or_eq_false_iff, Bool.not_eq_false'] using finished
    have later : ∀ other, (scanFrom other (respelledAfter offset c rest)).unfinished = false ∧
        (scanFrom other (respelledAfter offset c rest)).contents =
          (scanAfter offset c rest).contents :=
      ih parts.2
    rw [respelled_cons]
    rcases front : (Scan.first c rest).raised ++ respelledAfter offset c rest with _ | ⟨d, text⟩
    · have empty := congrArg List.length (Scan.map_raised c rest)
      rw [(List.append_eq_nil_iff.mp front).1, List.length_map, List.length_map] at empty
      exact absurd (List.length_eq_zero_iff.mp empty.symm) (Scan.first_lexeme_ne_nil c rest)
    · rcases Scan.first_of_raised front.symm (map_respelled _ _) parts.1 with
        ⟨kind, value, after, closed⟩
      have again : (scanAfter other d text).unfinished = false ∧
          (scanAfter other d text).contents = (scanAfter offset c rest).contents := by
        rw [scanAfter, after]
        exact later _
      rw [scanFrom_cons other d text, scanFrom_cons offset c rest]
      refine ⟨by simpa [closed] using again.1, ?_⟩
      simpa [contents, Scan.token, kind, value] using again.2

end TokenList

/-- The spelling of a script is the script with the mark of each national string in upper case, and
with the delimiter behind it that its last token lacks, if it was left open. When it was not, the
spelling is read as the same tokens. -/
theorem TokenList.spelling_ofText (script : String) :
    (ofText script).spelling "" =
        String.ofList (upperAt (ofText script).nationalStarts 0 script.toList) ++
          (if (ofText script).unfinished then (ofText script).closing else "") ∧
      ((ofText script).unfinished = true → (ofText script).closing ∈ ["'", "\"", "]", "*/"]) ∧
      ((ofText script).unfinished = false →
        (ofText ((ofText script).spelling "")).unfinished = false ∧
          (ofText ((ofText script).spelling "")).contents = (ofText script).contents) := by
  have spelled : (ofText script).spelling "" =
      String.ofList (respelled 0 script.toList) ++ (ofText script).missing := by
    apply String.toList_injective
    rw [ofText, spelling_scanFrom, String.toList_append, String.toList_ofList]
  refine ⟨spelled, fun unfinished => ?_, fun finished => ?_⟩
  · have mem : (ofText script).missing ∈ ["'", "\"", "]", "*/"] :=
      missing_mem_of_unfinished unfinished
    rwa [missing, if_pos unfinished] at mem
  · have whole : ((ofText script).spelling "").toList = respelled 0 script.toList := by
      rw [spelled, missing, finished]
      simp
    rw [ofText, whole]
    exact scanFrom_respelled finished 0

example : (TokenList.ofText "n'it''s' + [x").spelling "" = "N'it''s' + [x]" := by decide +kernel

end SqlLayout
