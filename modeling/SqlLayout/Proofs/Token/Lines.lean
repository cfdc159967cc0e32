import Mathlib.Data.List.DropRight
import Mathlib.Data.List.Induction
import SqlLayout.Proofs.Token.Smooth

/-!
# Tokens on their lines

Where the tokens of a script stand, and what that says about the line of a token. What is left of a
line behind a token is blank, up to a comment that runs to its end, exactly if the next tokens say
so. In front of a token, the last token before it tells the same, unless that is a blank that holds
no line break.
-/

namespace SqlLayout

open Text

variable {c : Char} {text : List Char}

def isLineBreak (c : Char) : Bool :=
  c == '\r' || c == '\n'

/-- What stands behind the last line break of a text. -/
def lineBefore (text : List Char) : List Char :=
  text.rtakeWhile fun c => !isLineBreak c

/-- What stands in front of the first line break of a text. -/
def lineAfter (text : List Char) : List Char :=
  text.takeWhile fun c => !isLineBreak c

/-- Whether a text starts with a comment that runs to the end of its line. -/
def opensLineComment : List Char → Bool
  | '-' :: '-' :: _ | '/' :: '/' :: _ => true
  | _ => false

/-- A line that holds nothing but blanks up to its end or a comment that runs to it. -/
def isLineEnd (line : List Char) : Bool :=
  let rest := line.dropWhile isBlank
  rest.isEmpty || opensLineComment rest

theorem isBlank_of_isLineBreak (ends : isLineBreak c = true) : isBlank c = true := by
  simp only [isLineBreak, Bool.or_eq_true, beq_iff_eq] at ends
  rcases ends with rfl | rfl <;> decide

theorem isLineBreak_of_not_isBlank (solid : isBlank c = false) : isLineBreak c = false := by
  cases ends : isLineBreak c with
  | false => rfl
  | true =>
    rw [isBlank_of_isLineBreak ends] at solid
    cases solid

theorem containsLineBreak_ofList (text : List Char) :
    containsLineBreak (String.ofList text) = text.any isLineBreak := by
  rw [containsLineBreak, String.toList_ofList]
  rfl

/-! ### The line in front -/

theorem lineBefore_append_singleton (text : List Char) (c : Char) :
    lineBefore (text ++ [c]) = if isLineBreak c then [] else lineBefore text ++ [c] := by
  rw [lineBefore, List.rtakeWhile_concat]
  cases isLineBreak c <;> rfl

theorem not_all_lineBefore (last : text.getLast? = some c) (solid : isBlank c = false) :
    (lineBefore text).all isBlank = false := by
  obtain ⟨front, rfl⟩ := List.getLast?_eq_some_iff.mp last
  rw [lineBefore_append_singleton, isLineBreak_of_not_isBlank solid]
  simp [solid]

theorem lineBefore_of_isLineBreak (last : text.getLast? = some c) (ends : isLineBreak c = true) :
    lineBefore text = [] := by
  obtain ⟨front, rfl⟩ := List.getLast?_eq_some_iff.mp last
  rw [lineBefore_append_singleton, if_pos ends]

theorem all_lineBefore_append {front blanks : List Char} (blank : blanks.all isBlank = true)
    (breaks : blanks.any isLineBreak = true) :
    (lineBefore (front ++ blanks)).all isBlank = true := by
  induction blanks using List.reverseRecOn with
  | nil => cases breaks
  | append_singleton blanks c ih =>
    rw [List.all_append, Bool.and_eq_true] at blank
    rw [← List.append_assoc, lineBefore_append_singleton]
    split
    · rfl
    next stays =>
      have earlier : blanks.any isLineBreak = true := by simpa [stays] using breaks
      rw [List.all_append, ih blank.1 earlier, blank.2]
      rfl

/-! ### The line behind -/

theorem lineAfter_cons (rest : List Char) (solid : isBlank c = false) :
    lineAfter (c :: rest) = c :: lineAfter rest := by
  rw [lineAfter, List.takeWhile_cons_of_pos (by simp [isLineBreak_of_not_isBlank solid])]
  rfl

theorem opensLineComment_lineAfter (text : List Char) :
    opensLineComment (lineAfter text) = opensLineComment text := by
  have dash : isBlank '-' = false := by decide
  have slash : isBlank '/' = false := by decide
  fun_cases opensLineComment text with
  | case1 rest => rw [lineAfter_cons _ dash, lineAfter_cons _ dash]; rfl
  | case2 rest => rw [lineAfter_cons _ slash, lineAfter_cons _ slash]; rfl
  | case3 _ notDash notSlash =>
    -- What is left of the text starts as the text does.
    obtain ⟨rest, split⟩ : ∃ rest, text = lineAfter text ++ rest :=
      ⟨_, List.takeWhile_append_dropWhile.symm⟩
    unfold opensLineComment
    split
    next more isLine => exact absurd (by rw [split, isLine]; rfl) (notDash (more ++ rest))
    next more isLine => exact absurd (by rw [split, isLine]; rfl) (notSlash (more ++ rest))
    next => rfl

/-- A line that starts with a character that is no blank is at its end only where a comment
starts. -/
theorem isLineEnd_of_solid (rest : List Char) (solid : isBlank c = false) :
    isLineEnd (lineAfter (c :: rest)) = opensLineComment (c :: rest) := by
  rw [← opensLineComment_lineAfter, lineAfter_cons rest solid, isLineEnd,
    List.dropWhile_cons_of_neg (by simp [solid])]
  rfl

theorem isLineEnd_of_isLineBreak (rest : List Char) (ends : isLineBreak c = true) :
    isLineEnd (lineAfter (c :: rest)) = true := by
  rw [lineAfter, List.takeWhile_cons_of_neg (by simp [ends])]
  rfl

theorem isLineEnd_cons (rest : List Char) (blank : isBlank c = true)
    (stays : isLineBreak c = false) :
    isLineEnd (lineAfter (c :: rest)) = isLineEnd (lineAfter rest) := by
  rw [lineAfter, List.takeWhile_cons_of_pos (by simp [stays]), isLineEnd,
    List.dropWhile_cons_of_pos blank]
  rfl

/-- Blanks end the line if one of them is a line break, and else they do not matter. -/
theorem isLineEnd_append {blanks : List Char} (rest : List Char)
    (blank : blanks.all isBlank = true) :
    isLineEnd (lineAfter (blanks ++ rest)) =
      (blanks.any isLineBreak || isLineEnd (lineAfter rest)) := by
  induction blanks with
  | nil => rfl
  | cons c blanks ih =>
    rw [List.all_cons, Bool.and_eq_true] at blank
    rw [List.cons_append, List.any_cons]
    cases ends : isLineBreak c with
    | true => exact isLineEnd_of_isLineBreak _ ends
    | false =>
      rw [isLineEnd_cons _ blank.1 ends, ih blank.2]
      rfl

/-! ### Single tokens -/

namespace Scan

variable {c : Char} {rest : List Char}

theorem first_of_isBlank (blank : isBlank c = true) :
    first c rest = run .whiteSpace [c] isBlank rest := by
  unfold first
  exact if_pos blank

theorem endsLine_of_isBlank (blank : isBlank c = true) (span : Span) :
    ((first c rest).token span).endsLine = (c :: rest.takeWhile isBlank).any isLineBreak := by
  rw [first_of_isBlank blank]
  exact containsLineBreak_ofList _

theorem splitLine_last (more : (splitLine text).2 ≠ []) :
    ∃ c, (splitLine text).1.getLast? = some c ∧ isLineBreak c = true := by
  fun_induction splitLine text with
  | case1 => exact absurd rfl more
  | case2 | case3 | case4 => exact ⟨_, rfl, rfl⟩
  | case5 c rest _ _ _ line after split ih =>
    rw [split] at ih
    obtain ⟨last, isLast, ends⟩ := ih more
    exact ⟨last, by simp [List.getLast?_cons, isLast], ends⟩

theorem isSolid_symbol (c : Char) (rest : List Char) : (symbol c rest).kind.isSolid = true := by
  unfold symbol
  split
  next kind isMark =>
    unfold punctuation? at isMark
    split at isMark <;> cases isMark <;> rfl
  split
  · rfl
  split
  · fun_cases operator c rest <;> rfl
  · rfl

theorem isSolid_firstUnmarked (c : Char) (rest : List Char) :
    (firstUnmarked c rest).kind.isSolid = true := by
  unfold firstUnmarked
  split
  · rfl
  split
  · rfl
  split
  · rfl
  split
  · rfl
  · exact isSolid_symbol c rest

theorem kind_quoted (kind : TokenKind) (opening : List Char) (close : Char) (text : List Char) :
    (quoted kind opening close text).kind = kind := by
  unfold quoted
  split <;> rfl

theorem kind_block (text : List Char) : (block text).kind = .blockComment := by
  unfold block
  split <;> rfl

/-- How a text is read that starts with no blank. -/
inductive Shape (text : List Char) : Scan → Prop where
  | line {kind : TokenKind} (isLine : kind = .lineComment ∨ kind = .slashComment)
      (opening body : List Char) (opens : opensLineComment text = true) :
      Shape text (line kind opening body)
  | block (body : List Char) (other : opensLineComment text = false) : Shape text (block body)
  | quoted {kind : TokenKind} {close : Char} (quotes : (quotes? kind).isSome = true)
      (solid : isBlank close = false) (opening body : List Char)
      (other : opensLineComment text = false) :
      Shape text (quoted kind opening close body)
  | solid {scan : Scan} (isSolid : scan.kind.isSolid = true)
      (other : opensLineComment text = false) : Shape text scan

theorem shape_first (solid : isBlank c = false) : Shape (c :: rest) (first c rest) := by
  cases marked : isMarked c rest with
  | false =>
    rw [first_of_not_isMarked solid marked]
    refine .solid (isSolid_firstUnmarked c rest) ?_
    unfold opensLineComment
    split
    next starts =>
      cases starts
      cases marked
    next starts =>
      cases starts
      cases marked
    next => rfl
  | true =>
    unfold isMarked at marked
    split at marked
    · exact .line (.inl rfl) ['-', '-'] _ rfl
    · exact .line (.inr rfl) ['/', '/'] _ rfl
    · exact .block _ rfl
    · exact .quoted rfl (by decide) ['\''] _ rfl
    · exact .quoted rfl (by decide) ['N', '\''] _ rfl
    · exact .quoted rfl (by decide) ['n', '\''] _ rfl
    · exact .quoted rfl (by decide) ['"'] _ rfl
    · exact .quoted rfl (by decide) ['['] _ rfl
    · exact .solid rfl rfl
    · exact .solid rfl rfl
    · cases marked

/-- A comment to the end of the line is told by how it starts. -/
theorem endsLine_of_not_isBlank (solid : isBlank c = false) (span : Span) :
    ((first c rest).token span).endsLine = opensLineComment (c :: rest) := by
  have shape := @shape_first c rest solid
  generalize first c rest = scan at shape ⊢
  rw [Token.endsLine, token]
  cases shape with
  | line isLine opening body opens =>
    rw [opens]
    rcases isLine with rfl | rfl <;> rfl
  | block body other =>
    rw [other, kind_block]
  | @quoted kind _ quotes _ _ _ other =>
    rw [other, kind_quoted]
    revert quotes
    cases kind <;> simp [quotes?]
  | solid isSolid other =>
    rw [other]
    revert isSolid
    cases scan.kind <;> simp [TokenKind.isSolid]

theorem isWhiteSpace_first (c : Char) (rest : List Char) :
    ((first c rest).kind == .whiteSpace) = isBlank c := by
  cases blank : isBlank c with
  | true =>
    rw [first_of_isBlank blank]
    rfl
  | false =>
    have shape := @shape_first c rest blank
    generalize first c rest = scan at shape ⊢
    cases shape with
    | line isLine opening body _ => rcases isLine with rfl | rfl <;> rfl
    | block body _ => rw [kind_block]; rfl
    | @quoted kind _ quotes _ _ _ _ =>
      rw [kind_quoted]
      revert quotes
      cases kind <;> simp [quotes?]
    | solid isSolid _ =>
      revert isSolid
      cases scan.kind <;> simp [TokenKind.isSolid]

theorem lexeme_eq_value (solid : (first c rest).kind.isSolid = true) :
    (first c rest).lexeme = (first c rest).value := by
  obtain ⟨spelling, ends, _⟩ := spells_first c rest
  have verbatim : ((first c rest).token ⟨0, 0⟩).spelling = String.ofList (first c rest).value ∧
      (first c rest).kind ≠ .nationalString ∧ (first c rest).kind.closing = "" := by
    rw [Token.spelling, token]
    revert solid
    cases (first c rest).kind <;> simp [TokenKind.isSolid, TokenKind.closing]
  have spelled := spelling ⟨0, 0⟩
  rw [verbatim.1, verbatim.2.2, raised, if_neg verbatim.2.1] at spelled
  simpa using spelled.symm

theorem last_quoted {kind : TokenKind} {opening : List Char} {close : Char}
    (closed : (quoted kind opening close text).closed = true) :
    (quoted kind opening close text).lexeme.getLast? = some close := by
  unfold quoted at closed ⊢
  split at closed
  next => simp
  next => cases closed

theorem last_block (closed : (block text).closed = true) :
    (block text).lexeme.getLast? = some '/' := by
  unfold block at closed ⊢
  split at closed
  next => simp [List.getLast?_cons]
  next => cases closed

/-- What is neither a blank nor a comment to the end of the line ends in a character that is no
blank, unless it is left open. -/
theorem last_of_closed (closed : (first c rest).closed = true)
    (notBlank : (first c rest).kind ≠ .whiteSpace) (notLine : (first c rest).kind ≠ .lineComment)
    (notSlash : (first c rest).kind ≠ .slashComment) :
    ∃ d, (first c rest).lexeme.getLast? = some d ∧ isBlank d = false := by
  have solid : isBlank c = false := by
    rw [← isWhiteSpace_first c rest, beq_eq_false_iff_ne]
    exact notBlank
  have shape := @shape_first c rest solid
  generalize isFirst : first c rest = scan at closed notLine notSlash shape ⊢
  cases shape with
  | line isLine _ _ _ =>
    rcases isLine with rfl | rfl
    · exact absurd rfl notLine
    · exact absurd rfl notSlash
  | block _ _ => exact ⟨'/', last_block closed, by decide⟩
  | quoted _ closesSolid _ _ _ => exact ⟨_, last_quoted closed, closesSolid⟩
  | solid isSolid _ =>
    subst isFirst
    have nonempty := first_lexeme_ne_nil c rest
    refine ⟨_, List.getLast?_eq_some_getLast nonempty, not_isBlank_first isSolid _ ?_⟩
    rw [← lexeme_eq_value isSolid]
    exact List.getLast_mem nonempty

theorem last_of_line (more : (first c rest).rest ≠ [])
    (isLine : (first c rest).kind = .lineComment ∨ (first c rest).kind = .slashComment) :
    ∃ d, (first c rest).lexeme.getLast? = some d ∧ isLineBreak d = true := by
  have solid : isBlank c = false := by
    rw [← isWhiteSpace_first c rest]
    rcases isLine with isLine | isLine <;> rw [isLine] <;> rfl
  have shape := @shape_first c rest solid
  generalize first c rest = scan at more isLine shape ⊢
  cases shape with
  | line _ opening body _ =>
    obtain ⟨d, isLast, ends⟩ := splitLine_last more
    exact ⟨d, by simp [line, List.getLast?_append, isLast], ends⟩
  | block body _ => simp [kind_block] at isLine
  | quoted quotes _ _ _ _ =>
    rw [kind_quoted] at isLine
    rcases isLine with rfl | rfl <;> cases quotes
  | solid isSolid _ =>
    rcases isLine with isLine | isLine <;> rw [isLine] at isSolid <;> cases isSolid

end Scan

/-! ### The tokens of a script -/

namespace TokenList

/-- A text ends where a token does. -/
def EndsWith (before after : List Char) (token : Token) : Prop :=
  ∃ front c tail span, before = front ++ (Scan.first c tail).lexeme ∧
    (Scan.first c tail).rest = after ∧ token = (Scan.first c tail).token span

theorem EndsWith.append {before after : List Char} {token : Token}
    (ends : EndsWith before after token) (front : List Char) :
    EndsWith (front ++ before) after token := by
  obtain ⟨middle, c, tail, span, rfl, isRest, isToken⟩ := ends
  exact ⟨front ++ middle, c, tail, span, by rw [List.append_assoc], isRest, isToken⟩

/-- Where the tokens of a text are divided, the text is. -/
theorem scanFrom_split {offset : Nat} {read rest : List Token}
    (isTokens : (scanFrom offset text).tokens = read ++ rest) :
    ∃ before after, text = before ++ after ∧
      (scanFrom (offset + byteSize before) after).tokens = rest ∧
      (read = [] → before = []) ∧ ∀ last ∈ read.getLast?, EndsWith before after last := by
  induction read generalizing offset text with
  | nil => exact ⟨[], text, rfl, isTokens, fun _ => rfl, by simp⟩
  | cons token read ih =>
    cases text with
    | nil => simp [scanFrom] at isTokens
    | cons c tail =>
      rw [scanFrom_cons] at isTokens
      obtain ⟨rfl, isLater⟩ := List.cons_eq_cons.mp isTokens
      obtain ⟨before, after, split, isRest, atStart, ends⟩ := ih isLater
      refine ⟨(Scan.first c tail).lexeme ++ before, after, ?_, ?_, by simp, ?_⟩
      · rw [List.append_assoc, ← split]
        exact (Scan.covers_first c tail).symm
      · rw [byteSize_append, ← Nat.add_assoc]
        exact isRest
      · intro last isLast
        cases read with
        | nil =>
          obtain rfl := Option.mem_some_iff.mp isLast
          obtain rfl := atStart rfl
          exact ⟨[], c, tail, _, by simp, split, rfl⟩
        | cons next read => exact (ends last (by simpa using isLast)).append _

/-- Behind a token a line starts with blanks if the token ends a line, and only then, but for blanks
without a line break. -/
theorem EndsWith.endsLine {before after : List Char} {token : Token}
    (ends : EndsWith before after token) (more : after ≠ []) :
    token.endsLine = ((lineBefore before).all isBlank &&
      (token.kind != .whiteSpace || containsLineBreak token.value)) := by
  obtain ⟨front, c, tail, span, rfl, rfl, rfl⟩ := ends
  have last {d : Char} (isLast : (Scan.first c tail).lexeme.getLast? = some d) :
      (front ++ (Scan.first c tail).lexeme).getLast? = some d := by
    simp [List.getLast?_append, isLast]
  by_cases isBlanks : (Scan.first c tail).kind = .whiteSpace
  · have blank : isBlank c = true := by simpa [isBlanks] using (Scan.isWhiteSpace_first c tail).symm
    have blanks : (c :: tail.takeWhile isBlank).all isBlank = true := by simp [blank]
    rw [Scan.endsLine_of_isBlank blank, Scan.first_of_isBlank blank]
    simp only [Scan.run, Scan.raw, Scan.token, List.singleton_append, containsLineBreak_ofList]
    cases breaks : (c :: tail.takeWhile isBlank).any isLineBreak with
    | true =>
      rw [all_lineBefore_append blanks breaks]
      rfl
    | false => simp
  by_cases isLine : (Scan.first c tail).kind = .lineComment ∨
    (Scan.first c tail).kind = .slashComment
  · obtain ⟨d, isLast, breaks⟩ := Scan.last_of_line more isLine
    rw [lineBefore_of_isLineBreak (last isLast) breaks, Token.endsLine]
    rcases isLine with isLine | isLine <;> simp [Scan.token, isLine]
  · obtain ⟨notLine, notSlash⟩ := not_or.mp isLine
    have closed : (Scan.first c tail).closed = true := by
      cases closed : (Scan.first c tail).closed with
      | true => rfl
      | false => exact absurd ((Scan.spells_first c tail).ends closed).1 more
    obtain ⟨d, isLast, solid⟩ := Scan.last_of_closed closed isBlanks notLine notSlash
    rw [not_all_lineBefore (last isLast) solid, Token.endsLine]
    cases isKind : (Scan.first c tail).kind <;> simp_all [Scan.token]

/-- Whether tokens say that the line in front of them is at its end. -/
def endLine : List Token → Bool
  | [] => true
  | next :: after => next.endsLine || (next.kind == .whiteSpace && after.head?.all Token.endsLine)

theorem endLine_of_not_isBlank (rest : List Char) (solid : isBlank c = false) (offset : Nat) :
    (scanFrom offset (c :: rest)).tokens.head?.all Token.endsLine =
      opensLineComment (c :: rest) := by
  rw [scanFrom_cons]
  exact Scan.endsLine_of_not_isBlank solid _

/-- A line is at its end exactly if the next tokens say so. -/
theorem endLine_scanFrom (offset : Nat) (text : List Char) :
    endLine (scanFrom offset text).tokens = isLineEnd (lineAfter text) := by
  cases text with
  | nil =>
    rw [scanFrom]
    rfl
  | cons c rest =>
    have isBlanks := Scan.isWhiteSpace_first c rest
    cases blank : isBlank c with
    | false =>
      rw [isLineEnd_of_solid rest blank, scanFrom_cons, endLine, Scan.endsLine_of_not_isBlank blank]
      simp [Scan.token, isBlanks, blank]
    | true =>
      have blanks : (c :: rest.takeWhile isBlank).all isBlank = true := by simp [blank]
      have split : c :: rest = (c :: rest.takeWhile isBlank) ++ rest.dropWhile isBlank := by
        rw [List.cons_append, List.takeWhile_append_dropWhile]
      -- Behind the blanks comes a token that ends the line, or nothing.
      have later : ∀ offset,
          (scanFrom offset (rest.dropWhile isBlank)).tokens.head?.all Token.endsLine =
          isLineEnd (lineAfter (rest.dropWhile isBlank)) := by
        intro offset
        cases isRest : rest.dropWhile isBlank with
        | nil =>
          rw [scanFrom]
          rfl
        | cons d more =>
          have solid : isBlank d = false := by
            have := List.head?_dropWhile_not isBlank rest
            simpa [isRest] using this
          rw [endLine_of_not_isBlank more solid, isLineEnd_of_solid more solid]
      have isRest : (Scan.first c rest).rest = rest.dropWhile isBlank := by
        rw [Scan.first_of_isBlank blank]
        rfl
      have isKind :
          (((Scan.first c rest).token
            ⟨offset, offset + byteSize (Scan.first c rest).lexeme⟩).kind ==
          .whiteSpace) = true := isBlanks.trans blank
      rw [scanFrom_cons, endLine, Scan.endsLine_of_isBlank blank, isKind, scanAfter, isRest,
        later, Bool.true_and,
        split, isLineEnd_append _ blanks]

end TokenList

theorem eq_nil_of_byteSize (size : byteSize text = 0) : text = [] := by
  cases text with
  | nil => rfl
  | cons c rest =>
    rw [byteSize_cons] at size
    have := c.utf8Size_pos
    omega

/-- A place in a text, counted in bytes, splits it in one way. -/
theorem append_inj_of_byteSize {front back first rest : List Char}
    (eq : front ++ back = first ++ rest) (size : byteSize front = byteSize first) :
    front = first ∧ back = rest := by
  rcases List.append_eq_append_iff.mp eq with ⟨more, rfl, rfl⟩ | ⟨more, rfl, rfl⟩
  all_goals
    rw [byteSize_append] at size
    obtain rfl : more = [] := eq_nil_of_byteSize (by omega)
    simp

end SqlLayout
