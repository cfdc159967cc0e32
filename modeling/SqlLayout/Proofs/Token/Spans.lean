import SqlLayout.Proofs.Token.Lines

/-!
# Places of tokens

The tokens of a script lie side by side from its first byte to its last. All of them are complete
but for the last one, which the end of the script can leave open. Where a quotation is put in front
of a script, its token comes first and moves those of the script.
-/

namespace SqlLayout

/-! ### Parts of a script -/

theorem byteSize_eq_utf8ByteSize (text : List Char) :
    byteSize text = (String.ofList text).utf8ByteSize := by
  induction text with
  | nil => rfl
  | cons c rest ih =>
    rw [byteSize_cons, ih, String.ofList_cons, String.utf8ByteSize_append,
      String.utf8ByteSize_singleton]

theorem isValid_byteSize (front back : List Char) :
    (String.Pos.Raw.mk (byteSize front)).IsValid (String.ofList (front ++ back)) := by
  rw [String.Pos.Raw.isValid_iff_exists_append]
  refine ⟨String.ofList front, String.ofList back, String.ofList_append, ?_⟩
  rw [byteSize_eq_utf8ByteSize]
  rfl

theorem byteSize_cons_eq_succ (c : Char) (rest : List Char) :
    ∃ size, byteSize (c :: rest) = size + 1 ∧ c.utf8Size ≤ size + 1 ∧
      size + 1 - c.utf8Size = byteSize rest := by
  have positive := c.utf8Size_pos
  refine ⟨byteSize (c :: rest) - 1, ?_, ?_, ?_⟩ <;> rw [byteSize_cons] <;> omega

namespace Span

theorem dropBytes_byteSize (front back : List Char) :
    dropBytes (byteSize front) (front ++ back) = some back := by
  induction front with
  | nil => rw [byteSize, List.foldl_nil, List.nil_append, dropBytes]
  | cons c front ih =>
    obtain ⟨size, isSize, fits, isRest⟩ := byteSize_cons_eq_succ c front
    rw [isSize, List.cons_append, dropBytes, if_pos fits, isRest, ih]

theorem takeBytes_byteSize (front back : List Char) :
    takeBytes (byteSize front) (front ++ back) = some front := by
  induction front with
  | nil => rw [byteSize, List.foldl_nil, List.nil_append, takeBytes]
  | cons c front ih =>
    obtain ⟨size, isSize, fits, isRest⟩ := byteSize_cons_eq_succ c front
    rw [isSize, List.cons_append, takeBytes, if_pos fits, isRest, ih]
    rfl

/-- A range that starts and ends between parts of a script covers the part there. -/
theorem slice_append (front middle back : List Char) :
    slice ⟨byteSize front, byteSize front + byteSize middle⟩
      (String.ofList (front ++ (middle ++ back))) = String.ofList middle := by
  rw [slice, if_pos (Nat.le_add_right ..), length, String.toList_ofList, dropBytes_byteSize,
    Option.bind_some, Nat.add_sub_cancel_left, takeBytes_byteSize]

/-- Ranges that are not empty and follow one another without a gap, from one place to another. -/
def Tile (start stop : Nat) : List Span → Prop
  | [] => start = stop
  | span :: rest => span.start = start ∧ start < span.stop ∧ Tile span.stop stop rest

end Span

theorem Scan.append_first (front : List Char) (c : Char) (rest : List Char) :
    front ++ (first c rest).lexeme ++ (first c rest).rest = front ++ c :: rest := by
  rw [List.append_assoc, show _ ++ _ = c :: rest from covers_first c rest]

namespace TokenList

/-- What holds of every first token, wherever the text before it ends, holds of every token of a
script. -/
theorem forall_scanFrom {script : List Char} {property : Token → Prop}
    (each : ∀ front c rest, front ++ c :: rest = script →
      property ((Scan.first c rest).token
        ⟨byteSize front, byteSize front + byteSize (Scan.first c rest).lexeme⟩))
    (front text : List Char) (isScript : front ++ text = script) :
    ∀ token ∈ (scanFrom (byteSize front) text).tokens, property token := by
  induction offset : byteSize front, text using scanFrom.induct generalizing front with
  | case1 => simp [scanFrom]
  | case2 _ c rest scan stop ih =>
    subst offset
    have split := (Scan.append_first front c rest).trans isScript
    rw [scanFrom_cons]
    exact List.forall_mem_cons.mpr ⟨each front c rest isScript, ih _ split (byteSize_append ..)⟩

/-- The tokens of a text cover it from its first byte to its last. -/
theorem tile_scanFrom (offset : Nat) (text : List Char) :
    Span.Tile offset (offset + byteSize text) ((scanFrom offset text).tokens.map Token.span) := by
  induction offset, text using scanFrom.induct with
  | case1 offset =>
    rw [scanFrom]
    exact (Nat.add_zero offset).symm
  | case2 offset c rest scan stop ih =>
    have covered : byteSize (c :: rest) =
        byteSize (Scan.first c rest).lexeme + byteSize (Scan.first c rest).rest := by
      rw [← byteSize_append, show _ ++ _ = c :: rest from Scan.covers_first c rest]
    have positive : 0 < byteSize (Scan.first c rest).lexeme :=
      Nat.pos_of_ne_zero fun none => Scan.first_lexeme_ne_nil c rest (eq_nil_of_byteSize none)
    rw [scanFrom_cons, covered, ← Nat.add_assoc]
    exact ⟨rfl, Nat.lt_add_of_pos_right positive, ih⟩

end TokenList

/-! ### Complete tokens -/

namespace Token

/-- The text that a token covers, with the mark of a national string in upper case. -/
def covered (script : String) (token : Token) : String :=
  let text := token.span.slice script
  if token.kind = .nationalString then String.ofList (text.toList.modifyHead Char.toUpper) else text

/-- A token covers its whole source text, with the delimiter that closes it. -/
def IsTerminated (script : String) (token : Token) : Prop :=
  token.covered script = token.spelling

instance (script : String) (token : Token) : Decidable (token.IsTerminated script) :=
  inferInstanceAs (Decidable (token.covered script = token.spelling))

end Token

namespace Scan

theorem covered_token (scan : Scan) (front : List Char) :
    ((scan.token ⟨byteSize front, byteSize front + byteSize scan.lexeme⟩).covered
      (String.ofList (front ++ (scan.lexeme ++ scan.rest)))).toList = scan.raised := by
  rw [Token.covered, token, Span.slice_append, raised]
  split <;> simp

/-- A token is terminated exactly if its scan found the delimiter that it needs. -/
theorem isTerminated_first (front : List Char) (c : Char) (rest : List Char) :
    ((first c rest).token
      ⟨byteSize front, byteSize front + byteSize (first c rest).lexeme⟩).IsTerminated
      (String.ofList (front ++ c :: rest)) ↔ (first c rest).closed = true := by
  have covered := covered_token (first c rest) front
  rw [show _ ++ _ = c :: rest from covers_first c rest] at covered
  rw [Token.IsTerminated, ← String.toList_inj, covered, (spells_first c rest).spelling]
  cases closed : (first c rest).closed with
  | true => simp
  | false =>
    have needed := ((spells_first c rest).ends closed).2
    suffices (first c rest).kind.closing.toList ≠ [] by simpa using this
    intro none
    rw [String.toList_eq_nil_iff.mp none] at needed
    exact absurd needed (by decide)

end Scan

def TokenKind.delimited : List TokenKind :=
  [string, nationalString, quotedString, bracketName, blockComment]

theorem TokenKind.mem_delimited_of_closing {kind : TokenKind}
    (needed : kind.closing ∈ ["'", "\"", "]", "*/"]) : kind ∈ delimited := by
  revert needed
  cases kind <;> decide

namespace TokenList

/-- Only the last token of a text can be left open, and a list is unfinished exactly if it is. -/
theorem unfinished_scanFrom (front text : List Char) :
    (∀ token ∈ (scanFrom (byteSize front) text).tokens.dropLast,
        token.IsTerminated (String.ofList (front ++ text))) ∧
      ((scanFrom (byteSize front) text).unfinished = true ↔
        ∃ last ∈ (scanFrom (byteSize front) text).tokens.getLast?, last.kind ∈ TokenKind.delimited ∧
          ¬last.IsTerminated (String.ofList (front ++ text))) := by
  induction offset : byteSize front, text using scanFrom.induct generalizing front with
  | case1 => simp [scanFrom]
  | case2 _ c rest scan stop ih =>
    subst offset
    have here := Scan.isTerminated_first front c rest
    have later := ih (front ++ (Scan.first c rest).lexeme) (byteSize_append ..)
    rw [Scan.append_first, show scanFrom stop scan.rest =
      scanAfter (byteSize front) c rest from rfl] at later
    rw [scanFrom_cons]
    generalize String.ofList (front ++ c :: rest) = script at here later ⊢
    cases closed : (Scan.first c rest).closed with
    | false =>
      obtain ⟨ended, needed⟩ := (Scan.spells_first c rest).ends closed
      have last : (scanAfter (byteSize front) c rest).tokens = [] := by
        rw [scanAfter, ended, scanFrom]
      rw [closed] at here
      rw [last]
      simpa [Scan.token, TokenKind.mem_delimited_of_closing needed] using here
    | true =>
      rw [closed] at here
      cases after : (scanAfter (byteSize front) c rest).tokens with
      | nil =>
        rw [after] at later
        have finished : (scanAfter (byteSize front) c rest).unfinished = false := by
          simpa using later.2
        simp [finished, here.mpr rfl]
      | cons next others =>
        rw [after] at later
        rw [List.dropLast_cons_cons, List.getLast?_cons_cons]
        exact ⟨List.forall_mem_cons.mpr ⟨here.mpr rfl, later.1⟩, by simpa using later.2⟩

/-- The tokens of a script cover it without gap or overlap, none of them is empty, and they start
and end between characters. All but the last are terminated, and the list is unfinished exactly if
the last one is a quotation or a block comment that is not. -/
theorem ofText_tiles (script : String) :
    Span.Tile 0 script.utf8ByteSize ((ofText script).tokens.map Token.span) ∧
      (∀ token ∈ (ofText script).tokens, (String.Pos.Raw.mk token.span.start).IsValid script ∧
        (String.Pos.Raw.mk token.span.stop).IsValid script) ∧
      (∀ token ∈ (ofText script).tokens.dropLast, token.IsTerminated script) ∧
      ((ofText script).unfinished = true ↔ ∃ last ∈ (ofText script).tokens.getLast?,
        last.kind ∈ TokenKind.delimited ∧ ¬last.IsTerminated script) := by
  have tile := tile_scanFrom 0 script.toList
  rw [Nat.zero_add, byteSize_eq_utf8ByteSize, String.ofList_toList] at tile
  have finished := unfinished_scanFrom [] script.toList
  rw [List.nil_append, String.ofList_toList] at finished
  refine ⟨tile, ?_, finished⟩
  refine forall_scanFrom (fun front c rest isScript => ?_) [] script.toList rfl
  rw [show script =
    String.ofList (front ++ c :: rest) by rw [isScript, List.nil_append, String.ofList_toList]]
  constructor
  · exact isValid_byteSize front (c :: rest)
  · rw [Scan.token, ← byteSize_append, ← Scan.append_first]
    exact isValid_byteSize ..

/-! ### Quotations in front of a script -/

end TokenList

def Token.shift (offset : Nat) (token : Token) : Token :=
  { token with span := ⟨offset + token.span.start, offset + token.span.stop⟩ }

namespace TokenList

theorem scanFrom_add (offset start : Nat) (text : List Char) :
    scanFrom (offset + start) text =
      { tokens := (scanFrom start text).tokens.map (Token.shift offset)
        unfinished := (scanFrom start text).unfinished } := by
  induction start, text using scanFrom.induct with
  | case1 start => simp [scanFrom]
  | case2 start c rest scan stop ih =>
    have later : scanAfter (offset + start) c rest = scanFrom (offset + stop) scan.rest := by
      rw [scanAfter, Nat.add_assoc]
    rw [scanFrom_cons, scanFrom_cons, later, ih, Nat.add_assoc]
    rfl

/-- A body that is quoted in front of a text is read as one token that covers the quotation and has
the body as its value. The tokens of the text follow, as if they were read on their own. -/
theorem ofText_quoted {kind : TokenKind} {opening : List Char} {close : Char}
    (quotes : Scan.quotes? kind = some (opening, close)) (body text : String)
    (apart : text.toList.head? ≠ some close) :
    let quotation := quoteBody (String.ofList opening) close body
    let token : Token := { kind, value := body, span := ⟨0, quotation.utf8ByteSize⟩ }
    token.IsTerminated (quotation ++ text) ∧
      ofText (quotation ++ text) =
        { tokens := token :: (ofText text).tokens.map (Token.shift quotation.utf8ByteSize)
          unfinished := (ofText text).unfinished } := by
  intro quotation token
  have chars : quotation.toList = opening ++ (doubleDelimiter close body.toList ++ [close]) := by
    simp [quotation, quoteBody]
  have size : byteSize quotation.toList = quotation.utf8ByteSize := by
    rw [byteSize_eq_utf8ByteSize, String.ofList_toList]
  have next : ∀ d ∈ text.toList.head?, d ≠ close := by
    rintro d follows rfl
    exact apart follows
  have whole : (quotation ++ text).toList =
      opening ++ (doubleDelimiter close body.toList ++ close :: text.toList) := by
    simp [chars]
  have read := Scan.first?_quoted quotes body.toList next
  rw [← whole, ← chars] at read
  cases isText : (quotation ++ text).toList with
  | nil => simp [isText, Scan.first?] at read
  | cons c rest =>
    rw [isText, Scan.first?, Option.some_inj] at read
    have isToken : (Scan.first c rest).token ⟨0, 0 + byteSize (Scan.first c rest).lexeme⟩ =
        token := by
      rw [read, Scan.token, Nat.zero_add, size, String.ofList_toList]
    constructor
    · have terminated := (Scan.isTerminated_first [] c rest).mpr (by rw [read])
      rw [List.nil_append, ← isText, String.ofList_toList] at terminated
      exact isToken ▸ terminated
    · have later : scanAfter 0 c rest = scanFrom (quotation.utf8ByteSize + 0) text.toList := by
        rw [scanAfter, read, Nat.zero_add, size, Nat.add_zero]
      rw [ofText, isText, scanFrom_cons, isToken, later, scanFrom_add, read]
      rfl

/-- A name with brackets at its front, in a run and before a comment mark, and an open string behind
it. -/
theorem ofText_quoted_brackets :
    Scan.quotes? .bracketName = some (['['], ']') ∧ "'it".toList.head? ≠ some ']' ∧
      ofText (bracketQuote "]a]]--" ++ "'it") =
        { tokens := [⟨.bracketName, "]a]]--", ⟨0, 11⟩⟩, ⟨.string, "it", ⟨11, 14⟩⟩],
          unfinished := true } := by
  have quotes : Scan.quotes? .bracketName = some (['['], ']') := rfl
  have apart : "'it".toList.head? ≠ some ']' := by decide
  refine ⟨quotes, apart, (ofText_quoted quotes "]a]]--" "'it" apart).2.trans ?_⟩
  decide +kernel

end TokenList

end SqlLayout
