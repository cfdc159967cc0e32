import Mathlib.Data.List.Forall2
import SqlLayout.Proofs.Layout.Casing
import SqlLayout.Proofs.Layout.LineComments
import SqlLayout.Proofs.Layout.Names
import SqlLayout.Proofs.Layout.Separation

/-!
# What pieces are read as

Every piece of a formatted script is written for some tokens of the script, one after the other, and
is read back as tokens with the same keys, if what follows does not join the last of them. `Writes`
says so, with what has to be known about a piece to tell whether the next one joins it.
-/

namespace SqlLayout

open Text Piece

variable {value text : String}

/-- A token without its place. -/
structure Atom where
  kind : TokenKind
  value : String
deriving DecidableEq

namespace Atom

def key (atom : Atom) : TokenKind × String :=
  (atom.kind, upper atom.value)

/-- A character that may come right after tokens without joining the last one. -/
def mayFollow (atoms : List Atom) (c : Char) : Bool :=
  atoms.getLast?.all fun atom => Scan.mayFollow atom.kind atom.value.toList c

/-- A token that a point joins, or a point that a digit joins. -/
def joins (first second : Atom) : Bool :=
  second.kind == .period && !Scan.mayFollow first.kind first.value.toList '.' ||
    first.kind == .period && [TokenKind.number, .binaryValue].contains second.kind &&
      Scan.headIs isDigit second.value.toList

end Atom

/-- White space, a mark or a comment comes after any token, but a point only after some and a
comment not after an operator. -/
theorem Scan.mayFollow_of_isBreak {c : Char} (breaks : isBreak c = true) (noPoint : c ≠ '.')
    {kind : TokenKind} (free : kind = .otherOperator → c ≠ '-' ∧ c ≠ '/') (text : List Char) :
    mayFollow kind text c = true := by
  have apart : (isDigit c || ['\'', '"', ']'].contains c) = false := by
    clear noPoint free
    revert c
    apply forall_isBreak <;> decide
  simp only [Bool.or_eq_false_iff, List.contains_eq_mem, decide_eq_false_iff_not, List.mem_cons,
    List.not_mem_nil, or_false, not_or] at apart
  unfold mayFollow
  split
  all_goals simp_all

theorem Atom.mayFollow_blank (atoms : List Atom) : ∀ c ∈ ['\n', ' '], mayFollow atoms c = true := by
  intro c member
  rw [mayFollow]
  cases atoms.getLast? with
  | none => rfl
  | some atom =>
    simp only [List.mem_cons, List.not_mem_nil, or_false] at member
    rcases member with rfl | rfl <;>
      exact Scan.mayFollow_of_isBreak (by decide) (by decide) (fun _ => by decide) _

/-- The token of a symbol that is neither a blank nor a comment. -/
def Symbol.atom? : Symbol → Option Atom
  | token kind value => some ⟨kind, value⟩
  | trivia _ _ => none
  | opening => some ⟨.openParens, "("⟩
  | closing => some ⟨.closeParens, ")"⟩

/-- A symbol that can be read back: a token as it is spelled, in ASCII if it is a pseudo name, and a
comment that ends where it should. -/
def Symbol.Readable : Symbol → Prop
  | token kind value => (∃ text, Scan.Lexeme kind value.toList text) ∧
      (kind = .pseudoName → ∀ c ∈ value.toList, c.toNat < 128)
  | trivia kind text => kind = .blockComment → Scan.IsBlockBody text.toList
  | opening | closing => True

theorem Symbol.Readable.lexeme {kind : TokenKind} {value : String}
    (readable : Readable (.token kind value)) (unquoted : Scan.quotes? kind = none) :
    Scan.Lexeme kind value.toList value.toList := by
  rcases readable with ⟨⟨text, lexeme⟩, _⟩
  have same := lexeme.eq_value unquoted
  rwa [same] at lexeme

/-- A piece that is written for tokens. A comment may run to the end of its line. -/
structure Writes (atoms : List Atom) (piece : String) (runsOn : Bool) : Prop where
  prints : Prints (atoms.map Atom.key) piece.toList
    (if runsOn then (· == '\n') else Atom.mayFollow atoms)
  written : piece ≠ ""
  tight : piece ∈ ":" :: tightMarks → piece ≠ "." → ∀ c, Atom.mayFollow atoms c = true
  point : piece = "." → ∃ value, atoms = [⟨.period, value⟩]
  digit : Scan.headIs isDigit piece.toList = true → ∃ atom rest, atoms = atom :: rest ∧
    atom.kind ∈ [TokenKind.number, .binaryValue] ∧ Scan.headIs isDigit atom.value.toList = true
  calm : isCalm piece = true → ∀ atom ∈ atoms.getLast?, atom.kind ≠ .otherOperator

/-! ### Lexemes -/

namespace Scan

variable {kind : TokenKind} {value text : List Char}

theorem Lexeme.first?_eq (lexeme : Lexeme kind value text) :
    first? text = some { kind, value, lexeme := text, rest := [] } := by
  have read :=
    lexeme.first?_append (by simp : ∀ d ∈ ([] : List Char).head?, mayFollow kind text d = true)
  rwa [List.append_nil] at read

theorem Lexeme.kind_of_tight {piece : String} (lexeme : Lexeme kind value piece.toList)
    (tight : piece ∈ ":" :: tightMarks) :
    kind = .period ∧ piece = "." ∨ piece ≠ "." ∧ ∀ other c, mayFollow kind other c = true := by
  have listed : ∀ mark ∈ ":" :: tightMarks, ∀ scan, first? mark.toList = some scan →
      scan.rest = [] → scan.kind = .period ∧ mark = "." ∨ mark ≠ "." ∧
        scan.kind ∈ [TokenKind.openParens, .closeParens, .comma, .semicolon, .colon] := by
    simp only [tightMarks, List.forall_mem_cons]
    refine ⟨?_, ?_, ?_, ?_, ?_, ?_, ?_, by simp⟩ <;>
      · rintro scan isScan
        cases isScan
        decide
  refine (listed _ tight _ lexeme.first?_eq rfl).imp_right (.imp_right fun isMark other c => ?_)
  simp only [List.mem_cons, List.not_mem_nil, or_false] at isMark
  rcases isMark with rfl | rfl | rfl | rfl | rfl <;> rfl

theorem Lexeme.eq_mark {c : Char} (isMark : punctuation? c = some kind)
    (lexeme : Lexeme kind value text) : value = [c] ∧ text = [c] := by
  cases lexeme with
  | @mark _ d other =>
    have same : d = c := by
      unfold punctuation? at isMark other
      split at isMark <;> cases isMark <;> split at other <;> cases other <;> rfl
    subst same
    exact ⟨rfl, rfl⟩
  | quoted quotes =>
    unfold punctuation? at isMark
    split at isMark <;> cases isMark <;> cases quotes
  | _ =>
    unfold punctuation? at isMark
    split at isMark <;> cases isMark

theorem Lexeme.kind_of_digit (lexeme : Lexeme kind value text)
    (digit : headIs isDigit text = true) :
    kind ∈ [TokenKind.number, .binaryValue] := by
  cases text with
  | nil => cases digit
  | cons c rest =>
    have digit : isDigit c = true := digit
    have found : (first c rest).kind ∈ [TokenKind.number, .binaryValue] := by
      unfold first
      rw [if_neg (by simp [not_isBlank_of_isDigit digit])]
      split
      case h_9 | h_10 => simp [run, raw]
      case h_11 =>
        rw [if_pos (by simp [digit])]
        exact List.mem_cons_self
      all_goals cases digit
    rwa [Option.some.inj lexeme.first?_eq] at found

/-- An operator is followed by a comment only after a blank. -/
theorem Lexeme.not_isCalm {piece : String} (lexeme : Lexeme .otherOperator value piece.toList) :
    isCalm piece = false := by
  unfold isCalm
  generalize piece.toList = text at lexeme
  have isKind := congrArg (Option.map Scan.kind) lexeme.first?_eq
  have operates : headIs isOperatorChar text = true := by
    cases lexeme with
    | mark isMark =>
      unfold punctuation? at isMark
      split at isMark <;> cases isMark
    | operator operates => exact operates
    | combined operates => exact operates
    | quoted quotes => cases quotes
  rw [operates, Bool.not_true, Bool.or_false, List.any_eq_false]
  simp only [List.forall_mem_cons, List.isPrefixOf_iff_prefix]
  refine ⟨?_, ?_, ?_, by simp⟩ <;> rintro ⟨body, rfl⟩
  · cases isKind
  · cases isKind
  · have isBlock : first? ("/*".toList ++ body) = some (block body) := rfl
    have kind : (block body).kind = .blockComment := by
      unfold block
      split <;> rfl
    rw [isBlock, Option.map_some, kind] at isKind
    cases isKind

end Scan

theorem Writes.lexeme {kind : TokenKind} {value piece : String} {written : List Char}
    (lexeme : Scan.Lexeme kind written piece.toList)
    (same : upper (String.ofList written) = upper value)
    (follows : ∀ c, Scan.mayFollow kind value.toList c = true →
      Scan.mayFollow kind piece.toList c = true)
    (digit : Scan.headIs isDigit piece.toList = true → Scan.headIs isDigit value.toList = true) :
    Writes [⟨kind, value⟩] piece false := by
  refine ⟨?_, ?_, ?_, ?_, ?_, ?_⟩
  · rw [List.map_singleton, Atom.key, ← same]
    exact (Prints.lexeme lexeme).weaken fun c may => follows c (by simpa [Atom.mayFollow] using may)
  · rintro rfl
    cases lexeme.first?_eq
  · intro tight noPoint c
    rcases lexeme.kind_of_tight tight with ⟨_, isPoint⟩ | ⟨_, may⟩
    · exact absurd isPoint noPoint
    · simp [Atom.mayFollow, may]
  · rintro rfl
    rcases lexeme.kind_of_tight (by decide) with ⟨rfl, _⟩ | ⟨noPoint, _⟩
    · exact ⟨value, rfl⟩
    · exact absurd rfl noPoint
  · intro starts
    exact ⟨_, [], rfl, lexeme.kind_of_digit starts, digit starts⟩
  · rintro calm atom ⟨⟩ rfl
    rw [lexeme.not_isCalm] at calm
    cases calm

namespace Writes

theorem plain {kind : TokenKind} (lexeme : Scan.Lexeme kind value.toList value.toList) :
    Writes [⟨kind, value⟩] value false :=
  Writes.lexeme lexeme (congrArg upper String.ofList_toList) (fun _ may => may) id

theorem quoted {kind : TokenKind} {opening : List Char} {close : Char}
    (quotes : Scan.quotes? kind = some (opening, close)) (value : String) :
    Writes [⟨kind, value⟩] (quoteBody (String.ofList opening) close value) false := by
  have lexeme :
      Scan.Lexeme kind value.toList (quoteBody (String.ofList opening) close value).toList := by
    simpa [quoteBody] using Scan.Lexeme.quoted quotes value.toList
  refine Writes.lexeme lexeme (congrArg upper String.ofList_toList) (fun c may => ?_) fun digit =>
    ?_
  all_goals
    unfold Scan.quotes? at quotes
    split at quotes <;> cases quotes
  all_goals first
    | exact absurd (lexeme.kind_of_digit digit) (by simp)
    | simpa only [Scan.mayFollow] using may

theorem recased {kind : TokenKind} {piece : String}
    (lexeme : Scan.Lexeme kind piece.toList piece.toList) (same : upper piece = upper value)
    (among : kind ∈ [TokenKind.word, .pseudoName, .binaryValue])
    (noPoint : Scan.takesPoint kind piece.toList = false)
    (digit : Scan.headIs isDigit piece.toList = true → Scan.headIs isDigit value.toList = true) :
    Writes [⟨kind, value⟩] piece false := by
  refine Writes.lexeme lexeme (by rwa [String.ofList_toList]) ?_ digit
  intro c may
  simp only [List.mem_cons, List.not_mem_nil, or_false] at among
  rcases among with rfl | rfl | rfl <;>
    · simp only [Scan.mayFollow, Bool.and_eq_true] at may ⊢
      exact ⟨may.1, by simp [noPoint]⟩

theorem word (word : Scan.isWord text.toList = true) (same : upper text = upper value) :
    Writes [⟨.word, value⟩] text false := by
  rcases Scan.lexeme_of_isWord word with ⟨lexeme, noPoint, _⟩
  refine recased lexeme same (by simp) noPoint fun digit => ?_
  exact absurd (lexeme.kind_of_digit digit) (by simp)

theorem append {atoms others : List Atom} {first second gap : String}
    (front : Writes atoms first false) (back : Writes others second false) (some : others ≠ [])
    (calm : ∀ atom ∈ others.getLast?, atom.kind ≠ .otherOperator)
    (isGap : gap = " " ∨ gap = "" ∧ ∀ c ∈ second.toList.head?, Atom.mayFollow atoms c = true) :
    Writes (atoms ++ others) (first ++ gap ++ second) false := by
  rcases List.exists_cons_of_ne_nil (show first.toList ≠ [] by simpa using front.written) with
    ⟨c, tail, isFirst⟩
  rcases List.exists_cons_of_ne_nil (show second.toList ≠ [] by simpa using back.written) with
    ⟨d, rest, isSecond⟩
  have whole : (first ++ gap ++ second).toList = c :: (tail ++ (gap.toList ++ second.toList)) := by
    simp [isFirst]
  have last := List.getLast?_append_of_ne_nil atoms some
  have final : Atom.mayFollow (atoms ++ others) = Atom.mayFollow others := by
    funext e
    rw [Atom.mayFollow, Atom.mayFollow, last]
  refine ⟨?_, ?_, ?_, ?_, ?_, ?_⟩
  · rw [String.toList_append, String.toList_append, List.append_assoc, List.map_append,
      if_neg (by simp), final]
    rcases isGap with rfl | ⟨rfl, meets⟩
    · refine front.prints.append (back.prints.blank (by decide : isBlank ' ' = true)) rfl ?_
      exact Atom.mayFollow_blank atoms ' ' (by simp)
    · exact front.prints.append back.prints isSecond (meets d (by rw [isSecond]; rfl))
  · intro none
    rw [none] at whole
    cases whole
  · -- only one mark has two characters, and both of them are colons
    intro tight _ e
    have listed : ∀ mark ∈ ":" :: tightMarks, mark.toList.tail = [] ∨
        mark.toList.tail = [':'] := by decide
    have found := listed _ tight
    rw [whole, List.tail_cons, isSecond] at found
    have isColon : second = ":" := by
      rw [← String.toList_inj, isSecond]
      rcases found with none | alone
      · simp at none
      · rcases isGap with rfl | ⟨rfl, _⟩
        · cases tail <;> simp_all
        · cases tail <;> simp_all
    rw [final]
    exact back.tight (by simp [isColon]) (by simp [isColon]) e
  · intro isPoint
    rw [isPoint] at whole
    have none := (List.cons.inj whole).2
    simp [isSecond] at none
  · intro digit
    rw [whole] at digit
    rcases front.digit (isFirst ▸ digit) with ⟨atom, after, rfl, found⟩
    exact ⟨atom, after ++ others, rfl, found⟩
  · rw [last]
    exact fun _ => calm

theorem comment {c d : Char} (marks : c = '-' ∨ c = '/') {body : List Char} {runsOn : Bool}
    (prints : Prints [] (c :: d :: body) (if runsOn then (· == '\n') else Atom.mayFollow [])) :
    Writes [] (String.ofList (c :: d :: body)) runsOn := by
  refine ⟨by rwa [String.toList_ofList], by simp, fun _ _ _ => rfl, ?_, ?_, by simp⟩
  · intro isPoint
    rw [← String.toList_inj, String.toList_ofList] at isPoint
    simp at isPoint
  · rw [String.toList_ofList]
    intro digit
    rcases marks with rfl | rfl <;> exact absurd digit (by simp [Scan.headIs, isDigit])

theorem line {mark : Char} (marks : mark = '-' ∨ mark = '/') {body : List Char}
    (noBreak : ∀ c ∈ body, c ≠ '\r' ∧ c ≠ '\n') :
    Writes [] (String.ofList (mark :: mark :: body)) true :=
  comment marks fun _ _ next cut =>
    .line marks noBreak (fun d member => by simpa using next d member) cut

theorem block {body : String} (isBody : Scan.IsBlockBody body.toList) :
    Writes [] ("/*" ++ body ++ "*/") false := by
  have prints : Prints [] ('/' :: '*' :: (body.toList ++ ['*', '/'])) (Atom.mayFollow []) := by
    intro others rest _ cut
    simpa using Cut.block isBody cut
  have writes := @comment '/' '*' (.inr rfl) _ false prints
  rwa [show String.ofList _ = "/*" ++ body ++ "*/" by rw [← String.toList_inj]; simp] at writes

end Writes

/-! ### Leaves -/

theorem Wording.operator_mem (wording : Wording) (text : String) :
    wording.operator text ∈ [upper text, lower text] := by
  unfold Wording.operator
  split <;> simp

theorem Wording.keyword_eq {wording : Wording} (unpreferred : wording.preferredKeywords = false)
    (text : String) : wording.keyword text = wording.operator text := by
  simp [Wording.keyword, unpreferred]

theorem Wording.operator_of_ascii (wording : Wording) (ascii : ∀ c ∈ text.toList, c.toNat < 128) :
    ∃ recase, Recases recase ∧ wording.operator text = String.ofList (text.toList.map recase) := by
  rcases List.mem_pair.mp (wording.operator_mem text) with isUpper | isLower
  · refine ⟨_, .inl rfl, isUpper.trans ?_⟩
    rw [← upper_of_ascii ascii, String.ofList_toList]
  · refine ⟨_, .inr rfl, isLower.trans ?_⟩
    rw [← lower_of_ascii ascii, String.ofList_toList]

theorem Wording.operator_eq_self (wording : Wording)
    (caseless : ∀ c ∈ text.toList, c.toNat < 128 ∧ c.toUpper = c ∧ c.toLower = c) :
    wording.operator text = text := by
  rcases wording.operator_of_ascii fun c member =>
    (caseless c member).1 with ⟨recase, recases, isPiece⟩
  have same : ∀ c ∈ text.toList, recase c = id c := by
    rcases recases with rfl | rfl
    · exact fun c member => (caseless c member).2.1
    · exact fun c member => (caseless c member).2.2
  rw [isPiece, List.map_congr_left same, List.map_id, String.ofList_toList]

theorem Writes.mark (c : Char) {kind : TokenKind} (isMark : Scan.punctuation? c = some kind)
    (wording : Wording) {value : String} (lexeme : ∃ text, Scan.Lexeme kind value.toList text) :
    wording.operator value = String.ofList [c] ∧
      Writes [⟨kind, value⟩] (String.ofList [c]) false := by
  rcases lexeme with ⟨text, lexeme⟩
  obtain ⟨isValue, rfl⟩ := lexeme.eq_mark isMark
  obtain rfl : value = String.ofList [c] := by
    rw [← String.toList_inj, isValue, String.toList_ofList]
  refine ⟨wording.operator_eq_self ?_, Writes.plain ?_⟩
  · unfold Scan.punctuation? at isMark
    split at isMark <;> cases isMark <;> exact forall_mem_of_all (by decide)
  · rw [isValue] at lexeme ⊢
    exact lexeme

theorem Writes.reserved (reserved : Keyword.isReserved (upper value) = true) (wording : Wording) :
    Writes [⟨.word, value⟩] (wording.operator value) false := by
  rcases Keyword.isWord_of_isReserved reserved _ (wording.operator_mem value) with ⟨word, same⟩
  exact Writes.word word same

theorem Writes.ofLabel (readable : ∀ symbol ∈ Symbol.ofLabel text, symbol.Readable) :
    Writes ((Symbol.ofLabel text).filterMap Symbol.atom?) text false := by
  unfold Symbol.ofLabel at readable ⊢
  split at readable
  next name cut =>
    have isText : text = String.ofList name.reverse ++ "" ++ ":" := by
      have reversed := congrArg List.reverse cut
      rw [← String.toList_inj]
      simpa using reversed
    have front := Writes.plain ((readable _ List.mem_cons_self).lexeme rfl)
    have back : Writes [⟨.colon, ":"⟩] ":" false := Writes.plain (.mark rfl)
    have both := front.append back (by simp) (by simp)
      (.inr ⟨rfl, by simp [Atom.mayFollow, Scan.mayFollow, Scan.isBreak]⟩)
    rwa [← isText] at both
  next => exact Writes.plain ((readable _ List.mem_cons_self).lexeme rfl)

theorem Writes.ofName (readable : ∀ symbol ∈ Symbol.ofName text, symbol.Readable) :
    Writes ((Symbol.ofName text).filterMap Symbol.atom?) text false := by
  have colon : Writes [⟨.colon, ":"⟩] ":" false := Writes.plain (.mark rfl)
  unfold Symbol.ofName at readable ⊢
  split at readable
  next cut =>
    obtain rfl : text = ":" := by rw [← String.toList_inj, cut]; rfl
    exact colon
  next name other cut =>
    have isText : text = ":" ++ "" ++ String.ofList name := by
      rw [← String.toList_inj, cut]
      simp
    have back := Writes.plain ((readable _ (List.mem_cons_of_mem _ List.mem_cons_self)).lexeme rfl)
    have both := colon.append back (by simp) (by simp) (.inr ⟨rfl, fun _ _ => rfl⟩)
    rwa [← isText] at both
  next => exact Writes.plain ((readable _ List.mem_cons_self).lexeme rfl)

theorem Symbol.eq_of_ofScope (readable : ∀ symbol ∈ ofScope text, symbol.Readable) :
    text = "::" := by
  have colon {value : String} (member : .token .colon value ∈ ofScope text) :
      value.toList = [':'] := by
    rcases readable _ member with ⟨⟨_, lexeme⟩, _⟩
    exact (lexeme.eq_mark (rfl : Scan.punctuation? ':' = some .colon)).1
  unfold ofScope at colon
  cases cut : text.toList with
  | nil =>
    simp only [cut, List.mem_singleton, token.injEq, true_and, forall_eq] at colon
    cases colon
  | cons first second =>
    simp only [cut, List.mem_cons, token.injEq, true_and] at colon
    have front := colon (.inl rfl)
    have back := colon (.inr (.inl rfl))
    rw [String.toList_ofList] at front back
    rw [← String.toList_inj, cut, back, (List.cons.inj front).1]
    rfl

theorem Wording.operator_scope (wording : Wording)
    (readable : ∀ symbol ∈ Symbol.ofScope text, symbol.Readable) :
    wording.operator text = "::" := by
  rw [Symbol.eq_of_ofScope readable]
  exact wording.operator_eq_self (forall_mem_of_all (by decide))

theorem Writes.ofScope (wording : Wording)
    (readable : ∀ symbol ∈ Symbol.ofScope text, symbol.Readable) :
    Writes ((Symbol.ofScope text).filterMap Symbol.atom?) (wording.operator text) false := by
  rw [wording.operator_scope readable, Symbol.eq_of_ofScope readable]
  have colon : Writes [⟨.colon, ":"⟩] ":" false := Writes.plain (.mark rfl)
  exact colon.append colon (by simp) (by simp) (.inr ⟨rfl, fun _ _ => rfl⟩)

/-- A leaf is written for the tokens that it holds. -/
theorem NodeKind.writes_leaf {wording : Wording} (unbracketed : wording.bracketNames = false)
    (unpreferred : wording.preferredKeywords = false) {kind : NodeKind}
    (isLeaf : kind.isLeaf = true) (written : kind ≠ .whiteSpace)
    (reserved : kind.isRespelled = true → Keyword.isReserved (upper text) = true)
    (readable : ∀ symbol ∈ kind.symbols text, symbol.Readable) :
    Writes ((kind.symbols text).filterMap Symbol.atom?) (wording.leaf kind text) kind.runsOn := by
  -- a leaf of one token, whose text is known to be one
  have single {token : TokenKind} (isToken : kind.symbols text = [.token token text])
      (writes : Symbol.Readable (.token token text) →
        Writes [⟨token, text⟩] (wording.leaf kind text) kind.runsOn) :
      Writes ((kind.symbols text).filterMap Symbol.atom?) (wording.leaf kind text) kind.runsOn := by
    rw [isToken] at readable ⊢
    exact writes (readable _ List.mem_cons_self)
  have plain {token : TokenKind} (unquoted : Scan.quotes? token = none)
      (isRead : Symbol.Readable (.token token text)) : Writes [⟨token, text⟩] text false := by
    exact Writes.plain (isRead.lexeme unquoted)
  have mark {token : TokenKind} (c : Char) (isMark : Scan.punctuation? c = some token)
      (isRead : Symbol.Readable (.token token text)) :
      Writes [⟨token, text⟩] (wording.operator text) false := by
    rcases Writes.mark c isMark wording isRead.1 with ⟨isPiece, writes⟩
    rwa [isPiece]
  have lineText (mark : Char) : String.ofList (mark :: mark :: (Wording.joinLines text).toList) =
      String.ofList [mark, mark] ++ Wording.joinLines text := by
    rw [← String.toList_inj]
    simp
  have noBreak : ∀ c ∈ (Wording.joinLines text).toList, c ≠ '\r' ∧ c ≠ '\n' := by
    simp [Wording.joinLines]
  cases kind
  case whiteSpace => exact absurd rfl written
  case lineComment =>
    have writes := Writes.line (.inl rfl) noBreak
    rwa [lineText] at writes
  case slashComment =>
    have writes := Writes.line (.inr rfl) noBreak
    rwa [lineText] at writes
  case blockComment => exact Writes.block (readable _ List.mem_cons_self rfl)
  case string | nationalString | quotedString | bracketName =>
    exact single rfl fun _ => Writes.quoted rfl text
  case comma => exact single rfl fun isRead => (Writes.mark ',' rfl wording isRead.1).2
  case period => exact single rfl fun isRead => mark '.' rfl isRead
  case semicolon => exact single rfl fun isRead => mark ';' rfl isRead
  case equalsSign => exact single rfl fun isRead => mark '=' rfl isRead
  case asterisk =>
    refine single rfl fun isRead => ?_
    rcases isRead with ⟨⟨_, lexeme⟩, _⟩
    have isMark : text.toList = ['*'] := by
      generalize text.toList = value at lexeme
      cases lexeme with
      | asterisk => rfl
      | mark isMark =>
        unfold Scan.punctuation? at isMark
        split at isMark <;> cases isMark
      | quoted quotes => cases quotes
    obtain rfl : text = "*" := by rw [← String.toList_inj, isMark]; rfl
    rw [show wording.leaf .asterisk "*" = wording.operator "*" from rfl,
      wording.operator_eq_self (forall_mem_of_all (by decide))]
    exact Writes.plain .asterisk
  case otherOperator =>
    refine single rfl fun isRead => ?_
    rcases isRead.1 with ⟨_, lexeme⟩
    rw [show wording.leaf .otherOperator text = wording.operator text from rfl,
      wording.operator_eq_self lexeme.caseless_operator]
    exact plain rfl isRead
  case otherKeyword | dataTypeKeyword =>
    refine single rfl fun _ => ?_
    rw [show wording.leaf _ text = wording.keyword text from rfl, Wording.keyword_eq unpreferred]
    exact Writes.reserved (reserved rfl) wording
  case alphaOperator => exact single rfl fun _ => Writes.reserved (reserved rfl) wording
  case functionKeyword => exact single rfl fun isRead => plain rfl isRead
  case monetaryValue => exact single rfl fun isRead => plain rfl isRead
  case number =>
    refine single rfl fun isRead => ?_
    rcases isRead with ⟨⟨_, lexeme⟩, _⟩
    rcases lexeme.lower_number with ⟨lexeme, same, digit⟩
    rw [String.ofList_toList] at lexeme same digit
    refine @Writes.lexeme .number text (lower text) _ lexeme (by rwa [String.ofList_toList]) ?_ ?_
    · simp [Scan.mayFollow, Scan.takesPoint]
    · rw [digit]
      exact id
  case binaryValue =>
    refine single rfl fun isRead => ?_
    rcases isRead with ⟨⟨_, lexeme⟩, _⟩
    rcases lexeme.upper_binary with ⟨digits, dropped, lexeme, isUpper, same, digit⟩
    rw [String.ofList_toList] at same
    have isPiece : wording.leaf .binaryValue text =
        String.ofList ('0' :: 'x' :: digits.map Char.toUpper) := by
      rw [Wording.leaf, dropped, Option.getD_some, isUpper, ← String.toList_inj]
      simp
    rw [isPiece]
    refine Writes.recased (by rwa [String.toList_ofList]) same (by decide) ?_ fun _ => digit
    simp [Scan.takesPoint, Scan.isCurrencySign, NodeKind.tokenKind]
  case pseudoName =>
    refine single rfl fun isRead => ?_
    rcases isRead with ⟨⟨_, lexeme⟩, ascii⟩
    rcases wording.operator_of_ascii (ascii rfl) with ⟨recase, recases, isPiece⟩
    rw [show wording.leaf .pseudoName text = wording.keyword text from rfl,
      Wording.keyword_eq unpreferred, isPiece]
    have found := lexeme.recase_pseudoName (ascii rfl) recases
    have same := upper_recase_of_ascii recases (ascii rfl)
    rw [← @String.toList_ofList (text.toList.map recase)] at found
    rw [String.ofList_toList] at same
    refine Writes.recased found.1 same (by decide) found.2 fun digit => ?_
    exact absurd (found.1.kind_of_digit digit) (by simp)
  case label => exact Writes.ofLabel readable
  case other =>
    have isPiece : wording.leaf .other text = text := by
      simp [Wording.leaf, Wording.plainName, unbracketed]
    rw [isPiece]
    by_cases stray : text = ")"
    · subst stray
      exact Writes.plain (.mark rfl)
    · have isName : NodeKind.symbols .other text = Symbol.ofName text := by
        simp [NodeKind.symbols, NodeKind.isTrivia, NodeKind.isComment, NodeKind.isParens,
          NodeKind.tokens, stray]
      rw [isName] at readable ⊢
      exact Writes.ofName readable
  case scopeResolutionOperator => exact Writes.ofScope wording readable
  all_goals exact absurd isLeaf (by decide)

end SqlLayout
