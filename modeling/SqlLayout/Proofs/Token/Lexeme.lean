import SqlLayout.Token.Lexer
import SqlLayout.Token.Spelling

/-!
# Lexemes

The text that the tokens of each class may have, said without the reader. What the reader cuts off a
script is a lexeme of its class (`exists_lexeme_first`), and a lexeme that is followed by a
character which does not join it is read back as the same token (`Lexeme.first_append`).
-/

namespace SqlLayout

open Text

variable {property : Char → Prop}

namespace Text

theorem exists_range_of_inRanges {ranges : List (Nat × Nat)} {point : Nat}
    (listed : inRanges ranges point = true) :
    ∃ range ∈ ranges, point ∈ List.range' range.1 (range.2 + 1 - range.1) := by
  fun_induction inRanges ranges point with
  | case1 => cases listed
  | case2 first last later point below => cases listed
  | case3 first last later point above within =>
    refine ⟨(first, last), by simp, ?_⟩
    rw [List.mem_range'_1]
    dsimp only
    omega
  | case4 first last later point above beyond ih =>
    rcases ih listed with ⟨range, mem, within⟩
    exact ⟨range, List.mem_cons_of_mem _ mem, within⟩

theorem forall_isBlank
    (listed : ∀ range ∈ blankRanges, ∀ point ∈ List.range' range.1 (range.2 + 1 - range.1),
      property (Char.ofNat point)) {c : Char} (blank : isBlank c = true) : property c := by
  rcases exists_range_of_inRanges blank with ⟨range, mem, within⟩
  have holds := listed range mem c.toNat within
  rwa [Char.ofNat_toNat] at holds

theorem forall_mem_of_all [DecidablePred property] {chars : List Char}
    (all : chars.all (fun c => decide (property c)) = true) : ∀ c ∈ chars, property c := by
  simpa using all

theorem forall_isDigit [DecidablePred property]
    (listed : ['0', '1', '2', '3', '4', '5', '6', '7', '8', '9'].all
      (fun c => decide (property c)) = true)
    {c : Char} (digit : isDigit c = true) : property c := by
  have lower : 48 ≤ c.toNat := by
    simp only [isDigit, Bool.and_eq_true, decide_eq_true_eq] at digit
    exact digit.1
  have upper : c.toNat ≤ 57 := by
    simp only [isDigit, Bool.and_eq_true, decide_eq_true_eq] at digit
    exact digit.2
  have codes : ∀ point ∈ List.range' 48 10, property (Char.ofNat point) := by
    intro point mem
    apply forall_mem_of_all listed
    revert point
    decide
  have holds := codes c.toNat (by rw [List.mem_range'_1]; omega)
  rwa [Char.ofNat_toNat] at holds

end Text

namespace Scan

variable {close c : Char} {kind : TokenKind} {rest back tail : List Char}

/-! ### The text of each class -/

def isStray (c : Char) : Bool :=
  !isBlank c && !isDigit c && !isWordStart c && !isOperatorChar c && (punctuation? c).isNone &&
    !(['\'', '"', '['].contains c)

def quotes? : TokenKind → Option (List Char × Char)
  | .string => some (['\''], '\'')
  | .nationalString => some (['N', '\''], '\'')
  | .quotedString => some (['"'], '"')
  | .bracketName => some (['['], ']')
  | _ => none

inductive IsFraction : List Char → Prop where
  | none : IsFraction []
  | point {digits : List Char} (run : digits.all isDigit = true) : IsFraction ('.' :: digits)

/-- A mark, an optional sign and at least one digit, or nothing. -/
inductive IsExponent : List Char → Prop where
  | none : IsExponent []
  | unsigned {mark digit : Char} {digits : List Char} (marks : (mark == 'e' || mark == 'E') = true)
      (run : (digit :: digits).all isDigit = true) : IsExponent (mark :: digit :: digits)
  | signed {mark sign digit : Char} {digits : List Char}
      (marks : (mark == 'e' || mark == 'E') = true)
      (signs : (sign == '+' || sign == '-') = true) (run : (digit :: digits).all isDigit = true) :
      IsExponent (mark :: sign :: digit :: digits)

/-- A character of a monetary value after its sign. -/
def isMoneyChar (c : Char) : Bool :=
  isDigit c || c == '.'

/-- The tokens of a class, with their value and the text they cover. -/
inductive Lexeme : TokenKind → List Char → List Char → Prop where
  | word {c : Char} {tail : List Char} (starts : isWordStart c = true)
      (run : tail.all isWordChar = true) : Lexeme .word (c :: tail) (c :: tail)
  | stray {c : Char} (stray : isStray c = true) : Lexeme .word [c] [c]
  | mark {kind : TokenKind} {c : Char} (mark : punctuation? c = some kind) : Lexeme kind [c] [c]
  | asterisk : Lexeme .asterisk ['*'] ['*']
  | operator {c : Char} (operates : isOperatorChar c = true) (other : c ≠ '*') :
      Lexeme .otherOperator [c] [c]
  | combined {c d : Char} (operates : isOperatorChar c = true) (joined : combines c d = true) :
      Lexeme .otherOperator [c, d] [c, d]
  | number {whole fraction exponent : List Char} (digits : whole.all isDigit = true)
      (isFraction : IsFraction fraction) (isExponent : IsExponent exponent)
      (starts : whole ≠ [] ∨ 2 ≤ fraction.length) :
      Lexeme .number (whole ++ (fraction ++ exponent)) (whole ++ (fraction ++ exponent))
  | binary {mark : Char} {digits : List Char} (marks : mark = 'x' ∨ mark = 'X')
      (run : digits.all isHexDigit = true) :
      Lexeme .binaryValue ('0' :: mark :: digits) ('0' :: mark :: digits)
  | money {sign c : Char} {tail : List Char} (signs : isCurrencySign sign = true)
      (run : (c :: tail).all isMoneyChar = true) :
      Lexeme .monetaryValue (sign :: c :: tail) (sign :: c :: tail)
  | pseudoName {c : Char} {tail : List Char} (starts : (isAlphabetic c || c == '_') = true)
      (run : tail.all isWordChar = true) :
      Lexeme .pseudoName ('$' :: c :: tail) ('$' :: c :: tail)
  | quoted {kind : TokenKind} {opening : List Char} {close : Char}
      (quotes : quotes? kind = some (opening, close)) (value : List Char) :
      Lexeme kind value (opening ++ (doubleDelimiter close value ++ [close]))

/-! ### What the reader finds is a lexeme -/

/-- The value of a quotation, with its delimiters doubled, is its body. -/
theorem splitQuoted_body {text value body : List Char} {after : Option (List Char)}
    (found : splitQuoted close text = (value, body, after)) :
    doubleDelimiter close value = body := by
  fun_induction splitQuoted close text generalizing value body after with
  | case1 | case2 | case5 => cases found; rfl
  | case3 c other => cases found; simp [doubleDelimiter, other]
  | case4 rest value' body' after' found' ih =>
    cases found
    simpa [doubleDelimiter] using ih found'
  | case6 c next rest other value' body' after' found' ih =>
    cases found
    simpa [doubleDelimiter, other] using ih found'

/-- The token of a scan is a lexeme, unless it is a blank, a comment or left open. -/
def Lexical (scan : Scan) : Prop :=
  scan.kind.isTrivia = false → scan.closed = true → ∃ text, Lexeme scan.kind scan.value text

theorem lexical_quoted {opening : List Char} (quotes : quotes? kind = some (opening, close))
    (front text : List Char) :
    (quoted kind front close text).Lexical := by
  unfold quoted
  split
  next value body rest found => exact fun _ _ => ⟨_, .quoted quotes value⟩
  next => exact fun _ closed => by cases closed

theorem isFraction_splitFraction (text : List Char) : IsFraction (splitFraction text).1 := by
  fun_cases splitFraction text with
  | case1 rest => exact .point List.all_takeWhile
  | case2 => exact .none

theorem isExponent_splitExponent (text : List Char) : IsExponent (splitExponent text).1 := by
  fun_cases splitExponent text with
  | case1 mark sign rest starts =>
    simp only [Bool.and_eq_true] at starts
    have run := @List.all_takeWhile _ isDigit (sign :: rest)
    rw [List.takeWhile_cons_of_pos starts.2] at run ⊢
    exact .unsigned starts.1 run
  | case2 mark sign rest _ starts =>
    simp only [Bool.and_eq_true] at starts
    cases rest with
    | nil => cases starts.2
    | cons digit rest =>
      have isDigit : isDigit digit = true := starts.2
      have run := @List.all_takeWhile _ Text.isDigit (digit :: rest)
      rw [List.takeWhile_cons_of_pos isDigit] at run ⊢
      exact .signed starts.1.1 starts.1.2 run
  | case3 => exact .none
  | case4 => exact .none

theorem lexical_number (starts : (isDigit c || (c == '.' && headIs isDigit rest)) = true) :
    (number (c :: rest)).Lexical := by
  intro _ _
  simp only [number, raw, List.append_assoc]
  refine ⟨_,
    .number List.all_takeWhile (isFraction_splitFraction _) (isExponent_splitExponent _) ?_⟩
  by_cases digit : isDigit c = true
  · simp [digit]
  · right
    simp only [digit, Bool.false_or, Bool.and_eq_true, beq_iff_eq] at starts
    rcases starts with ⟨rfl, starts⟩
    cases rest with
    | nil => cases starts
    | cons digit' rest =>
      rw [headIs] at starts
      simp [digit, splitFraction, starts]

theorem lexical_operator (operates : isOperatorChar c = true)
    (other : ¬(c = '*' ∧ ¬headIs (· == '=') rest)) : (operator c rest).Lexical := by
  intro _ _
  -- an asterisk is an operator only together with an equals sign
  have equals : c = '*' → headIs (· == '=') rest = true := by
    intro star
    cases next : headIs (· == '=') rest with
    | true => rfl
    | false => exact absurd ⟨star, by simp [next]⟩ other
  fun_cases operator c rest with
  | case1 =>
    refine ⟨_, .operator operates ?_⟩
    intro star
    cases equals star
  | case2 d rest joined => exact ⟨_, .combined operates joined⟩
  | case3 d rest apart =>
    refine ⟨_, .operator operates ?_⟩
    rintro rfl
    have next := equals rfl
    simp only [headIs, beq_iff_eq] at next
    exact apart (next ▸ rfl)

theorem lexical_symbol (blank : ¬isBlank c = true) (digit : ¬isDigit c = true)
    (starts : ¬isWordStart c = true) (plain : c ≠ '\'' ∧ c ≠ '"' ∧ c ≠ '[') :
    (symbol c rest).Lexical := by
  unfold symbol
  split
  next kind isMark => exact fun _ _ => ⟨_, .mark isMark⟩
  next noMark =>
    split
    next star => exact star.1 ▸ fun _ _ => ⟨_, .asterisk⟩
    next other =>
      split
      next operates => exact lexical_operator operates other
      next quiet =>
        refine fun _ _ => ⟨_, .stray ?_⟩
        rw [isStray, noMark]
        simp [blank, digit, starts, quiet, plain]

theorem lexical_pseudoName
    (starts : (c == '$' && headIs (fun next => isAlphabetic next || next == '_') rest) = true) :
    (run .pseudoName [c] isWordChar rest).Lexical := by
  intro _ _
  simp only [Bool.and_eq_true, beq_iff_eq] at starts
  rcases starts with ⟨rfl, starts⟩
  cases rest with
  | nil => cases starts
  | cons next rest =>
    have continues : isWordChar next = true := by
      rw [headIs, Bool.or_eq_true] at starts
      rcases starts with letter | underscore
      · simp [isWordChar, isAlphanumeric, letter]
      · simp [isWordChar, underscore]
    rw [run, List.takeWhile_cons_of_pos continues]
    exact ⟨_, .pseudoName starts List.all_takeWhile⟩

theorem lexical_money (starts : (isCurrencySign c && headIs isMoneyChar rest) = true) :
    (run .monetaryValue [c] isMoneyChar rest).Lexical := by
  intro _ _
  simp only [Bool.and_eq_true] at starts
  rcases starts with ⟨sign, starts⟩
  cases rest with
  | nil => cases starts
  | cons next rest =>
    have continues : isMoneyChar next = true := starts
    have all := @List.all_takeWhile _ isMoneyChar (next :: rest)
    rw [List.takeWhile_cons_of_pos continues] at all
    rw [run, List.takeWhile_cons_of_pos continues]
    exact ⟨_, .money sign all⟩

/-- The first token of a text is a lexeme, unless it is a blank, a comment or left open. -/
theorem lexical_first (c : Char) (rest : List Char) : (first c rest).Lexical := by
  have trivia {scan : Scan} (trivia : scan.kind.isTrivia = true) : scan.Lexical :=
    fun content => by rw [trivia] at content; cases content
  unfold first
  split
  · exact trivia rfl
  next blank =>
    split
    · exact trivia rfl
    · exact trivia rfl
    next body =>
      unfold block
      split <;> exact trivia rfl
    · exact lexical_quoted rfl _ _
    · exact lexical_quoted rfl _ _
    · exact lexical_quoted rfl _ _
    · exact lexical_quoted rfl _ _
    · exact lexical_quoted rfl _ _
    · exact fun _ _ => ⟨_, .binary (.inl rfl) List.all_takeWhile⟩
    · exact fun _ _ => ⟨_, .binary (.inr rfl) List.all_takeWhile⟩
    · split
      next starts => exact lexical_number starts
      next noNumber =>
        split
        next starts => exact lexical_pseudoName starts
        · split
          next starts => exact lexical_money starts
          · split
            next starts => exact fun _ _ => ⟨_, .word starts List.all_takeWhile⟩
            next noWord =>
              refine lexical_symbol blank ?_ noWord ⟨?_, ?_, ?_⟩
              · intro digit
                simp [digit] at noNumber
              · rintro rfl
                simp_all
              · rintro rfl
                simp_all
              · rintro rfl
                simp_all

/-! ### A lexeme is read back -/

/-- The characters that end a word wherever they stand: blanks, the marks that stand tight between
what they divide, and what a comment starts with. -/
def isBreak (c : Char) : Bool :=
  isBlank c || ['(', ')', ',', '.', ';', ':', '-', '/'].contains c

/-- A token that takes in a point right after it. -/
def takesPoint (kind : TokenKind) (text : List Char) : Bool :=
  kind == .number || kind == .monetaryValue || text.all isCurrencySign

/-- A character that may come right after a token without joining it. -/
def mayFollow (kind : TokenKind) (text : List Char) (c : Char) : Bool :=
  match kind with
  | .openParens | .closeParens | .comma | .semicolon | .colon | .equalsSign => true
  | .period => !isDigit c
  | .string | .nationalString => c != '\''
  | .quotedString => c != '"'
  | .bracketName => c != ']'
  | .otherOperator => isBreak c && c != '-' && c != '/'
  | _ => isBreak c && !(c == '.' && takesPoint kind text)

/-- What holds of every blank and of the marks that end a word holds of every character that
does. -/
theorem forall_isBreak [DecidablePred property]
    (blanks : ∀ range ∈ blankRanges, ∀ point ∈ List.range' range.1 (range.2 + 1 - range.1),
      property (Char.ofNat point))
    (marks : ['(', ')', ',', '.', ';', ':', '-', '/'].all (fun c => decide (property c)) = true)
    {c : Char} (breaks : isBreak c = true) : property c := by
  simp only [isBreak, Bool.or_eq_true, List.contains_eq_mem, decide_eq_true_eq] at breaks
  rcases breaks with blank | mark
  · exact forall_isBlank blanks blank
  · exact forall_mem_of_all marks c mark

theorem isWordChar_of_isBreak (breaks : isBreak c = true) : isWordChar c = false := by
  revert c
  apply forall_isBreak <;> decide +kernel

theorem isHexDigit_of_isBreak (breaks : isBreak c = true) : isHexDigit c = false := by
  revert c
  apply forall_isBreak <;> decide

theorem headIs_eq_false {property : Char → Bool} (next : ∀ c ∈ back.head?, property c = false) :
    headIs property back = false := by
  cases back with
  | nil => rfl
  | cons c back => exact next c rfl

theorem run_append {kind : TokenKind} {opening tail back : List Char} {property : Char → Bool}
    (all : tail.all property = true) (ends : headIs property back = false) :
    run kind opening property (tail ++ back) = raw kind (opening ++ tail) back := by
  rw [List.all_eq_true] at all
  have none : back.takeWhile property = [] ∧ back.dropWhile property = back := by
    cases back with
    | nil => exact ⟨rfl, rfl⟩
    | cons c back =>
      rw [headIs] at ends
      simp [ends]
  rw [run, List.takeWhile_append_of_pos all, List.dropWhile_append_of_pos all, none.1, none.2,
    List.append_nil]

/-- The classes that the first two characters decide. -/
def isMarked : Char → List Char → Bool
  | '-', '-' :: _ | '/', '/' :: _ | '/', '*' :: _ | '\'', _ | 'N', '\'' :: _ | 'n', '\'' :: _
  | '"', _ | '[', _ | '0', 'x' :: _ | '0', 'X' :: _ => true
  | _, _ => false

/-- The first token of a text whose first two characters decide no class. -/
def firstUnmarked (c : Char) (rest : List Char) : Scan :=
  if isDigit c || (c == '.' && headIs isDigit rest) then number (c :: rest)
  else if c == '$' && headIs (fun next => isAlphabetic next || next == '_') rest then
    run .pseudoName [c] isWordChar rest
  else if isCurrencySign c && headIs isMoneyChar rest then run .monetaryValue [c] isMoneyChar rest
  else if isWordStart c then run .word [c] isWordChar rest
  else symbol c rest

theorem first_of_not_isMarked (blank : isBlank c = false) (unmarked : isMarked c rest = false) :
    first c rest = firstUnmarked c rest := by
  unfold first
  rw [if_neg (by simp [blank])]
  split
  · cases unmarked
  · cases unmarked
  · cases unmarked
  · cases unmarked
  · cases unmarked
  · cases unmarked
  · cases unmarked
  · cases unmarked
  · cases unmarked
  · cases unmarked
  · rfl

theorem not_isBlank_of_isWordStart (starts : isWordStart c = true) : isBlank c = false := by
  cases blank : isBlank c with
  | false => rfl
  | true =>
    have none : isWordStart c = false := by
      clear starts
      revert c
      apply forall_isBlank
      decide +kernel
    rw [none] at starts
    cases starts

theorem not_isDigit_of_isWordStart (starts : isWordStart c = true) : isDigit c = false := by
  cases digit : isDigit c with
  | false => rfl
  | true =>
    have none : isWordStart c = false := by
      clear starts
      revert c
      apply forall_isDigit
      decide
    rw [none] at starts
    cases starts

theorem not_isCurrencySign_of_isWordStart (starts : isWordStart c = true) :
    isCurrencySign c = false := by
  cases sign : isCurrencySign c with
  | false => rfl
  | true =>
    simp only [isCurrencySign, Bool.or_eq_true, beq_iff_eq] at sign
    rcases sign with ((rfl | rfl) | rfl) | rfl <;> exact absurd starts (by decide +kernel)

theorem isMarked_of_isWordStart (starts : isWordStart c = true)
    (noQuote : headIs (· == '\'') rest = false) : isMarked c rest = false := by
  unfold isMarked
  split
  · exact absurd starts (by decide)
  · exact absurd starts (by decide)
  · exact absurd starts (by decide)
  · exact absurd starts (by decide)
  · cases noQuote
  · cases noQuote
  · exact absurd starts (by decide)
  · exact absurd starts (by decide)
  · exact absurd starts (by decide)
  · exact absurd starts (by decide)
  · rfl

theorem headIs_append_eq_false {property run : Char → Bool} (all : tail.all run = true)
    (apart : ∀ c, run c = true → property c = false) (next : headIs property back = false) :
    headIs property (tail ++ back) = false := by
  cases tail with
  | nil => exact next
  | cons c tail =>
    rw [List.all_cons, Bool.and_eq_true] at all
    exact apart c all.1

def first? : List Char → Option Scan
  | [] => none
  | c :: rest => some (first c rest)

section ReadBack

variable {back : List Char} {exponent fraction : List Char}

theorem first_word (starts : isWordStart c = true) (all : tail.all isWordChar = true)
    (next : ∀ d ∈ back.head?, isBreak d = true) :
    first c (tail ++ back) = raw .word (c :: tail) back := by
  have noQuote : headIs (· == '\'') (tail ++ back) = false := by
    apply headIs_append_eq_false all
    · intro d continues
      rw [beq_eq_false_iff_ne]
      rintro rfl
      exact absurd continues (by decide)
    · apply headIs_eq_false
      intro d follows
      rw [beq_eq_false_iff_ne]
      rintro rfl
      exact absurd (next _ follows) (by decide)
  rw [first_of_not_isMarked (not_isBlank_of_isWordStart starts)
    (isMarked_of_isWordStart starts noQuote)]
  have noPoint : (c == '.') = false := by
    rw [beq_eq_false_iff_ne]
    rintro rfl
    exact absurd starts (by decide)
  have noDollar : (c == '$') = false := by
    rw [beq_eq_false_iff_ne]
    rintro rfl
    exact absurd starts (by decide)
  have ends := headIs_eq_false fun d follows => isWordChar_of_isBreak (next d follows)
  simp only [firstUnmarked, not_isDigit_of_isWordStart starts, noPoint, noDollar,
    not_isCurrencySign_of_isWordStart starts, starts, Bool.false_and, Bool.or_false,
    Bool.false_eq_true, if_false, if_true]
  exact run_append all ends

theorem first_stray (stray : isStray c = true) (next : ∀ d ∈ back.head?, isBreak d = true)
    (noPoint : isCurrencySign c = true → ∀ d ∈ back.head?, d ≠ '.') :
    first c back = raw .word [c] back := by
  simp only [isStray, Bool.and_eq_true, Bool.not_eq_true', Option.isNone_iff_eq_none] at stray
  rcases stray with ⟨⟨⟨⟨⟨blank, digit⟩, noStart⟩, noOperator⟩, noMark⟩, noQuote⟩
  have unmarked : isMarked c back = false := by
    unfold isMarked
    split
    · cases noOperator
    · cases noOperator
    · cases noOperator
    · cases noQuote
    · exact absurd noStart (by decide)
    · exact absurd noStart (by decide)
    · cases noQuote
    · cases noQuote
    · cases digit
    · cases digit
    · rfl
  have notPoint : (c == '.') = false := by
    rw [beq_eq_false_iff_ne]
    rintro rfl
    cases noMark
  have notStar : c ≠ '*' := by
    rintro rfl
    cases noOperator
  have noName : headIs (fun next => isAlphabetic next || next == '_') back = false := by
    apply headIs_eq_false
    intro d follows
    have ends := isWordChar_of_isBreak (next d follows)
    simp only [isWordChar, isAlphanumeric, Bool.or_eq_false_iff] at ends ⊢
    exact ⟨ends.1.1.1.1.1, ends.1.1.1.2⟩
  have noMoney : (isCurrencySign c && headIs isMoneyChar back) = false := by
    cases sign : isCurrencySign c with
    | false => rfl
    | true =>
      apply headIs_eq_false
      intro d follows
      have ends := isHexDigit_of_isBreak (next d follows)
      simp only [isHexDigit, Bool.or_eq_false_iff] at ends
      simp [isMoneyChar, ends.1.1, noPoint sign d follows]
  rw [first_of_not_isMarked blank unmarked]
  simp [firstUnmarked, symbol, digit, notPoint, noName, noMoney, noStart, noMark,
    notStar, noOperator]

/-- The marks of the lexer are neither blanks nor the start of a word or a value. -/
theorem mark_apart (isMark : punctuation? c = some kind) :
    isBlank c = false ∧ isDigit c = false ∧ isCurrencySign c = false ∧ isWordStart c = false ∧
      ∀ rest, isMarked c rest = false := by
  unfold punctuation? at isMark
  split at isMark <;> cases isMark <;>
    exact ⟨by decide, by decide, by decide, by decide, fun _ => rfl⟩

theorem first_mark (isMark : punctuation? c = some kind)
    (noDigit : c = '.' → ∀ d ∈ back.head?, isDigit d = false) :
    first c back = raw kind [c] back := by
  rcases mark_apart isMark with ⟨blank, digit, noSign, noStart, unmarked⟩
  have noNumber : (c == '.' && headIs isDigit back) = false := by
    cases point : c == '.' with
    | false => rfl
    | true => exact headIs_eq_false (noDigit (by simpa using point))
  have noDollar : (c == '$') = false := by
    rw [beq_eq_false_iff_ne]
    rintro rfl
    cases noSign
  rw [first_of_not_isMarked blank (unmarked back)]
  simp [firstUnmarked, symbol, isMark, digit, noNumber, noDollar, noSign, noStart]

theorem operator_apart (operates : isOperatorChar c = true) :
    isBlank c = false ∧ isDigit c = false ∧ isCurrencySign c = false ∧ isWordStart c = false ∧
      punctuation? c = none := by
  simp only [isOperatorChar, List.contains_eq_mem, decide_eq_true_eq] at operates
  revert c
  apply forall_mem_of_all
  decide

theorem first_of_isOperatorChar (operates : isOperatorChar c = true)
    (unmarked : isMarked c back = false) :
    first c back =
      if c = '*' ∧ ¬headIs (· == '=') back then raw .asterisk [c] back else operator c back := by
  rcases operator_apart operates with ⟨blank, digit, noSign, noStart, noMark⟩
  have noPoint : (c == '.') = false := by
    rw [beq_eq_false_iff_ne]
    rintro rfl
    cases noMark
  have noDollar : (c == '$') = false := by
    rw [beq_eq_false_iff_ne]
    rintro rfl
    cases noSign
  rw [first_of_not_isMarked blank unmarked]
  simp [firstUnmarked, symbol, noMark, digit, noPoint, noDollar, noSign, noStart, operates]

theorem first_asterisk (next : ∀ d ∈ back.head?, isBreak d = true) :
    first '*' back = raw .asterisk ['*'] back := by
  have noEquals : headIs (· == '=') back = false := by
    apply headIs_eq_false
    intro d follows
    rw [beq_eq_false_iff_ne]
    rintro rfl
    exact absurd (next _ follows) (by decide)
  rw [first_of_isOperatorChar (by decide) rfl, if_pos ⟨rfl, by simp [noEquals]⟩]

theorem mem_of_combines {d : Char} (joined : combines c d = true) : d ∈ ['=', '<', '>'] := by
  unfold combines at joined
  split at joined <;> grind

theorem first_operator (operates : isOperatorChar c = true) (other : c ≠ '*')
    (next : ∀ d ∈ back.head?, (isBreak d && d != '-' && d != '/') = true) :
    first c back = raw .otherOperator [c] back := by
  have unmarked : isMarked c back = false := by
    unfold isMarked
    split
    · exact absurd (next _ rfl) (by decide)
    · exact absurd (next _ rfl) (by decide)
    · exact absurd (next _ rfl) (by decide)
    · cases operates
    · cases operates
    · cases operates
    · cases operates
    · cases operates
    · cases operates
    · cases operates
    · rfl
  rw [first_of_isOperatorChar operates unmarked, if_neg (fun star => other star.1)]
  cases back with
  | nil => rfl
  | cons d back =>
    have apart : ¬combines c d = true := by
      intro joined
      have breaks : isBreak d = true := by
        have follows := next d rfl
        simp only [Bool.and_eq_true] at follows
        exact follows.1.1
      have none : ∀ d ∈ ['=', '<', '>'], isBreak d = false :=
        forall_mem_of_all (by decide)
      rw [none d (mem_of_combines joined)] at breaks
      cases breaks
    rw [operator, if_neg apart]

theorem first_combined {d : Char} (operates : isOperatorChar c = true)
    (joined : combines c d = true) :
    first c (d :: back) = raw .otherOperator [c, d] back := by
  have unmarked : isMarked c (d :: back) = false := by
    unfold isMarked
    split
    next same => cases same; cases joined
    next same => cases same; cases joined
    next same => cases same; cases joined
    · cases operates
    · cases operates
    · cases operates
    · cases operates
    · cases operates
    · cases operates
    · cases operates
    · rfl
  have noAsterisk : ¬(c = '*' ∧ ¬headIs (· == '=') (d :: back)) := by
    rintro ⟨rfl, noEquals⟩
    exact noEquals joined
  rw [first_of_isOperatorChar operates unmarked, if_neg noAsterisk, operator, if_pos joined]

/-! #### Numbers -/

theorem isDigit_of_isBreak (breaks : isBreak c = true) : isDigit c = false := by
  revert c
  apply forall_isBreak <;> decide

theorem not_isMark_of_isBreak (breaks : isBreak c = true) : (c == 'e' || c == 'E') = false := by
  revert c
  apply forall_isBreak <;> decide

/-- What may come after a number neither continues its digits nor its fraction. -/
def EndsNumber (back : List Char) : Prop :=
  headIs isDigit back = false ∧ headIs (· == '.') back = false

theorem IsExponent.endsNumber (isExponent : IsExponent exponent) (ends : EndsNumber back) :
    EndsNumber (exponent ++ back) := by
  have marked : ∀ {mark : Char} (tail : List Char), (mark == 'e' || mark == 'E') = true →
      EndsNumber (mark :: tail) := by
    intro mark tail marks
    simp only [Bool.or_eq_true, beq_iff_eq] at marks
    rcases marks with rfl | rfl <;> exact ⟨rfl, rfl⟩
  cases isExponent with
  | none => exact ends
  | unsigned marks => exact marked _ marks
  | signed marks => exact marked _ marks

theorem takeWhile_digits {digits : List Char} (all : digits.all isDigit = true)
    (ends : headIs isDigit back = false) :
    (digits ++ back).takeWhile isDigit = digits ∧ (digits ++ back).dropWhile isDigit = back := by
  have ran : run .number [] isDigit (digits ++ back) = raw .number digits back :=
    run_append all ends
  simpa [run, raw] using ran

theorem IsFraction.split (isFraction : IsFraction fraction) (ends : EndsNumber back) :
    splitFraction (fraction ++ back) = (fraction, back) := by
  cases isFraction with
  | none =>
    cases back with
    | nil => rfl
    | cons c back =>
      have noPoint : c ≠ '.' := by simpa [headIs] using ends.2
      rw [List.nil_append]
      unfold splitFraction
      split
      next same => exact absurd (List.cons.inj same).1 noPoint
      · rfl
  | point run =>
    rw [List.cons_append, splitFraction]
    simp only [takeWhile_digits run ends.1]

theorem IsExponent.split (isExponent : IsExponent exponent)
    (noDigit : headIs isDigit back = false)
    (noMark : headIs (fun c => c == 'e' || c == 'E') back = false) :
    splitExponent (exponent ++ back) = (exponent, back) := by
  cases isExponent with
  | none =>
    rw [List.nil_append]
    fun_cases splitExponent back with
    | case1 mark sign rest starts => simp_all [headIs]
    | case2 mark sign rest _ starts => simp_all [headIs]
    | case3 => rfl
    | case4 => rfl
  | unsigned marks run =>
    have isDigit := run
    rw [List.all_cons, Bool.and_eq_true] at isDigit
    have taken := takeWhile_digits run noDigit
    rw [List.cons_append] at taken
    rw [List.cons_append, List.cons_append, splitExponent,
      if_pos (by simp [marks, isDigit.1]), taken.1, taken.2]
  | signed marks signs run =>
    have isDigit := run
    rw [List.all_cons, Bool.and_eq_true] at isDigit
    have taken := takeWhile_digits run noDigit
    rw [List.cons_append] at taken
    have noDigit : ∀ {sign : Char}, (sign == '+' || sign == '-') = true →
        Text.isDigit sign = false := by
      intro sign signs
      simp only [Bool.or_eq_true, beq_iff_eq] at signs
      rcases signs with rfl | rfl <;> rfl
    rw [List.cons_append, List.cons_append, List.cons_append, splitExponent,
      if_neg (by simp [noDigit signs]), if_pos (by simp [marks, signs, headIs, isDigit.1]), taken.1,
      taken.2]

/-- A number is read whole, up to what cannot continue it. -/
theorem number_append {whole : List Char} (digits : whole.all isDigit = true)
    (isFraction : IsFraction fraction) (isExponent : IsExponent exponent)
    (next : ∀ d ∈ back.head?, isBreak d = true ∧ d ≠ '.') :
    number (whole ++ (fraction ++ (exponent ++ back))) =
      raw .number (whole ++ (fraction ++ exponent)) back := by
  have ends : EndsNumber back :=
    ⟨headIs_eq_false fun d follows => isDigit_of_isBreak (next d follows).1,
      headIs_eq_false fun d follows => by simpa using (next d follows).2⟩
  have noMark : headIs (fun c => c == 'e' || c == 'E') back = false :=
    headIs_eq_false fun d follows => not_isMark_of_isBreak (next d follows).1
  have endsFraction := isExponent.endsNumber ends
  have endsWhole : headIs isDigit (fraction ++ (exponent ++ back)) = false := by
    cases isFraction with
    | none => exact endsFraction.1
    | point => rfl
  have taken := takeWhile_digits digits endsWhole
  rw [number, taken.1, taken.2, isFraction.split endsFraction]
  simp only
  rw [isExponent.split ends.1 noMark]
  simp only [List.append_assoc]

theorem isMarked_of_isDigit (digit : isDigit c = true)
    (noHex : headIs (fun mark => mark == 'x' || mark == 'X') rest = false) :
    isMarked c rest = false := by
  unfold isMarked
  split
  · cases digit
  · cases digit
  · cases digit
  · cases digit
  · cases digit
  · cases digit
  · cases digit
  · cases digit
  · cases noHex
  · cases noHex
  · rfl

theorem not_isBlank_of_isDigit (digit : isDigit c = true) : isBlank c = false := by
  revert c
  apply forall_isDigit
  decide

theorem first?_number {whole : List Char} (digits : whole.all isDigit = true)
    (isFraction : IsFraction fraction) (isExponent : IsExponent exponent)
    (starts : whole ≠ [] ∨ 2 ≤ fraction.length)
    (next : ∀ d ∈ back.head?, isBreak d = true ∧ d ≠ '.') :
    first? (whole ++ (fraction ++ (exponent ++ back))) =
      some (raw .number (whole ++ (fraction ++ exponent)) back) := by
  have read := number_append digits isFraction isExponent next
  cases whole with
  | cons c whole =>
    rw [List.all_cons, Bool.and_eq_true] at digits
    have noHex : headIs (fun mark => mark == 'x' || mark == 'X')
        (whole ++ (fraction ++ (exponent ++ back))) = false := by
      apply headIs_append_eq_false digits.2
      · apply forall_isDigit
        decide
      · have noHexBack : headIs (fun mark => mark == 'x' || mark == 'X') back = false := by
          apply headIs_eq_false
          intro d follows
          have breaks := (next d follows).1
          revert breaks
          clear follows
          revert d
          apply forall_isBreak <;> decide
        cases isFraction with
        | point => rfl
        | none =>
          cases isExponent with
          | none => exact noHexBack
          | unsigned marks =>
            simp only [Bool.or_eq_true, beq_iff_eq] at marks
            rcases marks with rfl | rfl <;> rfl
          | signed marks =>
            simp only [Bool.or_eq_true, beq_iff_eq] at marks
            rcases marks with rfl | rfl <;> rfl
    rw [List.cons_append, first?, first_of_not_isMarked (not_isBlank_of_isDigit digits.1)
      (isMarked_of_isDigit digits.1 noHex), firstUnmarked, if_pos (by simp [digits.1])]
    exact congrArg some read
  | nil =>
    cases isFraction with
    | none => simp at starts
    | @point digits run =>
      cases digits with
      | nil => simp at starts
      | cons digit digits =>
        rw [List.all_cons, Bool.and_eq_true] at run
        rw [List.nil_append, List.cons_append, first?,
          first_of_not_isMarked (by decide) rfl, firstUnmarked, if_pos (by simp [headIs, run.1])]
        exact congrArg some read

theorem first_binary {mark : Char} {digits : List Char} (marks : mark = 'x' ∨ mark = 'X')
    (all : digits.all isHexDigit = true) (next : ∀ d ∈ back.head?, isBreak d = true) :
    first '0' (mark :: (digits ++ back)) = raw .binaryValue ('0' :: mark :: digits) back := by
  have ends := headIs_eq_false fun d follows => isHexDigit_of_isBreak (next d follows)
  have ran := @run_append .binaryValue ['0', mark] digits back isHexDigit all ends
  unfold first
  rw [if_neg (by decide)]
  rcases marks with rfl | rfl <;> exact ran

theorem first_money {sign : Char} (signs : isCurrencySign sign = true)
    (all : (c :: tail).all isMoneyChar = true)
    (next : ∀ d ∈ back.head?, isBreak d = true ∧ d ≠ '.') :
    first sign (c :: (tail ++ back)) = raw .monetaryValue (sign :: c :: tail) back := by
  have apart : isBlank sign = false ∧ isDigit sign = false ∧ (sign == '.') = false ∧
      ∀ rest, isMarked sign rest = false := by
    simp only [isCurrencySign, Bool.or_eq_true, beq_iff_eq] at signs
    rcases signs with ((rfl | rfl) | rfl) | rfl <;>
      exact ⟨by decide, by decide, by decide, fun _ => rfl⟩
  have starts : isMoneyChar c = true := by
    rw [List.all_cons, Bool.and_eq_true] at all
    exact all.1
  have noName : (isAlphabetic c || c == '_') = false := by
    rw [isMoneyChar, Bool.or_eq_true, beq_iff_eq] at starts
    rcases starts with digit | rfl
    · clear all
      revert c
      apply forall_isDigit
      decide
    · decide
  have ends : headIs isMoneyChar back = false := by
    apply headIs_eq_false
    intro d follows
    simp [isMoneyChar, isDigit_of_isBreak (next d follows).1, (next d follows).2]
  have ran := @run_append .monetaryValue [sign] (c :: tail) back isMoneyChar all ends
  rw [first_of_not_isMarked apart.1 (apart.2.2.2 _), firstUnmarked]
  simp only [apart.2.1, apart.2.2.1, headIs, noName, signs, starts, Bool.false_and, Bool.and_false,
    Bool.or_false, Bool.false_eq_true, if_false, Bool.and_true, if_true]
  exact ran

theorem first_pseudoName (starts : (isAlphabetic c || c == '_') = true)
    (all : tail.all isWordChar = true) (next : ∀ d ∈ back.head?, isBreak d = true) :
    first '$' (c :: (tail ++ back)) = raw .pseudoName ('$' :: c :: tail) back := by
  have ends := headIs_eq_false fun d follows => isWordChar_of_isBreak (next d follows)
  have all : (c :: tail).all isWordChar = true := by
    rw [List.all_cons, all, Bool.and_true]
    rw [Bool.or_eq_true] at starts
    rcases starts with letter | underscore
    · simp [isWordChar, isAlphanumeric, letter]
    · simp [isWordChar, underscore]
  have ran := @run_append .pseudoName ['$'] (c :: tail) back isWordChar all ends
  rw [first_of_not_isMarked (by decide) rfl, firstUnmarked, if_neg (by simp [isDigit]),
    if_pos (by simpa [headIs] using starts)]
  exact ran

/-! #### Quotations -/

/-- A body with its delimiters doubled is read back as its value. -/
theorem splitQuoted_doubleDelimiter (value : List Char) (next : ∀ d ∈ back.head?, d ≠ close) :
    splitQuoted close (doubleDelimiter close value ++ close :: back) =
      (value, doubleDelimiter close value, some back) := by
  induction value with
  | nil =>
    cases back with
    | nil => simp [doubleDelimiter, splitQuoted]
    | cons d back => simp [doubleDelimiter, splitQuoted, next d rfl]
  | cons c value ih =>
    have cons : doubleDelimiter close (c :: value) =
        (if c = close then [close, close] else [c]) ++ doubleDelimiter close value := by
      simp [doubleDelimiter]
    rw [cons]
    split
    next same =>
      simp only [List.cons_append, List.nil_append, splitQuoted, if_true, ih, same]
    next other =>
      -- the closing delimiter at the end leaves a character to look ahead to
      cases after : doubleDelimiter close value ++ close :: back with
      | nil => simp at after
      | cons d rest =>
        rw [after] at ih
        simp only [List.cons_append, List.nil_append, after, splitQuoted, other, if_false, ih]

theorem first?_quoted {opening : List Char} (quotes : quotes? kind = some (opening, close))
    (value : List Char) (next : ∀ d ∈ back.head?, d ≠ close) :
    first? (opening ++ (doubleDelimiter close value ++ close :: back)) =
      some { kind, value, lexeme := opening ++ (doubleDelimiter close value ++ [close]),
             rest := back } := by
  have read : quoted kind opening close (doubleDelimiter close value ++ close :: back) =
      { kind, value, lexeme := opening ++ (doubleDelimiter close value ++ [close]),
        rest := back } := by
    rw [quoted, splitQuoted_doubleDelimiter value next]
    simp
  unfold quotes? at quotes
  split at quotes <;> cases quotes <;> exact congrArg some read

end ReadBack

/-- A lexeme that no following character joins is read back as its token. -/
theorem Lexeme.first?_append {value text : List Char} (lexeme : Lexeme kind value text)
    (next : ∀ d ∈ back.head?, mayFollow kind text d = true) :
    first? (text ++ back) = some { kind, value, lexeme := text, rest := back } := by
  have broken (other : mayFollow kind text = fun c => isBreak c &&
      !(c == '.' && takesPoint kind text)) :
      ∀ d ∈ back.head?, isBreak d = true ∧ (takesPoint kind text = true → d ≠ '.') := by
    intro d follows
    have may := next d follows
    rw [other] at may
    simp only [Bool.and_eq_true, Bool.not_eq_true', Bool.and_eq_false_iff, beq_eq_false_iff_ne]
      at may
    refine ⟨may.1, fun takes => may.2.resolve_right ?_⟩
    simp [takes]
  cases lexeme with
  | word starts run =>
    exact congrArg some (first_word starts run fun d follows => (broken rfl d follows).1)
  | stray stray =>
    refine congrArg some (first_stray stray (fun d follows => (broken rfl d follows).1) ?_)
    intro sign d follows
    exact (broken rfl d follows).2 (by simp [takesPoint, sign])
  | mark isMark =>
    refine congrArg some (first_mark isMark ?_)
    rintro rfl d follows
    cases isMark
    simpa [mayFollow] using next d follows
  | asterisk => exact congrArg some (first_asterisk fun d follows => (broken rfl d follows).1)
  | operator operates other => exact congrArg some (first_operator operates other next)
  | combined operates joined => exact congrArg some (first_combined operates joined)
  | number digits isFraction isExponent starts =>
    simp only [List.append_assoc]
    refine first?_number digits isFraction isExponent starts fun d follows => ?_
    exact ⟨(broken rfl d follows).1, (broken rfl d follows).2 rfl⟩
  | binary marks run =>
    exact congrArg some (first_binary marks run fun d follows => (broken rfl d follows).1)
  | money signs run =>
    refine congrArg some (first_money signs run fun d follows => ?_)
    exact ⟨(broken rfl d follows).1, (broken rfl d follows).2 rfl⟩
  | pseudoName starts run =>
    exact congrArg some (first_pseudoName starts run fun d follows => (broken rfl d follows).1)
  | quoted quotes value =>
    simp only [List.append_assoc, List.singleton_append]
    refine first?_quoted quotes value fun d follows => ?_
    have may := next d follows
    unfold quotes? at quotes
    split at quotes <;> cases quotes <;> simpa [mayFollow] using may

end Scan

end SqlLayout
