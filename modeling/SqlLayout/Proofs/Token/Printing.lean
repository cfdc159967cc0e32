import SqlLayout.Proofs.Token.Lexeme
import SqlLayout.Text.Case

/-!
# Texts that read as given tokens

`Cut keys text` says that a text is made of lexemes, blanks and comments, each followed by what does
not join it. Such a text is read as exactly the tokens of the lexemes (`Cut.keys_ofText`); a token
is known by its key, its class and its value in upper case.
-/

namespace SqlLayout

open Text

/-- The class of a token and its value in upper case. -/
def Token.key (token : Token) : TokenKind × String :=
  (token.kind, upper token.value)

/-- The keys of the tokens that are neither blanks nor comments. -/
def TokenList.keys (list : TokenList) : List (TokenKind × String) :=
  (list.tokens.filter fun token => !token.kind.isTrivia).map Token.key

namespace Scan

/-- The body of a block comment that is closed. -/
def IsBlockBody (body : List Char) : Prop :=
  ∀ back, splitBlock 0 (body ++ '*' :: '/' :: back) = (body, some back)

theorem splitBlock_append {depth : Nat} {text body rest : List Char}
    (found : splitBlock depth text = (body, some rest)) (back : List Char) :
    splitBlock depth (body ++ '*' :: '/' :: back) = (body, some back) := by
  fun_induction splitBlock depth text generalizing body rest with
  | case1 => cases found
  | case2 depth text inside after inner ih =>
    rcases Prod.mk.inj found with ⟨rfl, rfl⟩
    simp only [List.cons_append, splitBlock, ih inner]
  | case3 text =>
    rcases Prod.mk.inj found with ⟨rfl, -⟩
    simp [splitBlock]
  | case4 text outer inside after inner ih =>
    rcases Prod.mk.inj found with ⟨rfl, rfl⟩
    simp only [List.cons_append, splitBlock, ih inner]
  | case5 depth c text noOpening noClosing inside after inner ih =>
    rcases Prod.mk.inj found with ⟨rfl, rfl⟩
    have whole := splitBlock_some inner
    have goesOn := ih inner
    rw [List.cons_append]
    -- the character after `c` is the same, whatever follows the comment
    have sameHead : ∀ d tail, inside ++ '*' :: '/' :: back = d :: tail →
        ∃ other, text = d :: other := by
      intro d tail cut
      rw [← whole]
      cases inside with
      | nil =>
        rw [List.nil_append, List.cons.injEq] at cut
        exact ⟨_, by rw [List.nil_append, cut.1]⟩
      | cons first inside =>
        rw [List.cons_append, List.cons.injEq] at cut
        exact ⟨_, by rw [List.cons_append, cut.1]⟩
    have step : splitBlock depth (c :: (inside ++ '*' :: '/' :: back)) =
        (c :: (splitBlock depth (inside ++ '*' :: '/' :: back)).1,
          (splitBlock depth (inside ++ '*' :: '/' :: back)).2) := by
      rw [splitBlock]
      · rintro tail rfl cut
        rcases sameHead _ _ cut with ⟨other, rfl⟩
        exact noOpening other rfl rfl
      · rintro tail rfl cut
        rcases sameHead _ _ cut with ⟨other, rfl⟩
        exact noClosing other rfl rfl
    rw [step, goesOn]

theorem splitLine_of_noBreak {body : List Char} (noBreak : ∀ c ∈ body, c ≠ '\r' ∧ c ≠ '\n') :
    splitLine body = (body, []) ∧
      ∀ back, splitLine (body ++ '\n' :: back) = (body ++ ['\n'], back) := by
  induction body with
  | nil => exact ⟨rfl, fun back => rfl⟩
  | cons c body ih =>
    rcases List.forall_mem_cons.mp noBreak with ⟨⟨noReturn, noFeed⟩, later⟩
    have step : ∀ text, splitLine (c :: text) = (c :: (splitLine text).1, (splitLine text).2) := by
      intro text
      rw [splitLine]
      · exact noFeed
      · exact fun _ isReturn => absurd isReturn noReturn
      · exact noReturn
    refine ⟨by rw [step, (ih later).1], fun back => ?_⟩
    rw [List.cons_append, step, (ih later).2]
    rfl

theorem Lexeme.not_isTrivia {kind : TokenKind} {value text : List Char}
    (lexeme : Lexeme kind value text) : kind.isTrivia = false := by
  cases lexeme with
  | mark isMark =>
    unfold punctuation? at isMark
    split at isMark <;> cases isMark <;> rfl
  | quoted quotes =>
    unfold quotes? at quotes
    split at quotes <;> cases quotes <;> rfl
  | _ => rfl

end Scan

/-- A text of lexemes, blanks and comments, with the keys of the lexemes. -/
inductive Cut : List (TokenKind × String) → List Char → Prop where
  | nil : Cut [] []
  | blank {keys : List (TokenKind × String)} {c : Char} {rest : List Char}
      (blank : isBlank c = true)
      (cut : Cut keys rest) : Cut keys (c :: rest)
  | lexeme {keys : List (TokenKind × String)} {kind : TokenKind} {value text rest : List Char}
      (lexeme : Scan.Lexeme kind value text)
      (next : ∀ d ∈ rest.head?, Scan.mayFollow kind text d = true) (cut : Cut keys rest) :
      Cut ((kind, upper (String.ofList value)) :: keys) (text ++ rest)
  | line {keys : List (TokenKind × String)} {mark : Char} {body rest : List Char}
      (marks : mark = '-' ∨ mark = '/') (noBreak : ∀ c ∈ body, c ≠ '\r' ∧ c ≠ '\n')
      (next : ∀ d ∈ rest.head?, d = '\n') (cut : Cut keys rest) :
      Cut keys (mark :: mark :: (body ++ rest))
  | block {keys : List (TokenKind × String)} {body rest : List Char}
      (isBody : Scan.IsBlockBody body)
      (cut : Cut keys rest) : Cut keys ('/' :: '*' :: (body ++ '*' :: '/' :: rest))

namespace TokenList

theorem keys_scanFrom_nil (offset : Nat) : (scanFrom offset []).keys = [] := by
  rw [scanFrom]
  rfl

theorem keys_scanFrom_cons (offset : Nat) (c : Char) (rest : List Char) :
    (scanFrom offset (c :: rest)).keys =
      (if (Scan.first c rest).kind.isTrivia then []
        else [((Scan.first c rest).kind, upper (String.ofList (Scan.first c rest).value))]) ++
        (scanFrom (offset + byteSize (Scan.first c rest).lexeme)
          (Scan.first c rest).rest).keys := by
  rw [scanFrom, keys]
  cases isTrivia : (Scan.first c rest).kind.isTrivia with
  | true =>
    rw [List.filter_cons_of_neg (by simp [isTrivia])]
    rfl
  | false =>
    rw [List.filter_cons_of_pos (by simp [isTrivia])]
    rfl

theorem keys_scanFrom (offset other : Nat) (text : List Char) :
    (scanFrom offset text).keys = (scanFrom other text).keys := by
  fun_induction scanFrom offset text generalizing other with
  | case1 => rw [keys_scanFrom_nil]; rfl
  | case2 offset c rest scan stop later ih =>
    have here := keys_scanFrom_cons offset c rest
    rw [scanFrom] at here
    rw [here, keys_scanFrom_cons other, ih (other + byteSize scan.lexeme)]

theorem keys_of_first? {text : List Char} {scan : Scan} (isFirst : Scan.first? text = some scan)
    (offset : Nat) :
    (scanFrom offset text).keys =
      (if scan.kind.isTrivia then [] else [(scan.kind, upper (String.ofList scan.value))]) ++
        (scanFrom offset scan.rest).keys := by
  cases text with
  | nil => cases isFirst
  | cons c rest =>
    cases isFirst
    rw [keys_scanFrom_cons, keys_scanFrom _ offset]

theorem keys_scanFrom_dropWhile (offset : Nat) (text : List Char) :
    (scanFrom offset (text.dropWhile isBlank)).keys = (scanFrom offset text).keys := by
  cases text with
  | nil => rfl
  | cons c rest =>
    cases blank : isBlank c with
    | false => rw [List.dropWhile_cons_of_neg (by simp [blank])]
    | true =>
      have isFirst : Scan.first? (c :: rest) = some (Scan.run .whiteSpace [c] isBlank rest) := by
        rw [Scan.first?]
        unfold Scan.first
        rw [if_pos blank]
      rw [keys_of_first? isFirst, List.dropWhile_cons_of_pos blank]
      rfl

theorem keys_scanFrom_blank (offset : Nat) {c : Char} (blank : isBlank c = true)
    (text : List Char) :
    (scanFrom offset (c :: text)).keys = (scanFrom offset text).keys := by
  rw [← keys_scanFrom_dropWhile offset (c :: text), List.dropWhile_cons_of_pos blank,
    keys_scanFrom_dropWhile]

end TokenList

namespace Cut

open Scan TokenList

variable {keys others : List (TokenKind × String)} {text rest : List Char}

theorem keys_scanFrom (cut : Cut keys text) (offset : Nat) :
    (scanFrom offset text).keys = keys := by
  induction cut with
  | nil => exact keys_scanFrom_nil offset
  | blank blank _ ih => rw [keys_scanFrom_blank offset blank, ih]
  | lexeme lexeme next _ ih =>
    rw [keys_of_first? (lexeme.first?_append next), ih, lexeme.not_isTrivia]
    rfl
  | @line keys mark body rest marks noBreak next _ ih =>
    have comment : ∃ kind : TokenKind, kind.isTrivia = true ∧
        first? (mark :: mark :: (body ++ rest)) =
          some (Scan.line kind [mark, mark] (body ++ rest)) := by
      rcases marks with rfl | rfl
      · exact ⟨.lineComment, rfl, rfl⟩
      · exact ⟨.slashComment, rfl, rfl⟩
    rcases comment with ⟨kind, isTrivia, isFirst⟩
    have silent : (Scan.line kind [mark, mark] (body ++ rest)).kind.isTrivia = true := isTrivia
    rw [keys_of_first? isFirst, if_pos silent, List.nil_append, ← ih]
    cases rest with
    | nil =>
      rw [List.append_nil, Scan.line, (splitLine_of_noBreak noBreak).1]
    | cons d rest =>
      obtain rfl := next d rfl
      rw [Scan.line, (splitLine_of_noBreak noBreak).2, keys_scanFrom_blank offset (by decide)]
  | @block keys body rest isBody _ ih =>
    have isFirst : first? ('/' :: '*' :: (body ++ '*' :: '/' :: rest)) =
        some (Scan.block (body ++ '*' :: '/' :: rest)) :=
      rfl
    rw [keys_of_first? isFirst, Scan.block, isBody rest, ih]
    rfl

/-- A text that is cut into tokens is read as them. -/
theorem keys_ofText {script : String} (cut : Cut keys script.toList) :
    (TokenList.ofText script).keys = keys :=
  cut.keys_scanFrom 0

theorem blanks (all : ∀ c ∈ text, isBlank c = true) (cut : Cut keys rest) :
    Cut keys (text ++ rest) := by
  induction text with
  | nil => exact cut
  | cons c text ih =>
    rcases List.forall_mem_cons.mp all with ⟨here, later⟩
    exact .blank here (ih later)

end Cut

/-- A text that is read as tokens, before whatever satisfies a condition. -/
def Prints (keys : List (TokenKind × String)) (text : List Char) (ends : Char → Bool) : Prop :=
  ∀ ⦃others : List (TokenKind × String)⦄ ⦃rest : List Char⦄, (∀ d ∈ rest.head?, ends d = true) →
    Cut others rest → Cut (keys ++ others) (text ++ rest)

namespace Prints

variable {keys others : List (TokenKind × String)} {text more : List Char}
  {ends final : Char → Bool}

theorem lexeme {kind : TokenKind} {value text : List Char} (lexeme : Scan.Lexeme kind value text) :
    Prints [(kind, upper (String.ofList value))] text (Scan.mayFollow kind text) :=
  fun _ _ next cut => .lexeme lexeme next cut

theorem append (front : Prints keys text ends) (back : Prints others more final) {c : Char}
    {tail : List Char} (starts : more = c :: tail) (meets : ends c = true) :
    Prints (keys ++ others) (text ++ more) final := by
  intro further rest next cut
  rw [List.append_assoc, List.append_assoc]
  refine front ?_ (back next cut)
  rw [starts, List.cons_append]
  rintro d ⟨⟩
  exact meets

theorem blank (prints : Prints keys text ends) {c : Char} (blank : isBlank c = true) :
    Prints keys (c :: text) ends :=
  fun _ _ next cut => .blank blank (prints next cut)

theorem weaken (prints : Prints keys text ends) (within : ∀ c, final c = true → ends c = true) :
    Prints keys text final :=
  fun _ _ next cut => prints (fun d member => within d (next d member)) cut

end Prints

end SqlLayout
