import SqlLayout.Proofs.Draft.Built
import SqlLayout.Token.Lexer

/-!
# Tokens of a script are faithful

What a script is cut into agrees with its classes: a word or a blank is a nonempty run without a
closing parenthesis, and a punctuation mark is the character it is named for.
-/

namespace SqlLayout

open Text

namespace Scan

def Faithful (scan : Scan) : Prop :=
  ∀ span, Token.Faithful { kind := scan.kind, value := String.ofList scan.value, span }

/-- Classes whose tokens have any text. -/
def isFree : TokenKind → Bool
  | .word | .whiteSpace | .colon | .openParens | .closeParens => false
  | _ => true

theorem faithful_of_isFree {scan : Scan} (free : isFree scan.kind = true) : scan.Faithful := by
  intro span
  revert free
  rw [Token.Faithful]
  cases scan.kind <;> simp [isFree]

theorem faithful_run {kind : TokenKind} (isRun : kind = .word ∨ kind = .whiteSpace) {c : Char}
    {property : Char → Bool} (opens : ∀ mark ∈ [')', ':'], c ≠ mark)
    (ends : [')', ':'].any property = false) (text : List Char) :
    (run kind [c] property text).Faithful := by
  intro span
  have run : ∀ mark ∈ [')', ':'], mark ∉ c :: text.takeWhile property := by
    rintro mark isMark (_ | ⟨_, later⟩)
    · exact opens _ isMark rfl
    · have holds := List.all_eq_true.mp (@List.all_takeWhile _ property text) _ later
      exact absurd holds (List.any_eq_false.mp ends mark isMark)
  rcases isRun with rfl | rfl
  · simpa [Token.Faithful, Scan.run, raw] using run
  · simpa [Token.Faithful, Scan.run, raw] using run ')' (by simp)

theorem faithful_block (text : List Char) : (block text).Faithful := by
  unfold block
  split <;> exact faithful_of_isFree rfl

theorem faithful_quoted (kind : TokenKind) (opening : List Char) (close : Char) (text : List Char)
    (free : isFree kind = true) : (quoted kind opening close text).Faithful := by
  unfold quoted
  split <;> exact faithful_of_isFree free

theorem faithful_symbol (c : Char) (rest : List Char) : (symbol c rest).Faithful := by
  unfold symbol
  split
  next kind isMark =>
    intro span
    unfold punctuation? at isMark
    split at isMark <;> cases isMark <;> simp [Token.Faithful, raw]
  next noMark =>
    have notMark : ∀ mark ∈ [')', ':'], mark ≠ c := by
      rintro mark isMark rfl
      revert isMark
      simp only [List.mem_cons, List.not_mem_nil, or_false, imp_false]
      rintro (rfl | rfl) <;> exact absurd noMark (by decide)
    split
    · exact faithful_of_isFree rfl
    · split
      · fun_cases operator c rest <;> exact faithful_of_isFree rfl
      · intro span
        simpa [Token.Faithful, raw] using notMark

/-- The first token of a text is faithful. -/
theorem faithful_first (c : Char) (rest : List Char) : (first c rest).Faithful := by
  have notOwn {property : Char → Bool} (starts : property c = true)
      (ends : [')', ':'].any property = false) : ∀ mark ∈ [')', ':'], c ≠ mark := by
    rintro mark isMark rfl
    exact absurd starts (List.any_eq_false.mp ends c isMark)
  unfold first
  split
  next blank => exact faithful_run (.inr rfl) (notOwn blank (by decide)) (by decide) rest
  · split
    · exact faithful_of_isFree rfl
    · exact faithful_of_isFree rfl
    · exact faithful_block _
    · exact faithful_quoted _ _ _ _ rfl
    · exact faithful_quoted _ _ _ _ rfl
    · exact faithful_quoted _ _ _ _ rfl
    · exact faithful_quoted _ _ _ _ rfl
    · exact faithful_quoted _ _ _ _ rfl
    · exact faithful_of_isFree rfl
    · exact faithful_of_isFree rfl
    · split
      · exact faithful_of_isFree rfl
      · split
        · exact faithful_of_isFree rfl
        · split
          · exact faithful_of_isFree rfl
          · split
            next starts => exact faithful_run (.inl rfl) (notOwn starts (by decide)) (by decide) _
            · exact faithful_symbol _ _

end Scan

/-- The tokens of a script are faithful. -/
theorem TokenList.faithful_ofText (script : String) :
    ∀ token ∈ (TokenList.ofText script).tokens, token.Faithful := by
  have fromAnywhere : ∀ (offset : Nat) (text : List Char),
      ∀ token ∈ (scanFrom offset text).tokens, token.Faithful := by
    intro offset text
    fun_induction scanFrom offset text with
    | case1 => simp
    | case2 offset c rest scan stop later ih =>
      exact List.forall_mem_cons.mpr ⟨Scan.faithful_first c rest _, ih⟩
  exact fromAnywhere 0 script.toList

end SqlLayout
