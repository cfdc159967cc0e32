import SqlLayout.Proofs.Token.Respelling
import SqlLayout.Text.Case

/-!
# Tokens without tabs and line breaks

Only blanks, comments and quotations can hold a tab or a line break, or any other blank. The case
mappings bring none in.
-/

namespace SqlLayout

variable {c : Char}

namespace Text

variable {text : String} {mark : Char}

/-- A text without tabs and line breaks. -/
def Smooth (text : String) : Prop :=
  '\t' ∉ text.toList ∧ '\n' ∉ text.toList

instance (text : String) : Decidable (Smooth text) :=
  inferInstanceAs (Decidable (_ ∧ _))

theorem Smooth.append {first second : String} (front : Smooth first) (back : Smooth second) :
    Smooth (first ++ second) := by
  rw [Smooth, String.toList_append, List.mem_append, List.mem_append, not_or, not_or]
  exact ⟨⟨front.1, back.1⟩, front.2, back.2⟩

theorem Smooth.intercalate {gap : String} {texts : List String} (between : Smooth gap)
    (each : ∀ text ∈ texts, Smooth text) : Smooth (gap.intercalate texts) := by
  induction texts with
  | nil => exact ⟨nofun, nofun⟩
  | cons first rest ih =>
    obtain ⟨here, later⟩ := List.forall_mem_cons.mp each
    cases rest with
    | nil => simpa using here
    | cons second rest =>
      rw [String.intercalate_cons_cons]
      exact (here.append between).append (ih later)

theorem Smooth.of_subset {other : String} (smooth : Smooth text)
    (within : other.toList ⊆ text.toList) : Smooth other :=
  ⟨fun member => smooth.1 (within member), fun member => smooth.2 (within member)⟩

theorem smooth_of_not_isBlank (solid : ∀ c ∈ text.toList, isBlank c = false) : Smooth text :=
  ⟨fun member => absurd (solid _ member) (by decide), fun member =>
    absurd (solid _ member) (by decide)⟩

/-! ### Case mappings -/

/-- A character below the letters, but not the first one. The case mappings lead to none of
these. -/
def IsLow (c : Char) : Prop :=
  0 < c.toNat ∧ c.toNat < 0x41

instance (c : Char) : Decidable (IsLow c) :=
  inferInstanceAs (Decidable (_ ∧ _))

theorem ofNat_ne_of_isLow (low : IsLow mark) {point : Nat} (high : 0x41 ≤ point) :
    Char.ofNat point ≠ mark := by
  rintro rfl
  by_cases valid : point.isValidChar
  · have same : (Char.ofNat point).toNat = point := by
      rw [Char.ofNat, dif_pos valid]
      exact UInt32.toNat_ofNatLT
    rw [IsLow, same] at low
    omega
  · have null : (Char.ofNat point).toNat = 0 := by
      rw [Char.ofNat, dif_neg valid]
      rfl
    rw [IsLow, null] at low
    omega

theorem mapByRuns_eq_of_isLow (low : IsLow mark) {runs : List (Nat × Nat × Nat × Nat)}
    (high : ∀ run ∈ runs, 0x41 ≤ run.2.2.2) (isMark : mapByRuns runs c = mark) : c = mark := by
  induction runs with
  | nil => exact isMark
  | cons run runs ih =>
    obtain ⟨here, later⟩ := List.forall_mem_cons.mp high
    rw [mapByRuns] at isMark
    split at isMark
    · exact isMark
    · split at isMark
      · exact absurd isMark (ofNat_ne_of_isLow low (Nat.le_add_right_of_le here))
      · exact ih later isMark

theorem mem_of_lookupSorted {α : Type} {table : List (Nat × α)} {point : Nat} {value : α}
    (found : lookupSorted table point = some value) : (point, value) ∈ table := by
  fun_induction lookupSorted table point with
  | case1 | case2 => cases found
  | case3 key value later point =>
    cases found
    exact List.mem_cons_self
  | case4 key other later point _ _ ih => exact List.mem_cons_of_mem _ (ih found)

theorem eq_of_mem_upperChar (low : IsLow mark) (member : mark ∈ upperChar c) : c = mark := by
  unfold upperChar at member
  split at member
  next expansion found =>
    have high : ∀ entry ∈ upperExpansions, ∀ point ∈ entry.2, 0x41 ≤ point := by decide +kernel
    obtain ⟨point, within, isMark⟩ := List.mem_map.mp member
    exact absurd isMark (ofNat_ne_of_isLow low (high _ (mem_of_lookupSorted found) point within))
  · exact mapByRuns_eq_of_isLow low (by decide +kernel) (List.mem_singleton.mp member).symm

theorem eq_of_mem_lowerChar (low : IsLow mark) (member : mark ∈ lowerChar c) : c = mark := by
  unfold lowerChar at member
  split at member
  · have high : ∀ c ∈ ['i', Char.ofNat 0x307], ¬IsLow c := forall_mem_of_all (by decide)
    exact absurd low (high mark member)
  · exact mapByRuns_eq_of_isLow low (by decide +kernel) (List.mem_singleton.mp member).symm

theorem notMem_upper (low : IsLow mark) (absent : mark ∉ text.toList) :
    mark ∉ (upper text).toList := by
  rw [upper, String.toList_ofList, upperChars, List.mem_flatMap]
  rintro ⟨c, within, member⟩
  exact absent (eq_of_mem_upperChar low member ▸ within)

theorem notMem_lowerAfter (low : IsLow mark) {text : List Char} (absent : mark ∉ text)
    (before : List Char) : mark ∉ lowerAfter before text := by
  induction text generalizing before with
  | nil => exact absent
  | cons c text ih =>
    rw [List.mem_cons, not_or] at absent
    rw [lowerAfter]
    split
    · have high : ∀ c ∈ ['ς', 'σ'], ¬IsLow c := forall_mem_of_all (by decide)
      rw [List.mem_cons, not_or]
      refine ⟨?_, ih absent.2 _⟩
      rintro rfl
      split at low <;> exact high _ (by simp) low
    · rw [List.mem_append, not_or]
      exact ⟨fun member => absent.1 (eq_of_mem_lowerChar low member).symm, ih absent.2 _⟩

theorem notMem_lower (low : IsLow mark) (absent : mark ∉ text.toList) :
    mark ∉ (lower text).toList := by
  rw [lower, String.toList_ofList]
  exact notMem_lowerAfter low absent []

variable {text : String}

theorem Smooth.upper (smooth : Smooth text) : Smooth (upper text) :=
  ⟨notMem_upper (by decide) smooth.1, notMem_upper (by decide) smooth.2⟩

theorem Smooth.lower (smooth : Smooth text) : Smooth (lower text) :=
  ⟨notMem_lower (by decide) smooth.1, notMem_lower (by decide) smooth.2⟩

end Text

/-! ### Tokens of a script -/

open Text

/-- A class whose tokens are neither blanks, comments nor quotations. -/
def TokenKind.isSolid : TokenKind → Bool
  | whiteSpace | lineComment | slashComment | blockComment | string | nationalString | quotedString
  | bracketName => false
  | _ => true

namespace Scan

theorem not_isBlank_of_all {property : Char → Bool}
    (ends : ∀ {c}, isBreak c = true → property c = false) {text : List Char}
    (run : text.all property = true) : ∀ c ∈ text, isBlank c = false := by
  intro c member
  cases blank : isBlank c with
  | false => rfl
  | true =>
    have holds := List.all_eq_true.mp run c member
    rw [ends (by simp [isBreak, blank])] at holds
    cases holds

theorem not_isBlank_of_digits {digits : List Char} (run : digits.all isDigit = true) :
    ∀ c ∈ digits, isBlank c = false :=
  fun c member => not_isBlank_of_isDigit (List.all_eq_true.mp run c member)

theorem IsFraction.not_isBlank {fraction : List Char} (isFraction : IsFraction fraction) :
    ∀ c ∈ fraction, isBlank c = false := by
  cases isFraction with
  | none => simp
  | point run => exact List.forall_mem_cons.mpr ⟨by decide, not_isBlank_of_digits run⟩

theorem IsExponent.not_isBlank {exponent : List Char} (isExponent : IsExponent exponent) :
    ∀ c ∈ exponent, isBlank c = false := by
  have mark : ∀ {c d e : Char}, (c == d || c == e) = true → isBlank d = false → isBlank e = false →
      isBlank c = false := by
    intro c d e isMark first second
    rcases Bool.or_eq_true_iff.mp isMark with same | same
    · exact eq_of_beq same ▸ first
    · exact eq_of_beq same ▸ second
  cases isExponent with
  | none => simp
  | unsigned marks run =>
    exact List.forall_mem_cons.mpr ⟨mark marks (by decide) (by decide), not_isBlank_of_digits run⟩
  | signed marks signs run =>
    exact List.forall_mem_cons.mpr ⟨mark marks (by decide) (by decide),
      List.forall_mem_cons.mpr ⟨mark signs (by decide) (by decide), not_isBlank_of_digits run⟩⟩

/-- Only blanks, comments and quotations hold blanks. -/
theorem Lexeme.not_isBlank {kind : TokenKind} {value text : List Char}
    (lexeme : Lexeme kind value text) (solid : kind.isSolid = true) :
    ∀ c ∈ value, isBlank c = false := by
  have operators : ∀ c, isOperatorChar c = true → isBlank c = false := by
    intro c operates
    simp only [isOperatorChar, List.contains_iff_mem] at operates
    revert c
    apply forall_mem_of_all
    decide
  cases lexeme with
  | word starts run =>
    exact List.forall_mem_cons.mpr ⟨not_isBlank_of_isWordStart starts,
      not_isBlank_of_all isWordChar_of_isBreak run⟩
  | @stray c stray =>
    simp only [isStray, Bool.and_eq_true, Bool.not_eq_true'] at stray
    simpa using stray.1.1.1.1.1
  | @mark _ c isMark =>
    unfold punctuation? at isMark
    split at isMark <;> cases isMark <;> exact forall_mem_of_all (by decide)
  | asterisk => exact forall_mem_of_all (by decide)
  | operator operates => simpa using operators _ operates
  | @combined c d operates joined =>
    have seconds : ∀ d ∈ ['=', '<', '>'], isBlank d = false := forall_mem_of_all (by decide)
    simpa [seconds d (mem_of_combines joined)] using operators _ operates
  | number digits isFraction isExponent =>
    exact List.forall_mem_append.mpr ⟨not_isBlank_of_digits digits,
      List.forall_mem_append.mpr ⟨isFraction.not_isBlank, isExponent.not_isBlank⟩⟩
  | @binary mark digits marks run =>
    have isMark : isBlank mark = false := by rcases marks with rfl | rfl <;> decide
    exact List.forall_mem_cons.mpr ⟨by decide, List.forall_mem_cons.mpr ⟨isMark,
      not_isBlank_of_all isHexDigit_of_isBreak run⟩⟩
  | @money sign c tail signs run =>
    have isSign : isBlank sign = false := by
      simp only [isCurrencySign, Bool.or_eq_true, beq_iff_eq] at signs
      rcases signs with ((rfl | rfl) | rfl) | rfl <;> decide
    refine List.forall_mem_cons.mpr ⟨isSign, fun c member => ?_⟩
    rcases Bool.or_eq_true_iff.mp (List.all_eq_true.mp run c member) with digit | point
    · exact not_isBlank_of_isDigit digit
    · exact eq_of_beq point ▸ by decide
  | @pseudoName c tail starts run =>
    have isStart : isWordStart c = true := by
      simp only [Bool.or_eq_true] at starts
      rcases starts with letter | underscore <;> simp [isWordStart, *]
    exact List.forall_mem_cons.mpr ⟨by decide, List.forall_mem_cons.mpr
      ⟨not_isBlank_of_isWordStart isStart, not_isBlank_of_all isWordChar_of_isBreak run⟩⟩
  | quoted quotes =>
    unfold quotes? at quotes
    split at quotes <;> cases quotes <;> cases solid

theorem Lexeme.notMem_comma {value text : List Char} (lexeme : Lexeme .word value text) :
    ',' ∉ value := by
  intro member
  cases lexeme with
  | word starts run =>
    rcases List.mem_cons.mp member with rfl | later
    · exact absurd starts (by decide)
    · exact absurd (List.all_eq_true.mp run ',' later) (by decide)
  | stray stray =>
    obtain rfl := List.mem_singleton.mp member
    exact absurd stray (by decide)
  | mark isMark =>
    obtain rfl := List.mem_singleton.mp member
    cases isMark
  | quoted quotes => cases quotes

/-- The first token of a text is a lexeme, unless it is a blank, a comment or a quotation. -/
theorem lexeme_first {rest : List Char} (solid : (first c rest).kind.isSolid = true) :
    ∃ text, Lexeme (first c rest).kind (first c rest).value text := by
  have content : (first c rest).kind.isTrivia = false := by
    revert solid
    cases (first c rest).kind <;> decide
  have closed : (first c rest).closed = true := by
    cases closed : (first c rest).closed with
    | true => rfl
    | false =>
      -- Only what is no solid token can be left open.
      have ends := ((spells_first c rest).ends closed).2
      revert solid ends
      cases (first c rest).kind <;> decide
  exact lexical_first c rest content closed

theorem not_isBlank_first {rest : List Char} (solid : (first c rest).kind.isSolid = true) :
    ∀ d ∈ (first c rest).value, isBlank d = false := by
  obtain ⟨text, lexeme⟩ := lexeme_first solid
  exact lexeme.not_isBlank solid

end Scan

/-- The tokens of a script are lexemes, apart from blanks, comments and quotations. -/
theorem TokenList.lexeme_ofText (script : String) :
    ∀ token ∈ (TokenList.ofText script).tokens, token.kind.isSolid = true →
      ∃ text, Scan.Lexeme token.kind token.value.toList text := by
  have fromAnywhere : ∀ (offset : Nat) (text : List Char), ∀ token ∈ (scanFrom offset text).tokens,
      token.kind.isSolid = true → ∃ text, Scan.Lexeme token.kind token.value.toList text := by
    intro offset text
    fun_induction scanFrom offset text with
    | case1 => simp
    | case2 offset c rest scan stop later ih =>
      refine List.forall_mem_cons.mpr ⟨fun solid => ?_, ih⟩
      rw [String.toList_ofList]
      exact Scan.lexeme_first solid
  exact fromAnywhere 0 script.toList

theorem TokenList.not_isBlank_ofText (script : String) :
    ∀ token ∈ (TokenList.ofText script).tokens, token.kind.isSolid = true →
      ∀ c ∈ token.value.toList, isBlank c = false := by
  intro token member solid
  obtain ⟨text, lexeme⟩ := lexeme_ofText script token member solid
  exact lexeme.not_isBlank solid

end SqlLayout
