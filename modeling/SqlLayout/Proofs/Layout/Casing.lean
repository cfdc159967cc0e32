import SqlLayout.Proofs.Grammar.Reserved
import SqlLayout.Proofs.Token.Printing

/-!
# Tokens in another case

Layout writes keywords and operators in the case that the style asks for, numbers in lower case and
binary values in upper case. All of them stay tokens of their class with the same key. For a keyword
this holds whatever its spelling: besides the ASCII letters only a few characters have an upper case
in ASCII, and they are letters without a lower case of their own.
-/

namespace SqlLayout

variable {c : Char}

namespace Text

theorem forall_ascii {property : Char → Prop}
    (listed : ∀ point ∈ List.range 128, property (Char.ofNat point)) {c : Char}
    (ascii : c.toNat < 128) : property c := by
  have holds := listed c.toNat (List.mem_range.mpr ascii)
  rwa [Char.ofNat_toNat] at holds

theorem upperChar_of_ascii (ascii : c.toNat < 128) : upperChar c = [c.toUpper] := by
  revert ascii
  apply forall_ascii
  decide +kernel

theorem lowerChar_of_ascii (ascii : c.toNat < 128) : c ≠ 'Σ' ∧ lowerChar c = [c.toLower] := by
  revert ascii
  apply forall_ascii
  decide +kernel

theorem toUpper_of_ascii (ascii : c.toNat < 128) :
    c.toUpper.toUpper = c.toUpper ∧ c.toLower.toUpper = c.toUpper ∧ c.toUpper.toNat < 128 ∧
      c.toLower.toNat < 128 := by
  revert ascii
  apply forall_ascii
  decide +kernel

variable {text : List Char}

theorem upper_of_ascii (ascii : ∀ c ∈ text, c.toNat < 128) :
    upper (String.ofList text) = String.ofList (text.map Char.toUpper) := by
  have chars : upperChars text = text.map Char.toUpper := by
    induction text with
    | nil => rfl
    | cons c rest ih =>
      rcases List.forall_mem_cons.mp ascii with ⟨here, later⟩
      rw [upperChars, List.flatMap_cons, upperChar_of_ascii here, ← upperChars, ih later]
      rfl
  rw [upper, String.toList_ofList, chars]

theorem lower_of_ascii (ascii : ∀ c ∈ text, c.toNat < 128) :
    lower (String.ofList text) = String.ofList (text.map Char.toLower) := by
  have chars : ∀ before, lowerAfter before text = text.map Char.toLower := by
    induction text with
    | nil => exact fun _ => rfl
    | cons c rest ih =>
      rcases List.forall_mem_cons.mp ascii with ⟨here, later⟩
      rcases lowerChar_of_ascii here with ⟨plain, low⟩
      intro before
      rw [lowerAfter, if_neg plain, low, ih later]
      rfl
  rw [lower, String.toList_ofList, chars]

/-- The two ways to change the case of ASCII letters. -/
def Recases (recase : Char → Char) : Prop :=
  recase = Char.toUpper ∨ recase = Char.toLower

theorem upper_recase_of_ascii {recase : Char → Char} (recases : Recases recase)
    (ascii : ∀ c ∈ text, c.toNat < 128) :
    upper (String.ofList (text.map recase)) = upper (String.ofList text) := by
  have each : ∀ c ∈ text, (recase c).toUpper = c.toUpper ∧ (recase c).toNat < 128 := by
    intro c member
    rcases toUpper_of_ascii (ascii c member) with ⟨upperUpper, lowerUpper, upperAscii, lowerAscii⟩
    rcases recases with rfl | rfl
    · exact ⟨upperUpper, upperAscii⟩
    · exact ⟨lowerUpper, lowerAscii⟩
  rw [upper_of_ascii ascii, upper_of_ascii, List.map_map]
  · exact congrArg _ (List.map_congr_left fun c member => (each c member).1)
  · exact List.forall_mem_map.mpr fun c member => (each c member).2

theorem isDigit_ascii (digit : isDigit c = true) : c.toNat < 128 ∧ c.toLower = c := by
  revert c
  apply forall_isDigit
  decide

theorem isHexDigit_ascii (digit : isHexDigit c = true) :
    c.toNat < 128 ∧ isHexDigit c.toUpper = true := by
  have ascii : c.toNat < 128 := by
    simp only [isHexDigit, isDigit, Bool.or_eq_true, Bool.and_eq_true,
      decide_eq_true_eq, Char.le_def, UInt32.le_iff_toNat_le] at digit
    have bounds : 'f'.val.toNat = 102 ∧ 'F'.val.toNat = 70 ∧ '9'.val.toNat = 57 := by decide
    have code : c.toNat = c.val.toNat := rfl
    omega
  refine ⟨ascii, ?_⟩
  refine @forall_ascii (fun c => isHexDigit c = true → isHexDigit c.toUpper = true) ?_ c ascii digit
  decide +kernel

/-- The characters beyond ASCII with an upper case in ASCII: `ß`, the dotless `ı`, the long `ſ` and
the ligatures from `ﬀ` to `ﬆ`. -/
def foldedPoints : List Nat :=
  [0xDF, 0x131, 0x17F, 0xFB00, 0xFB01, 0xFB02, 0xFB03, 0xFB04, 0xFB05, 0xFB06]

theorem toNat_ofNat {point : Nat} (valid : point.isValidChar) :
    (Char.ofNat point).toNat = point := by
  rw [Char.ofNat, dif_pos valid]
  exact UInt32.toNat_ofNatLT

/-- A run of a case mapping that leads into ASCII starts there or is one of the characters. -/
def leavesAscii (run : Nat × Nat × Nat × Nat) : Prop :=
  128 ≤ run.2.2.2 ∧ (run.2.2.2 + (run.2.1 - run.1) < 0xD800 ∨
    0xDFFF < run.2.2.2 ∧ run.2.2.2 + (run.2.1 - run.1) < 0x110000)

instance (run : Nat × Nat × Nat × Nat) : Decidable (leavesAscii run) :=
  inferInstanceAs (Decidable (_ ∧ _))

theorem point_of_mapByRuns {runs : List (Nat × Nat × Nat × Nat)}
    (listed : ∀ run ∈ runs, leavesAscii run ∨ run.2.1 < 128 ∨ run.1 = run.2.1 ∧
      run.1 ∈ foldedPoints)
    (ascii : (mapByRuns runs c).toNat < 128) : c.toNat < 128 ∨ c.toNat ∈ foldedPoints := by
  induction runs with
  | nil => exact .inl ascii
  | cons run runs ih =>
    rcases List.forall_mem_cons.mp listed with ⟨here, later⟩
    rcases run with ⟨first, last, step, target⟩
    rw [mapByRuns] at ascii
    split at ascii
    · exact .inl ascii
    · split at ascii
      next above within =>
        rcases here with ⟨beyond, valid⟩ | below | ⟨single, folded⟩
        · have isValid : (target + (c.toNat - first)).isValidChar := by
            simp only [Nat.isValidChar]
            dsimp only at valid
            omega
          rw [toNat_ofNat isValid] at ascii
          dsimp only at beyond
          omega
        · left
          dsimp only at below
          omega
        · right
          have same : c.toNat = first := by
            dsimp only at single
            omega
          rwa [same]
      next => exact ih later ascii

/-- Only a few characters beyond ASCII have an upper case in ASCII. -/
theorem point_of_upperChar (ascii : ∀ d ∈ upperChar c, d.toNat < 128) :
    c.toNat < 128 ∨ c.toNat ∈ foldedPoints := by
  unfold upperChar at ascii
  split at ascii
  next expansion found =>
    have listed : ∀ entry ∈ upperExpansions, (∀ point ∈ entry.2, (Char.ofNat point).toNat < 128) →
        entry.1 ∈ foldedPoints := by decide +kernel
    exact .inr (listed _ (mem_of_lookupSorted found) (List.forall_mem_map.mp ascii))
  next => exact point_of_mapByRuns (by decide +kernel) (ascii _ (List.mem_singleton_self _))

/-- A character that has a lower case of one character, which stands for the same and serves in
words as its upper case does. -/
def lowersAlike (c : Char) : Bool :=
  c != 'Σ' && !(upperChar c).isEmpty && (lowerChar c).length == 1 && (lowerChar c).all fun d =>
    upperChar d == upperChar c && (Scan.isWordChar d || !(upperChar c).all Scan.isWordChar) &&
      (Scan.isWordStart d || !Scan.headIs Scan.isWordStart (upperChar c))

theorem lowersAlike_of_upperChar (ascii : ∀ d ∈ upperChar c, d.toNat < 128) :
    lowersAlike c = true := by
  rcases point_of_upperChar ascii with inside | folded
  · refine @forall_ascii (fun c => lowersAlike c = true) ?_ c inside
    decide +kernel
  · have listed : ∀ point ∈ foldedPoints, lowersAlike (Char.ofNat point) = true := by decide +kernel
    have holds := listed c.toNat folded
    rwa [Char.ofNat_toNat] at holds

end Text

open Text

namespace Scan

variable {value text : List Char}

theorem Lexeme.eq_value {kind : TokenKind} (lexeme : Lexeme kind value text)
    (plain : quotes? kind = none) : text = value := by
  cases lexeme with
  | quoted quotes => rw [quotes] at plain; cases plain
  | _ => rfl

/-- The text of a word that starts as words do. -/
def isWord (text : List Char) : Bool :=
  headIs isWordStart text && text.all isWordChar

theorem not_isOperatorChar_of_isWordStart (starts : isWordStart c = true) :
    isOperatorChar c = false := by
  cases operates : isOperatorChar c with
  | false => rfl
  | true =>
    have none : ∀ d ∈ ['+', '-', '*', '/', '%', '&', '|', '^', '~', '<', '>', '!'],
        isWordStart d = false :=
      forall_mem_of_all (by decide)
    simp only [isOperatorChar, List.contains_iff_mem] at operates
    rw [none c operates] at starts
    cases starts

theorem lexeme_of_isWord (word : isWord text = true) :
    Lexeme .word text text ∧ takesPoint .word text = false ∧
      headIs isOperatorChar text = false := by
  cases text with
  | nil => cases word
  | cons c tail =>
    simp only [isWord, headIs, List.all_cons, Bool.and_eq_true] at word
    have sign := not_isCurrencySign_of_isWordStart word.1
    exact ⟨.word word.1 word.2.2, by simp [takesPoint, sign],
      not_isOperatorChar_of_isWordStart word.1⟩

/-- What has its upper case in ASCII has it in lower case too, and stays a word. -/
theorem lowerAfter_alike (ascii : ∀ c ∈ upperChars text, c.toNat < 128) (before : List Char) :
    upperChars (lowerAfter before text) = upperChars text ∧
      ((upperChars text).all isWordChar = true → (lowerAfter before text).all isWordChar = true) ∧
      (headIs isWordStart (upperChars text) = true →
        headIs isWordStart (lowerAfter before text) = true) := by
  induction text generalizing before with
  | nil => exact ⟨rfl, fun _ => rfl, fun none => none⟩
  | cons c text ih =>
    rw [upperChars, List.flatMap_cons, ← upperChars, List.forall_mem_append] at ascii
    have alike := lowersAlike_of_upperChar ascii.1
    simp only [lowersAlike, Bool.and_eq_true, Bool.or_eq_true, bne_iff_ne, beq_iff_eq,
      Bool.not_eq_true', List.all_eq_true, List.isEmpty_eq_false_iff] at alike
    rcases alike with ⟨⟨⟨noSigma, written⟩, single⟩, each⟩
    rcases List.length_eq_one_iff.mp single with ⟨d, isLower⟩
    rcases each d (by simp [isLower]) with ⟨⟨same, inWord⟩, atStart⟩
    rcases ih ascii.2 (c :: before) with ⟨sameLater, wordLater, _⟩
    rw [lowerAfter, if_neg noSigma, isLower, List.singleton_append]
    rw [upperChars, upperChars, List.flatMap_cons, List.flatMap_cons, same,
      ← upperChars, ← upperChars]
    refine ⟨by rw [sameLater], ?_, ?_⟩
    · rw [List.all_append, Bool.and_eq_true, List.all_cons, Bool.and_eq_true]
      rintro ⟨here, later⟩
      refine ⟨inWord.resolve_right ?_, wordLater later⟩
      simp [here]
    · intro starts
      refine atStart.resolve_right ?_
      rcases List.exists_cons_of_ne_nil written with ⟨first, others, isUpper⟩
      rw [isUpper] at starts ⊢
      simpa [headIs] using starts

/-- A word of capital letters, digits and underscores that starts with a letter. -/
def isCapital (text : List Char) : Bool :=
  headIs Char.isUpper text && text.all fun c => c.isUpper || c == '_' || isDigit c

theorem isWord_of_isCapital (capital : isCapital text = true) :
    isWord text = true ∧ isWord (text.map Char.toLower) = true ∧ ∀ c ∈ text, c.toNat < 128 ∧
      c.toUpper = c := by
  have ofLetter {c : Char} (letter : c.isUpper = true) : c.toNat < 128 := by
    have below : c.val ≤ 'Z'.val := (of_decide_eq_true letter).2
    rw [UInt32.le_iff_toNat_le] at below
    have bound : 'Z'.val.toNat = 90 := by decide
    have code : c.toNat = c.val.toNat := rfl
    omega
  have start {c : Char} (letter : c.isUpper = true) :
      isWordStart c = true ∧ isWordStart c.toLower = true := by
    refine @forall_ascii (fun c => c.isUpper = true → isWordStart c = true ∧
      isWordStart c.toLower = true)
      ?_ c (ofLetter letter) letter
    decide +kernel
  have each {c : Char} (capital : (c.isUpper || c == '_' || isDigit c) = true) : c.toNat < 128 ∧
      c.toUpper = c ∧ isWordChar c = true ∧ isWordChar c.toLower = true := by
    have ascii : c.toNat < 128 := by
      simp only [Bool.or_eq_true, beq_iff_eq] at capital
      rcases capital with (letter | rfl) | digit
      · exact ofLetter letter
      · decide
      · exact (isDigit_ascii digit).1
    refine ⟨ascii, @forall_ascii (fun c => (c.isUpper || c == '_' || isDigit c) = true →
      c.toUpper = c ∧ isWordChar c = true ∧ isWordChar c.toLower = true) ?_ c ascii capital⟩
    decide +kernel
  rw [isCapital, Bool.and_eq_true, List.all_eq_true] at capital
  rcases capital with ⟨first, capital⟩
  rw [isWord, isWord, Bool.and_eq_true, Bool.and_eq_true, List.all_map, List.all_eq_true,
    List.all_eq_true]
  refine ⟨⟨?_, fun c member => (each (capital c member)).2.2.1⟩,
    ⟨?_, fun c member => (each (capital c member)).2.2.2⟩,
    fun c member => ⟨(each (capital c member)).1, (each (capital c member)).2.1⟩⟩
  · cases text with
    | nil => cases first
    | cons c text => exact (start first).1
  · cases text with
    | nil => cases first
    | cons c text => exact (start first).2

theorem Lexeme.recase_pseudoName (lexeme : Lexeme .pseudoName value text)
    (ascii : ∀ c ∈ value, c.toNat < 128) {recase : Char → Char} (recases : Recases recase) :
    Lexeme .pseudoName (value.map recase) (value.map recase) ∧
      takesPoint .pseudoName (value.map recase) = false := by
  have ofChar : ∀ c : Char, c.toNat < 128 →
      ((isAlphabetic c || c == '_') = true → (isAlphabetic (recase c) || recase c == '_') = true) ∧
        (isWordChar c = true → isWordChar (recase c) = true) ∧
        ((isAlphabetic c || c == '_') = true → isCurrencySign (recase c) = false) := by
    intro c inside
    rcases recases with rfl | rfl
    · refine @forall_ascii (fun c => ((isAlphabetic c || c == '_') = true →
        (isAlphabetic c.toUpper || c.toUpper == '_') = true) ∧
        (isWordChar c = true → isWordChar c.toUpper = true) ∧
        ((isAlphabetic c || c == '_') = true → isCurrencySign c.toUpper = false)) ?_ c inside
      decide +kernel
    · refine @forall_ascii (fun c => ((isAlphabetic c || c == '_') = true →
        (isAlphabetic c.toLower || c.toLower == '_') = true) ∧
        (isWordChar c = true → isWordChar c.toLower = true) ∧
        ((isAlphabetic c || c == '_') = true → isCurrencySign c.toLower = false)) ?_ c inside
      decide +kernel
  have mark : recase '$' = '$' := by rcases recases with rfl | rfl <;> decide
  cases lexeme with
  | mark isMark =>
    unfold punctuation? at isMark
    split at isMark <;> cases isMark
  | quoted quotes => cases quotes
  | @pseudoName c tail starts run =>
    rcases List.forall_mem_cons.mp ascii with ⟨_, ascii⟩
    rcases List.forall_mem_cons.mp ascii with ⟨here, later⟩
    rcases ofChar c here with ⟨isStart, _, noSign⟩
    rw [List.map_cons, List.map_cons, mark]
    refine ⟨.pseudoName (isStart starts) ?_, by simp [takesPoint, noSign starts]⟩
    rw [List.all_map, List.all_eq_true]
    exact fun d member => (ofChar d (later d member)).2.1 (List.all_eq_true.mp run d member)

theorem map_toLower_of_digits {digits : List Char} (all : digits.all isDigit = true) :
    digits.map Char.toLower = digits := by
  refine (List.map_congr_left fun c member => ?_).trans (List.map_id digits)
  exact (isDigit_ascii (List.all_eq_true.mp all c member)).2

theorem ascii_of_digits {digits : List Char} (all : digits.all isDigit = true) :
    ∀ c ∈ digits, c.toNat < 128 :=
  fun c member => (isDigit_ascii (List.all_eq_true.mp all c member)).1

theorem IsFraction.toLower {fraction : List Char} (isFraction : IsFraction fraction) :
    fraction.map Char.toLower = fraction ∧ ∀ c ∈ fraction, c.toNat < 128 := by
  cases isFraction with
  | none => simp
  | point run =>
    rw [List.map_cons, map_toLower_of_digits run]
    exact ⟨rfl, List.forall_mem_cons.mpr ⟨by decide, ascii_of_digits run⟩⟩

theorem IsExponent.toLower {exponent : List Char} (isExponent : IsExponent exponent) :
    IsExponent (exponent.map Char.toLower) ∧ ∀ c ∈ exponent, c.toNat < 128 := by
  have ofMark : ∀ {mark : Char}, (mark == 'e' || mark == 'E') = true →
      mark.toLower = 'e' ∧ mark.toNat < 128 := by
    intro mark marks
    simp only [Bool.or_eq_true, beq_iff_eq] at marks
    rcases marks with rfl | rfl <;> decide
  cases isExponent with
  | none => exact ⟨.none, by simp⟩
  | unsigned marks run =>
    rw [List.map_cons, (ofMark marks).1, map_toLower_of_digits run]
    exact ⟨.unsigned rfl run, List.forall_mem_cons.mpr ⟨(ofMark marks).2, ascii_of_digits run⟩⟩
  | @signed mark sign digit digits marks signs run =>
    have ofSign : sign.toLower = sign ∧ sign.toNat < 128 := by
      simp only [Bool.or_eq_true, beq_iff_eq] at signs
      rcases signs with rfl | rfl <;> decide
    rw [List.map_cons, List.map_cons, (ofMark marks).1, ofSign.1, map_toLower_of_digits run]
    exact ⟨.signed rfl signs run, List.forall_mem_cons.mpr ⟨(ofMark marks).2,
      List.forall_mem_cons.mpr ⟨ofSign.2, ascii_of_digits run⟩⟩⟩

theorem Lexeme.lower_number (lexeme : Lexeme .number value text) :
    Lexeme .number (lower (String.ofList value)).toList (lower (String.ofList value)).toList ∧
      upper (lower (String.ofList value)) = upper (String.ofList value) ∧
      headIs isDigit (lower (String.ofList value)).toList = headIs isDigit value := by
  cases lexeme with
  | mark isMark =>
    unfold punctuation? at isMark
    split at isMark <;> cases isMark
  | quoted quotes => cases quotes
  | @number whole fraction exponent digits isFraction isExponent starts =>
    have ascii : ∀ c ∈ whole ++ (fraction ++ exponent), c.toNat < 128 :=
      List.forall_mem_append.mpr ⟨ascii_of_digits digits,
        List.forall_mem_append.mpr ⟨isFraction.toLower.2, isExponent.toLower.2⟩⟩
    have head : headIs isDigit ((whole ++ (fraction ++ exponent)).map Char.toLower) =
        headIs isDigit (whole ++ (fraction ++ exponent)) := by
      revert ascii
      cases whole ++ (fraction ++ exponent) with
      | nil => exact fun _ => rfl
      | cons c tail =>
        intro ascii
        refine @forall_ascii (fun c => isDigit c.toLower = isDigit c) ?_ c
          (ascii c List.mem_cons_self)
        decide +kernel
    rw [lower_of_ascii ascii, upper_recase_of_ascii (.inr rfl) ascii, String.toList_ofList, head,
      List.map_append, List.map_append, map_toLower_of_digits digits, isFraction.toLower.1]
    exact ⟨.number digits isFraction isExponent.toLower.1 starts, rfl, rfl⟩

theorem Lexeme.upper_binary (lexeme : Lexeme .binaryValue value text) :
    ∃ digits : List Char, Span.dropBytes 2 value = some digits ∧
      Lexeme .binaryValue ('0' :: 'x' :: digits.map Char.toUpper)
        ('0' :: 'x' :: digits.map Char.toUpper) ∧
      upper (String.ofList digits) = String.ofList (digits.map Char.toUpper) ∧
      upper (String.ofList ('0' :: 'x' :: digits.map Char.toUpper)) = upper (String.ofList value) ∧
      headIs isDigit value = true := by
  cases lexeme with
  | mark isMark =>
    unfold punctuation? at isMark
    split at isMark <;> cases isMark
  | quoted quotes => cases quotes
  | @binary mark digits marks run =>
    have each : ∀ c ∈ digits, c.toNat < 128 ∧ isHexDigit c.toUpper = true :=
      fun c member => isHexDigit_ascii (List.all_eq_true.mp run c member)
    have ascii : ∀ c ∈ digits, c.toNat < 128 := fun c member => (each c member).1
    have ofMark : mark.toNat < 128 ∧ mark.toUpper = 'X' ∧ mark.utf8Size = 1 := by
      rcases marks with rfl | rfl <;> decide
    have whole : ∀ c ∈ '0' :: mark :: digits, c.toNat < 128 :=
      List.forall_mem_cons.mpr ⟨by decide, List.forall_mem_cons.mpr ⟨ofMark.1, ascii⟩⟩
    have printed : ∀ c ∈ '0' :: 'x' :: digits.map Char.toUpper, c.toNat < 128 := by
      refine List.forall_mem_cons.mpr ⟨by decide, List.forall_mem_cons.mpr ⟨by decide, ?_⟩⟩
      exact List.forall_mem_map.mpr fun c member => (toUpper_of_ascii (ascii c member)).2.2.1
    refine ⟨digits, ?_, .binary (.inl rfl) ?_, upper_of_ascii ascii, ?_, rfl⟩
    · rw [Span.dropBytes, if_pos (by decide), show 1 + 1 - Char.utf8Size '0' = 1 from
        rfl, Span.dropBytes, ofMark.2.2, if_pos (by decide), Span.dropBytes]
    · rw [List.all_map]
      exact List.all_eq_true.mpr fun c member => (each c member).2
    · rw [upper_of_ascii printed, upper_of_ascii whole, List.map_cons, List.map_cons, List.map_cons,
        List.map_cons, ofMark.2.1, List.map_map]
      refine congrArg (fun tail => String.ofList (Char.toUpper '0' :: 'X' :: tail)) ?_
      exact List.map_congr_left fun c member => (toUpper_of_ascii (ascii c member)).1

theorem Lexeme.caseless_operator (lexeme : Lexeme .otherOperator value text) :
    ∀ c ∈ value, c.toNat < 128 ∧ c.toUpper = c ∧ c.toLower = c := by
  have ofChar : ∀ c : Char, isOperatorChar c = true → c.toNat < 128 ∧ c.toUpper = c ∧
      c.toLower = c := by
    intro c operates
    simp only [isOperatorChar, List.contains_eq_mem, decide_eq_true_eq] at operates
    revert c
    exact forall_mem_of_all (by decide)
  cases lexeme with
  | mark isMark =>
    unfold punctuation? at isMark
    split at isMark <;> cases isMark
  | quoted quotes => cases quotes
  | operator operates => simpa using ofChar _ operates
  | @combined c d operates joined =>
    have among : d ∈ ['=', '<', '>'] := by
      unfold combines at joined
      split at joined <;> grind
    refine List.forall_mem_cons.mpr ⟨ofChar c operates, List.forall_mem_singleton.mpr ?_⟩
    simp only [List.mem_cons, List.not_mem_nil, or_false] at among
    rcases among with rfl | rfl | rfl <;> decide

end Scan

namespace Keyword

def reserved : List String :=
  compounds.flatten ++ (Phrase.joinWords ++ (operators ++ (dataTypes ++ others)))

theorem mem_reserved_of_isReserved {word : String} (isReserved : Keyword.isReserved word = true) :
    word ∈ reserved := by
  have ofClass : [some .operator, some .dataType, some .other].contains (class? word) = true →
      word ∈ operators ++ (dataTypes ++ others) := by
    unfold class?
    repeat' split
    all_goals simp_all
  simp only [Keyword.isReserved, Bool.or_eq_true, List.contains_iff_mem] at isReserved
  rcases isReserved with (compound | join) | known
  · exact List.mem_append_left _ compound
  · exact List.mem_append_right _ (List.mem_append_left _ join)
  · exact List.mem_append_right _
      (List.mem_append_right _ (ofClass (List.contains_iff_mem.mpr known)))

/-- A reserved word stays the same word in upper and in lower case. -/
theorem isWord_of_isReserved {value : String}
    (isReserved : Keyword.isReserved (upper value) = true) :
    ∀ text ∈ [upper value, lower value], Scan.isWord text.toList = true ∧
      upper text = upper value := by
  have listed : ∀ word ∈ reserved, Scan.isCapital word.toList = true := by decide +kernel
  have capital := listed _ (mem_reserved_of_isReserved isReserved)
  rw [upper, String.toList_ofList] at capital
  rcases Scan.isWord_of_isCapital capital with ⟨word, _, each⟩
  have ascii : ∀ c ∈ upperChars value.toList, c.toNat < 128 := fun c member => (each c member).1
  rcases Scan.lowerAfter_alike ascii [] with ⟨sameLower, inWord, atStart⟩
  intro text member
  rcases List.mem_pair.mp member with rfl | rfl
  · refine ⟨by rwa [upper, String.toList_ofList], ?_⟩
    change upper (String.ofList (upperChars value.toList)) = String.ofList (upperChars value.toList)
    rw [upper_of_ascii ascii]
    exact congrArg _ ((List.map_congr_left fun c member => (each c member).2).trans (List.map_id _))
  · rw [lower, String.toList_ofList, upper, String.toList_ofList, sameLower]
    rw [Scan.isWord, Bool.and_eq_true] at word ⊢
    exact ⟨⟨atStart word.1, inWord word.2⟩, rfl⟩

end Keyword

end SqlLayout
