import SqlLayout.Keyword.Phrase
import SqlLayout.Proofs.Draft.Nesting

/-!
# Places of a phrase

The words of a phrase lie at increasing places of the token list, and up to each of them the list
holds only words, bracketed names, commas, blanks and comments. Where a keyword of several words is
recognized there are only words, and the text of the keyword is theirs.
-/

namespace SqlLayout

variable {token : Token}

/-- Whether a token can stand inside a phrase. -/
def Token.continuesPhrase (token : Token) : Bool :=
  match token.kind with
  | .word | .bracketName | .comma => true
  | kind => kind.isTrivia

namespace Phrase

/-- The tokens up to a place of a phrase continue the phrase, and the one there is no blank or
comment. -/
structure Covers (tokens : List Token) (place : Nat) : Prop where
  continues : ∀ token ∈ tokens.take (place + 1), token.continuesPhrase = true
  content : ∃ token, tokens[place]? = some token ∧ token.kind.isTrivia = false

theorem partOf_word {text : String} (isWord : partOf token = .word text) :
    token.continuesPhrase = true ∧ token.kind.isTrivia = false := by
  obtain ⟨kind, value, span⟩ := token
  cases kind <;> simp_all [partOf, Token.continuesPhrase, TokenKind.isTrivia, TokenKind.isComment]

theorem partOf_skipped (isSkipped : partOf token = .skipped) : token.continuesPhrase = true := by
  obtain ⟨kind, value, span⟩ := token
  cases kind <;> simp_all [partOf, Token.continuesPhrase, TokenKind.isTrivia, TokenKind.isComment]

theorem Covers.cons {token : Token} {rest : List Token} {place : Nat} (covers : Covers rest place)
    (continues : token.continuesPhrase = true) : Covers (token :: rest) (place + 1) where
  continues := by
    rw [List.take_succ_cons]
    exact List.forall_mem_cons.mpr ⟨continues, covers.continues⟩
  content := by simpa using covers.content

theorem covers_of_mem_collect {start bound : Nat} {tokens : List Token} {word : PhraseWord}
    (member : word ∈ collect start bound tokens) :
    ∃ place, word.place = start + place ∧ Covers tokens place := by
  fun_induction collect start bound tokens with
  | case1 => simp at member
  | case2 => simp at member
  | case3 start bound token rest text isWord ih =>
    obtain ⟨continues, content⟩ := partOf_word isWord
    rcases List.mem_cons.mp member with rfl | later
    · exact ⟨0, rfl, by simpa using continues, token, rfl, content⟩
    · obtain ⟨place, found, covers⟩ := ih later
      exact ⟨place + 1, by omega, covers.cons continues⟩
  | case4 start bound token rest isSkipped ih =>
    obtain ⟨place, found, covers⟩ := ih member
    exact ⟨place + 1, by omega, covers.cons (partOf_skipped isSkipped)⟩
  | case5 => simp at member

theorem collect_increasing (start bound : Nat) (tokens : List Token) :
    (collect start bound tokens).Pairwise fun first second => first.place < second.place := by
  fun_induction collect start bound tokens with
  | case1 => simp
  | case2 => simp
  | case3 start bound token rest text isWord ih =>
    refine List.pairwise_cons.mpr ⟨fun word member => ?_, ih⟩
    obtain ⟨place, found, _⟩ := covers_of_mem_collect member
    simp only at found ⊢
    omega
  | case4 start bound token rest isSkipped ih => exact ih
  | case5 => simp

variable {tokens : List Token} {count last : Nat}

theorem covers_of_lastPlace? (found : (ofTokens tokens).lastPlace? count = some last) :
    Covers tokens last := by
  cases count with
  | zero => simp [lastPlace?] at found
  | succ index =>
    obtain ⟨word, isWord, rfl⟩ := Option.map_eq_some_iff.mp found
    obtain ⟨place, atPlace, covers⟩ := covers_of_mem_collect (List.mem_of_getElem? isWord)
    rwa [atPlace, Nat.zero_add]

theorem lastPlace?_mono {more further : Nat} (le : count ≤ more)
    (found : (ofTokens tokens).lastPlace? count = some last)
    (foundMore : (ofTokens tokens).lastPlace? more = some further) : last ≤ further := by
  cases count with
  | zero => simp [lastPlace?] at found
  | succ index =>
    cases more with
    | zero => simp [lastPlace?] at foundMore
    | succ other =>
      obtain ⟨word, isWord, rfl⟩ := Option.map_eq_some_iff.mp found
      obtain ⟨otherWord, isOther, rfl⟩ := Option.map_eq_some_iff.mp foundMore
      rcases Nat.lt_or_eq_of_le (Nat.succ_le_succ_iff.mp le) with lt | rfl
      · have increasing := collect_increasing 0 maxLength tokens
        obtain ⟨inside, rfl⟩ := List.getElem?_eq_some_iff.mp isWord
        obtain ⟨otherInside, rfl⟩ := List.getElem?_eq_some_iff.mp isOther
        exact Nat.le_of_lt (List.pairwise_iff_getElem.mp increasing _ _ inside otherInside lt)
      · rw [isWord] at isOther
        exact Nat.le_of_eq (congrArg PhraseWord.place (Option.some_inj.mp isOther))

/-! ### The words of a keyword -/

def wordText? (token : Token) : Option String :=
  match partOf token with
  | .word text => some text
  | _ => none

/-- Up to a word of a phrase the list holds the words before it. -/
theorem collect_words {start bound index place : Nat} {tokens : List Token} {word : PhraseWord}
    (found : (collect start bound tokens)[index]? = some word) (here : word.place = start + place) :
    (tokens.take (place + 1)).filterMap wordText? =
      ((collect start bound tokens).take (index + 1)).map PhraseWord.text := by
  fun_induction collect start bound tokens generalizing index place with
  | case1 => simp at found
  | case2 => simp at found
  | case3 start bound token rest text isWord ih =>
    have own : wordText? token = some text := by rw [wordText?, isWord]
    rw [List.take_succ_cons, List.filterMap_cons_some own, List.take_succ_cons, List.map_cons]
    cases index with
    | zero =>
      obtain rfl : place = 0 := by
        simp only [List.getElem?_cons_zero, Option.some.injEq] at found
        rw [← found] at here
        dsimp only at here
        omega
      simp
    | succ index =>
      rw [List.getElem?_cons_succ] at found
      rcases covers_of_mem_collect (List.mem_of_getElem? found) with ⟨before, isBefore, _⟩
      obtain rfl : place = before + 1 := by omega
      rw [ih found isBefore]
  | case4 start bound token rest isSkipped ih =>
    have own : wordText? token = none := by rw [wordText?, isSkipped]
    rcases covers_of_mem_collect (List.mem_of_getElem? found) with ⟨before, isBefore, _⟩
    obtain rfl : place = before + 1 := by omega
    rw [List.take_succ_cons, List.filterMap_cons_none own, ih found isBefore]
  | case5 => simp at found

end Phrase

/-- A word in which a blank can only stand between brackets. -/
def PhraseWord.Unbroken (word : PhraseWord) : Prop :=
  word.text.toList.head? = some '[' ∨ ' ' ∉ word.text.toList

namespace Phrase

variable {phrase : Phrase} {count : Nat} {holds : String → Bool} {last : Nat}

/-- The first words of a phrase are plain keywords, as far as blanks do not deceive. -/
def Exact (phrase : Phrase) (count : Nat) : Prop :=
  (∀ word ∈ phrase.words.take count, word.Unbroken) →
    ∀ word ∈ phrase.words.take count, Keyword.isPlain word.text = true

/-- A property of all words of a sequence is one of the words that a phrase begins with. -/
theorem forall_of_startsWith {sequence : List String} (starts : phrase.startsWith sequence = true)
    (all : ∀ word ∈ sequence, holds word = true) :
    ∀ word ∈ phrase.words.take sequence.length, holds word.text = true := by
  intro word member
  have same : (phrase.words.take sequence.length).map PhraseWord.text = sequence := by
    rw [List.map_take]
    exact (List.prefix_iff_eq_take.mp (List.isPrefixOf_iff_prefix.mp starts)).symm
  apply all
  rw [← same]
  exact List.mem_map_of_mem member

theorem forall_of_compoundLength? (found : phrase.compoundLength? = some count)
    (all : ∀ sequence ∈ Keyword.compounds, ∀ word ∈ sequence, holds word = true) :
    ∀ word ∈ phrase.words.take count, holds word.text = true := by
  rcases Option.map_eq_some_iff.mp found with ⟨sequence, isFirst, rfl⟩
  exact forall_of_startsWith (List.find?_some isFirst)
    (all sequence (List.mem_of_find?_eq_some isFirst))

theorem forall_of_word (first : holds (phrase.word 0) = true)
    (second : holds (phrase.word 1) = true) :
    ∀ word ∈ phrase.words.take 2, holds word.text = true := by
  intro word member
  rcases List.mem_iff_getElem?.mp member with ⟨index, here⟩
  rw [List.getElem?_take] at here
  split at here
  next small =>
    have text : phrase.word index = word.text := by rw [Phrase.word, here]
    rw [← text]
    rcases (show index = 0 ∨ index = 1 by omega) with rfl | rfl
    · exact first
    · exact second
  · cases here

theorem exact_of_startsWith {sequence : List String} (starts : phrase.startsWith sequence = true)
    (plain : ∀ word ∈ sequence, Keyword.isPlain word = true) : phrase.Exact sequence.length :=
  fun _ => forall_of_startsWith starts plain

theorem exact_of_compoundLength? (found : phrase.compoundLength? = some count) :
    phrase.Exact count :=
  fun _ => forall_of_compoundLength? found (by decide)

theorem exact_of_word (first : Keyword.isPlain (phrase.word 0) = true)
    (second : Keyword.isPlain (phrase.word 1) = true) : phrase.Exact 2 :=
  fun _ => forall_of_word first second

/-! ### Patterns on the text of a phrase -/


theorem append_blank_inj {front other back rest : List Char} (here : ' ' ∉ front)
    (there : ' ' ∉ other) (same : front ++ ' ' :: back = other ++ ' ' :: rest) :
    front = other ∧ back = rest := by
  induction front generalizing other with
  | nil =>
    cases other with
    | nil => exact ⟨rfl, (List.cons.inj same).2⟩
    | cons c other => exact absurd ((List.cons.inj same).1 ▸ List.mem_cons_self) there
  | cons c front ih =>
    cases other with
    | nil => exact absurd ((List.cons.inj same).1 ▸ List.mem_cons_self) here
    | cons d other =>
      rcases List.cons.inj same with ⟨rfl, tails⟩
      rcases ih (fun inside => here (.tail _ inside)) (fun inside => there (.tail _ inside)) tails
        with ⟨rfl, rfl⟩
      exact ⟨rfl, rfl⟩

def textOf (words : List PhraseWord) : List Char :=
  words.flatMap fun word => word.text.toList ++ [' ']

/-- A word that can be looked for in the text: it has no blank in it and is no bracketed name. -/
def isPattern (word : String) : Bool :=
  word.toList.head?.any (· != '[') && !word.toList.contains ' '

theorem dropWord?_textOf {pattern : String} (sought : isPattern pattern = true)
    {words : List PhraseWord} {rest : List Char}
    (found : dropWord? pattern (textOf words) = some rest)
    (unbroken : ∀ word ∈ words.head?, word.Unbroken) :
    ∃ word more, words = word :: more ∧ word.text = pattern ∧ rest = textOf more := by
  simp only [isPattern, Bool.and_eq_true, Bool.not_eq_true', List.contains_eq_mem,
    decide_eq_false_iff_not]
    at sought
  obtain ⟨named, noBlank⟩ := sought
  simp only [dropWord?, Option.ite_none_right_eq_some, Option.some.injEq,
    List.isPrefixOf_iff_prefix]
    at found
  rcases found with ⟨⟨tail, whole⟩, rfl⟩
  rw [← whole, List.drop_left]
  cases words with
  | nil => simp [textOf] at whole
  | cons word more =>
    have same : pattern.toList ++ ' ' :: tail = word.text.toList ++ ' ' :: textOf more := by
      simpa [textOf] using whole
    rcases unbroken word rfl with bracket | spaceless
    · rcases List.head?_eq_some_iff.mp bracket with ⟨name, isName⟩
      cases cut : pattern.toList with
      | nil => simp [cut] at named
      | cons c letters =>
        rw [cut, isName, List.cons_append, List.cons_append, List.cons.injEq] at same
        simp [cut, same.1] at named
    · rcases append_blank_inj noBlank spaceless same with ⟨letters, rfl⟩
      exact ⟨word, more, rfl, String.toList_inj.mp letters.symm, rfl⟩

/-- A number of words of a vocabulary was matched, and the text of the others is left. -/
structure Matched (phrase : Phrase) (vocabulary : List String) (state : Nat × List Char) :
    Prop where
  known : ∀ word ∈ phrase.words.take state.1, word.text ∈ vocabulary
  rest : state.2 = textOf (phrase.words.drop state.1)

namespace Matched

variable {vocabulary : List String} {state : Nat × List Char} {patterns : List String}
  {rest : List Char}

theorem start (phrase : Phrase) (vocabulary : List String) :
    phrase.Matched vocabulary (0, phrase.text) :=
  ⟨by simp, rfl⟩

theorem word (matched : phrase.Matched vocabulary state) {pattern : String}
    (sought : isPattern pattern = true) (isKnown : pattern ∈ vocabulary)
    (found : dropWord? pattern state.2 = some rest)
    (unbroken : ∀ word ∈ phrase.words.take (state.1 + 1), word.Unbroken) :
    phrase.Matched vocabulary (state.1 + 1, rest) := by
  rw [matched.rest] at found
  have first : ∀ word ∈ (phrase.words.drop state.1).head?,
      word ∈ phrase.words.take (state.1 + 1) := by
    intro word here
    rw [List.head?_drop] at here
    rw [List.take_add_one, here]
    simp
  rcases dropWord?_textOf sought found fun word here => unbroken word (first word here) with
    ⟨word, more, cut, rfl, rfl⟩
  have next : phrase.words[state.1]? = some word := by
    rw [← List.head?_drop, cut]
    rfl
  refine ⟨?_, ?_⟩
  · intro other member
    rw [List.take_add_one, next] at member
    rcases List.mem_append.mp member with before | here
    · exact matched.known other before
    · obtain rfl : other = word := by simpa using here
      exact isKnown
  · rw [← List.drop_drop, cut]
    rfl

theorem next (matched : phrase.Matched vocabulary state)
    (sought : ∀ word ∈ patterns, isPattern word = true) (areKnown : patterns ⊆ vocabulary)
    (found : dropOneOf? patterns state.2 = some rest)
    (unbroken : ∀ word ∈ phrase.words.take (state.1 + 1), word.Unbroken) :
    phrase.Matched vocabulary (state.1 + 1, rest) := by
  rcases List.exists_of_findSome?_eq_some found with ⟨pattern, member, found⟩
  exact matched.word (sought pattern member) (areKnown member) found unbroken

theorem skip (matched : phrase.Matched vocabulary state)
    (sought : ∀ word ∈ patterns, isPattern word = true) (areKnown : patterns ⊆ vocabulary)
    (unbroken : ∀ word ∈ phrase.words.take (skipOneOf patterns state).1, word.Unbroken) :
    phrase.Matched vocabulary (skipOneOf patterns state) := by
  unfold skipOneOf at unbroken ⊢
  cases found : dropOneOf? patterns state.2 with
  | some rest =>
    simp only [found] at unbroken
    exact matched.next sought areKnown found unbroken
  | none => exact matched

end Matched

theorem le_skipOneOf (patterns : List String) (state : Nat × List Char) :
    state.1 ≤ (skipOneOf patterns state).1 := by
  unfold skipOneOf
  split <;> simp

def joinWords : List String := [
  "RIGHT", "INNER", "LEFT", "CROSS", "FULL", "OUTER", "HASH", "LOOP", "MERGE", "REMOTE",
  "JOIN", "APPLY"]

theorem joinLength?_pos (found : phrase.joinLength? = some count) : 0 < count := by
  obtain ⟨_, _, rfl⟩ := Option.map_eq_some_iff.mp found
  exact Nat.succ_pos _

theorem words_of_joinLength? (found : phrase.joinLength? = some count)
    (unbroken : ∀ word ∈ phrase.words.take count, word.Unbroken) :
    ∀ word ∈ phrase.words.take count, word.text ∈ joinWords := by
  unfold joinLength? at found
  extract_lets side outer hint at found
  rcases Option.map_eq_some_iff.mp found with ⟨rest, isJoin, rfl⟩
  have sideOuter : side.1 ≤ outer.1 := le_skipOneOf ..
  have outerHint : outer.1 ≤ hint.1 := le_skipOneOf ..
  have upTo : ∀ {fewer}, fewer ≤ hint.1 + 1 → ∀ word ∈ phrase.words.take fewer, word.Unbroken :=
    fun le word member => unbroken word ((List.take_prefix_take_left le).subset member)
  have isSide : phrase.Matched joinWords side :=
    (Matched.start phrase joinWords).skip (by decide) (by decide)
      (upTo (Nat.le_succ_of_le (sideOuter.trans outerHint)))
  have isOuter : phrase.Matched joinWords outer :=
    isSide.skip (by decide) (by decide) (upTo (Nat.le_succ_of_le outerHint))
  have isHint : phrase.Matched joinWords hint :=
    isOuter.skip (by decide) (by decide) (upTo (Nat.le_succ _))
  exact (isHint.next (by decide) (by decide) isJoin unbroken).known

theorem exact_of_joinLength? (found : phrase.joinLength? = some count) : phrase.Exact count := by
  intro unbroken word member
  exact (by decide : ∀ word ∈ joinWords, Keyword.isPlain word = true) _
    (words_of_joinLength? found unbroken word member)

def triggerWords : List String :=
  ["FOR", "AFTER", "INSTEAD", "OF", ","] ++ triggerActions

theorem Matched.furtherAction {state : Nat × List Char}
    (matched : phrase.Matched triggerWords state)
    (unbroken : ∀ word ∈ phrase.words, word.Unbroken) :
    phrase.Matched triggerWords (skipFurtherAction state) := by
  have upTo : ∀ {fewer}, ∀ word ∈ phrase.words.take fewer, word.Unbroken :=
    fun word member => unbroken word (List.mem_of_mem_take member)
  unfold skipFurtherAction
  split
  next rest found =>
    obtain ⟨middle, isComma, isAction⟩ := Option.bind_eq_some_iff.mp found
    exact (matched.word (by decide) (by decide) isComma upTo).next
      (by decide) (by decide) isAction upTo
  next => exact matched

theorem le_skipFurtherAction (state : Nat × List Char) : state.1 ≤ (skipFurtherAction state).1 := by
  unfold skipFurtherAction
  split <;> simp

theorem triggerLength?_pos (found : phrase.triggerLength? = some count) : 0 < count := by
  unfold triggerLength? at found
  extract_lets timing at found
  obtain ⟨⟨words, rest⟩, _, found⟩ := Option.bind_eq_some_iff.mp found
  obtain ⟨after, _, rfl⟩ := Option.map_eq_some_iff.mp found
  exact Nat.lt_of_lt_of_le (Nat.succ_pos words)
    ((le_skipFurtherAction (words + 1, after)).trans (le_skipFurtherAction _))

theorem words_of_triggerLength? (found : phrase.triggerLength? = some count)
    (unbroken : ∀ word ∈ phrase.words, word.Unbroken) :
    ∀ word ∈ phrase.words.take count, word.text ∈ triggerWords := by
  have upTo : ∀ {fewer}, ∀ word ∈ phrase.words.take fewer, word.Unbroken :=
    fun word member => unbroken word (List.mem_of_mem_take member)
  have start := Matched.start phrase triggerWords
  unfold triggerLength? at found
  extract_lets timing at found
  obtain ⟨⟨words, rest⟩, isTiming, found⟩ := Option.bind_eq_some_iff.mp found
  obtain ⟨after, isAction, rfl⟩ := Option.map_eq_some_iff.mp found
  have timed : phrase.Matched triggerWords (words, rest) := by
    unfold timing at isTiming
    split at isTiming
    next behind isFirst =>
      obtain ⟨rfl, rfl⟩ := Prod.mk.inj (Option.some.inj isTiming)
      exact start.next (by decide) (by decide) isFirst upTo
    next =>
      obtain ⟨behind, isInstead, isTiming⟩ := Option.map_eq_some_iff.mp isTiming
      obtain ⟨middle, isFirst, isSecond⟩ := Option.bind_eq_some_iff.mp isInstead
      obtain ⟨rfl, rfl⟩ := Prod.mk.inj isTiming
      exact (start.word (by decide) (by decide) isFirst upTo).word
        (by decide) (by decide) isSecond upTo
  have acted := timed.next (by decide) (by decide) isAction upTo
  exact ((acted.furtherAction unbroken).furtherAction unbroken).known

theorem word_of_triggerLength? (found : phrase.triggerLength?.isSome = true)
    (instead : phrase.word 0 = "INSTEAD") (unbroken : ∀ word ∈ phrase.words.take 2, word.Unbroken) :
    phrase.word 1 = "OF" := by
  rcases phrase with ⟨words⟩
  cases words with
  | nil => exact absurd instead (by decide)
  | cons first more =>
    have isFirst : first.text = "INSTEAD" := instead
    have text : Phrase.text ⟨first :: more⟩ = "INSTEAD".toList ++ ' ' :: textOf more := by
      simp [Phrase.text, textOf, isFirst]
    have noOther : dropOneOf? ["FOR", "AFTER"] ("INSTEAD".toList ++ ' ' :: textOf more) = none :=
      rfl
    have drop : dropWord? "INSTEAD" ("INSTEAD".toList ++ ' ' :: textOf more) =
        some (textOf more) := by
      simp [dropWord?]
    simp only [triggerLength?, text, noOther, drop, Option.bind_some] at found
    cases isOf : dropWord? "OF" (textOf more) with
    | none =>
      rw [isOf] at found
      cases found
    | some rest =>
      have second : ∀ word ∈ more.head?, word.Unbroken := by
        intro word here
        apply unbroken
        rcases List.head?_eq_some_iff.mp here with ⟨others, rfl⟩
        simp
      rcases dropWord?_textOf (by decide) isOf second with ⟨word, others, rfl, isOf, _⟩
      exact isOf

theorem exact_of_triggerLength? (found : phrase.triggerLength?.isSome = true)
    (instead : phrase.word 0 = "INSTEAD") : phrase.Exact 2 := by
  intro unbroken
  refine exact_of_word ?_ ?_ unbroken
  · rw [instead]
    decide
  · rw [word_of_triggerLength? found instead unbroken]
    decide

theorem word_of_isProceduralDefinition (defines : phrase.isProceduralDefinition = true) :
    phrase.word 0 = "CREATE" ∨ phrase.word 0 = "ALTER" := by
  unfold isProceduralDefinition at defines
  extract_lets objects at defines
  split at defines
  next creates =>
    simp only [Bool.and_eq_true, beq_iff_eq] at creates
    exact .inl creates.1.1
  next =>
    simp only [Bool.and_eq_true, Bool.or_eq_true, beq_iff_eq] at defines
    exact defines.1

theorem word_of_declaresCursor (declares : phrase.declaresCursor = true)
    (unbroken : ∀ word ∈ phrase.words, word.Unbroken) : phrase.word 0 = "DECLARE" := by
  unfold declaresCursor at declares
  split at declares
  next => cases declares
  next rest found =>
    change dropWord? "DECLARE" (textOf phrase.words) = some rest at found
    obtain ⟨first, more, words, isFirst, _⟩ := dropWord?_textOf (by decide) found
      fun word here => unbroken word (List.mem_of_mem_head? here)
    rw [Phrase.word, words]
    exact isFirst

/-! ### Keywords cover words only -/

theorem wordText?_cases (continues : token.continuesPhrase = true)
    (content : token.kind.isTrivia = false) :
    (token.kind = .word ∧ wordText? token = some (Text.upper token.value)) ∨
      (∃ text, wordText? token = some text ∧ text.toList.head? = some '[') ∨
      wordText? token = some "," := by
  rcases token with ⟨kind, value, span⟩
  cases kind <;>
    simp_all [Token.continuesPhrase, wordText?, partOf, TokenKind.isTrivia, TokenKind.isComment]

theorem wordText?_of_isTrivia (isTrivia : token.kind.isTrivia = true) : wordText? token = none := by
  rcases token with ⟨kind, value, span⟩
  cases kind <;> simp_all [wordText?, partOf, TokenKind.isTrivia, TokenKind.isComment]

theorem unbroken_of_wordText? {word : PhraseWord} (isText : wordText? token = some word.text)
    (spaceless : token.kind = .word → ' ' ∉ (Text.upper token.value).toList) : word.Unbroken := by
  have continues : token.continuesPhrase = true ∧ token.kind.isTrivia = false := by
    rw [wordText?] at isText
    split at isText
    next isWord => exact partOf_word isWord
    next => cases isText
  rcases wordText?_cases continues.1 continues.2 with
    ⟨isWord, text⟩ | ⟨text, isBracket, bracket⟩ | text
  · rw [text, Option.some.injEq] at isText
    exact .inr (isText ▸ spaceless isWord)
  · rw [isBracket, Option.some.injEq] at isText
    exact .inl (isText ▸ bracket)
  · rw [text, Option.some.injEq] at isText
    exact .inr (isText ▸ by decide)

theorem exists_of_mem_collect {start bound : Nat} {tokens : List Token} {word : PhraseWord}
    (member : word ∈ collect start bound tokens) :
    ∃ token ∈ tokens, wordText? token = some word.text := by
  fun_induction collect start bound tokens with
  | case1 => cases member
  | case2 => cases member
  | case3 start bound token rest text isWord ih =>
    rcases List.mem_cons.mp member with rfl | later
    · exact ⟨token, .head _, by rw [wordText?, isWord]⟩
    · obtain ⟨other, inside, isText⟩ := ih later
      exact ⟨other, .tail _ inside, isText⟩
  | case4 start bound token rest _ ih =>
    obtain ⟨other, inside, isText⟩ := ih member
    exact ⟨other, .tail _ inside, isText⟩
  | case5 => cases member

theorem unbroken_ofTokens (spaceless : ∀ token ∈ tokens, token.kind = .word →
    ' ' ∉ (Text.upper token.value).toList) : ∀ word ∈ (ofTokens tokens).words, word.Unbroken := by
  intro word member
  obtain ⟨token, inside, isText⟩ := exists_of_mem_collect member
  exact unbroken_of_wordText? isText (spaceless token inside)

/-- Up to the last of its first words, a phrase has the words of the tokens. -/
theorem texts_of_lastPlace? (found : (ofTokens tokens).lastPlace? count = some last) :
    (tokens.take (last + 1)).filterMap wordText? =
      ((ofTokens tokens).words.take count).map PhraseWord.text := by
  cases count with
  | zero => cases found
  | succ index =>
    rcases Option.map_eq_some_iff.mp found with ⟨word, isWord, here⟩
    exact collect_words isWord (by omega)

theorem forall_of_lastPlace? (found : (ofTokens tokens).lastPlace? count = some last)
    (all : ∀ word ∈ (ofTokens tokens).words.take count, holds word.text = true) :
    ∀ token ∈ tokens.take (last + 1), token.kind = .word →
      holds (Text.upper token.value) = true := by
  intro token inside isWord
  have among : Text.upper token.value ∈ (tokens.take (last + 1)).filterMap wordText? :=
    List.mem_filterMap.mpr ⟨token, inside, by simp [wordText?, partOf, isWord]⟩
  rw [texts_of_lastPlace? found] at among
  rcases List.mem_map.mp among with ⟨word, member, same⟩
  exact same ▸ all word member

/-- The tokens of a keyword of several words are words, and its text is theirs. -/
theorem Exact.words (exact : (ofTokens tokens).Exact count)
    (found : (ofTokens tokens).lastPlace? count = some last)
    (spaceless : ∀ token ∈ tokens.take (last + 1), token.kind = .word →
      ' ' ∉ (Text.upper token.value).toList) :
    (∀ token ∈ tokens.take (last + 1), token.kind.isTrivia = false →
        token.kind = .word ∧ Keyword.isPlain (Text.upper token.value) = true) ∧
      (ofTokens tokens).joined count = " ".intercalate
        (((tokens.take (last + 1)).filter fun token => !token.kind.isTrivia).map
          fun token => Text.upper token.value) := by
  have covers := covers_of_lastPlace? found
  have texts := texts_of_lastPlace? found
  have unbroken : ∀ word ∈ (ofTokens tokens).words.take count, word.Unbroken := by
    intro word member
    have among : word.text ∈ (tokens.take (last + 1)).filterMap wordText? := by
      rw [texts]
      exact List.mem_map_of_mem member
    rcases List.mem_filterMap.mp among with ⟨token, inside, isText⟩
    exact unbroken_of_wordText? isText (spaceless token inside)
  have plain := exact unbroken
  have isPlain : ∀ token ∈ tokens.take (last + 1), ∀ text, wordText? token = some text →
      Keyword.isPlain text = true := by
    intro token inside text isText
    have among : text ∈ (tokens.take (last + 1)).filterMap wordText? :=
      List.mem_filterMap.mpr ⟨token, inside, isText⟩
    rw [texts] at among
    rcases List.mem_map.mp among with ⟨word, member, rfl⟩
    exact plain word member
  have words : ∀ token ∈ tokens.take (last + 1), token.kind.isTrivia = false →
      token.kind = .word ∧ wordText? token = some (Text.upper token.value) := by
    intro token inside content
    rcases wordText?_cases (covers.continues token inside) content with
      isWord | ⟨text, is, bracket⟩ | is
    · exact isWord
    · have letters := isPlain token inside text is
      rcases List.head?_eq_some_iff.mp bracket with ⟨name, isName⟩
      simp [Keyword.isPlain, isName] at letters
    · exact absurd (isPlain token inside "," is) (by decide)
  refine ⟨?_, ?_⟩
  · intro token inside content
    rcases words token inside content with ⟨isWord, text⟩
    exact ⟨isWord, isPlain token inside _ text⟩
  · rw [joined, ← texts]
    congr 1
    generalize tokens.take (last + 1) = covered at words
    clear texts unbroken plain isPlain covers found spaceless exact
    induction covered with
    | nil => rfl
    | cons first rest ih =>
      rcases List.forall_mem_cons.mp words with ⟨here, later⟩
      cases isTrivia : first.kind.isTrivia with
      | true =>
        rw [List.filterMap_cons_none (wordText?_of_isTrivia isTrivia), ih later,
          List.filter_cons_of_neg (by simp [isTrivia])]
      | false =>
        rw [List.filterMap_cons_some (here isTrivia).2, ih later,
          List.filter_cons_of_pos (by simp [isTrivia]), List.map_cons]

end Phrase

end SqlLayout
