import Mathlib.Data.List.Forall2
import Mathlib.Data.List.Find
import SqlLayout.Proofs.Grammar.Phrase
import SqlLayout.Proofs.Likeness.Tree

/-!
# Alike tokens and their phrases

Two tokens are alike if the grammar cannot tell them apart: they are of one kind, words agree in
upper case, and blanks and block comments agree in holding a line break. The phrases of alike tokens
differ in bracketed names only. No keyword is looked for behind a bracket, so what is recognized in
one phrase is recognized in the other, with the same words.
-/

namespace SqlLayout

/-- Two tokens that the grammar does not tell apart. Exactly compared, only blanks differ at all. -/
structure Token.Alike (likeness : Likeness) (token other : Token) : Prop where
  kind : token.kind = other.kind
  letters : token.kind = .word → Text.upper token.value = Text.upper other.value
  breaks : token.kind = .whiteSpace ∨ token.kind = .blockComment →
    containsLineBreak token.value = containsLineBreak other.value
  exact : likeness.exact → token.kind ≠ .whiteSpace → token.value = other.value
  spaceless : likeness.unbroken → token.kind = .word → ' ' ∉ (Text.upper token.value).toList

/-- A word between brackets. -/
structure Bracketed (word : String) : Prop where
  opening : word.toList.head? = some '['
  closing : word.toList.getLast? = some ']'

/-- Two words of a phrase at the same place that are equal, or both bracketed. -/
structure PhraseWord.Alike (likeness : Likeness) (word other : PhraseWord) : Prop where
  place : word.place = other.place
  text : word.text = other.text ∨ Bracketed word.text ∧ Bracketed other.text
  unbroken : likeness.unbroken → word.Unbroken

theorem getElem?_of_forall₂ {α β : Type} {related : α → β → Prop} {list : List α} {other : List β}
    (alike : List.Forall₂ related list other) (index : Nat) :
    list[index]? = none ∧ other[index]? = none ∨
      ∃ element twin, list[index]? = some element ∧ other[index]? = some twin ∧
      related element twin := by
  induction alike generalizing index with
  | nil => exact .inl ⟨rfl, rfl⟩
  | cons same _ ih =>
    cases index with
    | zero => exact .inr ⟨_, _, rfl, rfl, same⟩
    | succ index => exact ih index

namespace Phrase

variable {others words : List PhraseWord}

/-- Two phrases that differ in bracketed names only. -/
def Alike (likeness : Likeness) (phrase other : Phrase) : Prop :=
  List.Forall₂ (PhraseWord.Alike likeness) phrase.words other.words

variable {likeness : Likeness}

theorem bracketed_append (name : String) : Bracketed ("[" ++ name ++ "]") where
  opening := by simp
  closing := by
    rw [String.toList_append]
    exact List.getLast?_concat

/-- The words of alike tokens are alike. -/
theorem collect_alike {tokens others : List Token}
    (alike : List.Forall₂ (Token.Alike likeness) tokens others) (place bound : Nat) :
    List.Forall₂ (PhraseWord.Alike likeness) (collect place bound tokens)
      (collect place bound others) := by
  induction alike generalizing place bound with
  | nil => cases bound <;> exact .nil
  | @cons token other _ _ same _ ih =>
    cases bound with
    | zero => exact .nil
    | succ bound =>
      rw [collect, collect, partOf, partOf, ← same.kind]
      cases isKind : token.kind
      case word =>
        refine .cons ⟨rfl, .inl (same.letters isKind), fun unbroken => ?_⟩ (ih ..)
        exact .inr (same.spaceless unbroken isKind)
      case bracketName =>
        exact .cons ⟨rfl, .inr ⟨bracketed_append _, bracketed_append _⟩,
          fun _ => .inl (by simp)⟩ (ih ..)
      case comma => exact .cons ⟨rfl, .inl rfl, fun _ => .inr (by simp)⟩ (ih ..)
      case whiteSpace | lineComment | slashComment | blockComment => exact ih ..
      all_goals exact .nil

/-! ### Up to a bracket -/

/-- The part of a text before its first bracket. -/
def unbracketed (text : List Char) : List Char :=
  text.takeWhile (· != '[')

theorem unbracketed_append {front : List Char} (plain : '[' ∉ front) (rest : List Char) :
    unbracketed (front ++ rest) = front ++ unbracketed rest :=
  List.takeWhile_append_of_pos fun _ member => bne_iff_ne.mpr fun isBracket =>
    plain (isBracket ▸ member)

theorem unbracketed_append_congr (front : List Char) {rest other : List Char}
    (same : unbracketed rest = unbracketed other) :
    unbracketed (front ++ rest) = unbracketed (front ++ other) := by
  rw [unbracketed, unbracketed, List.takeWhile_append, List.takeWhile_append]
  split
  · exact congrArg (front ++ ·) same
  · rfl

/-- A pattern that hears nothing behind a bracket. -/
def Deaf (pattern : List Char → Option (List Char)) : Prop :=
  ∀ text, (pattern text).map unbracketed = pattern (unbracketed text)

theorem dropWord?_append (word : String) (rest : List Char) :
    dropWord? word (word.toList ++ [' '] ++ rest) = some rest := by
  simp [dropWord?]

theorem dropWord?_empty {text rest : List Char} (found : dropWord? "" text = some rest) :
    text = ' ' :: rest := by
  cases text with
  | nil => simp [dropWord?] at found
  | cons c text =>
    simp only [dropWord?, String.toList_empty, List.nil_append, List.isPrefixOf_iff_prefix,
      Option.ite_none_right_eq_some, List.cons_prefix_cons, List.nil_prefix, and_true,
      Option.some.injEq] at found
    rw [← found.1, ← found.2]
    rfl

theorem deaf_dropWord? {word : String} (plain : '[' ∉ word.toList) : Deaf (dropWord? word) := by
  intro text
  by_cases starts : word.toList ++ [' '] <+: text
  · obtain ⟨rest, rfl⟩ := starts
    rw [dropWord?_append, unbracketed_append (by simpa using plain), dropWord?_append]
    rfl
  · have never : ¬ word.toList ++ [' '] <+: unbracketed text :=
      fun inside => starts (inside.trans (List.takeWhile_prefix _))
    rw [dropWord?, dropWord?, if_neg (by simpa using starts), if_neg (by simpa using never)]
    rfl

theorem deaf_dropOneOf? {words : List String} (plain : ∀ word ∈ words, '[' ∉ word.toList) :
    Deaf (dropOneOf? words) := by
  intro text
  induction words with
  | nil => rfl
  | cons word words ih =>
    obtain ⟨here, later⟩ := List.forall_mem_cons.mp plain
    rw [dropOneOf?, dropOneOf?, List.findSome?_cons, List.findSome?_cons, ← deaf_dropWord? here]
    cases dropWord? word text with
    | none => exact ih later
    | some rest => rfl

namespace Deaf

variable {first second : List Char → Option (List Char)} {text other : List Char}

theorem bind (deaf : Deaf first) (next : Deaf second) :
    Deaf fun text => (first text).bind second := by
  intro text
  dsimp only
  rw [← deaf]
  cases first text with
  | none => rfl
  | some rest => exact next rest

/-- Texts that agree up to a bracket both match, and then so do the rests, or neither does. -/
theorem matches_iff (deaf : Deaf first) (same : unbracketed text = unbracketed other) :
    first text = none ∧ first other = none ∨
      ∃ rest behind, first text = some rest ∧ first other = some behind ∧
        unbracketed rest = unbracketed behind := by
  have found : (first text).map unbracketed = (first other).map unbracketed := by
    rw [deaf, deaf, same]
  cases here : first text with
  | none =>
    rw [here] at found
    exact .inl ⟨rfl, Option.map_eq_none_iff.mp found.symm⟩
  | some rest =>
    rw [here] at found
    obtain ⟨behind, isBehind, equal⟩ := Option.map_eq_some_iff.mp found.symm
    exact .inr ⟨rest, behind, rfl, isBehind, equal.symm⟩

theorem isSome (deaf : Deaf first) (same : unbracketed text = unbracketed other) :
    (first text).isSome = (first other).isSome := by
  rcases deaf.matches_iff same with ⟨here, there⟩ | ⟨_, _, here, there, _⟩
  · rw [here, there]
  · rw [here, there]
    rfl

end Deaf

/-- Two states of a match that agree up to a bracket. -/
structure Sounds (state other : Nat × List Char) : Prop where
  count : state.1 = other.1
  text : unbracketed state.2 = unbracketed other.2

namespace Sounds

variable {state other : Nat × List Char}

theorem skip (sounds : Sounds state other) {words : List String}
    (plain : ∀ word ∈ words, '[' ∉ word.toList) :
    Sounds (skipOneOf words state) (skipOneOf words other) := by
  rw [skipOneOf, skipOneOf]
  rcases (deaf_dropOneOf? plain).matches_iff sounds.text with
    ⟨here, there⟩ | ⟨_, _, here, there, same⟩
  · rw [here, there]
    exact sounds
  · rw [here, there]
    exact ⟨congrArg (· + 1) sounds.count, same⟩

theorem skipFurther (sounds : Sounds state other) :
    Sounds (skipFurtherAction state) (skipFurtherAction other) := by
  have deaf : Deaf fun text => (dropWord? "," text).bind (dropOneOf? triggerActions) :=
    (deaf_dropWord? (by decide)).bind (deaf_dropOneOf? (by decide))
  rw [skipFurtherAction, skipFurtherAction]
  rcases deaf.matches_iff sounds.text with ⟨here, there⟩ | ⟨_, _, here, there, same⟩
  · rw [here, there]
    exact sounds
  · rw [here, there]
    exact ⟨congrArg (· + 2) sounds.count, same⟩

theorem triggerActions (sounds : Sounds state other) :
    ((dropOneOf? Phrase.triggerActions state.2).map fun rest =>
        (skipFurtherAction (skipFurtherAction (state.1 + 1, rest))).1) =
      (dropOneOf? Phrase.triggerActions other.2).map fun rest =>
        (skipFurtherAction (skipFurtherAction (other.1 + 1, rest))).1 := by
  have deaf : Deaf (dropOneOf? Phrase.triggerActions) := deaf_dropOneOf? (by decide)
  rcases deaf.matches_iff sounds.text with ⟨here, there⟩ | ⟨rest, behind, here, there, same⟩
  · rw [here, there]
    rfl
  · have further : Sounds (state.1 + 1, rest) (other.1 + 1, behind) :=
      ⟨congrArg (· + 1) sounds.count, same⟩
    rw [here, there, Option.map_some, Option.map_some, further.skipFurther.skipFurther.count]

end Sounds

theorem unbracketed_name (text : List Char) :
    (unbracketed text).takeWhile isCursorNameChar = text.takeWhile isCursorNameChar ∧
      (unbracketed text).dropWhile isCursorNameChar =
        unbracketed (text.dropWhile isCursorNameChar) := by
  induction text with
  | nil => exact ⟨rfl, rfl⟩
  | cons c rest ih =>
    by_cases isBracket : c = '['
    · subst isBracket
      have stops : isCursorNameChar '[' = false := by decide
      simp [unbracketed, stops]
    · have kept : unbracketed (c :: rest) = c :: unbracketed rest := by
        simp [unbracketed, isBracket]
      rw [kept, List.takeWhile_cons, List.takeWhile_cons, List.dropWhile_cons,
        List.dropWhile_cons, ih.1, ih.2]
      split
      · exact ⟨rfl, rfl⟩
      · exact ⟨rfl, kept.symm⟩

theorem unbracketed_textOf (alike : List.Forall₂ (PhraseWord.Alike likeness) words others) :
    unbracketed (textOf words) = unbracketed (textOf others) := by
  induction alike with
  | nil => rfl
  | @cons word twin words others same _ ih =>
    rw [textOf, textOf, List.flatMap_cons, List.flatMap_cons, ← textOf, ← textOf]
    rcases same.text with equal | ⟨here, there⟩
    · rw [equal]
      exact unbracketed_append_congr _ ih
    · obtain ⟨_, isHere⟩ := List.head?_eq_some_iff.mp here.opening
      obtain ⟨_, isThere⟩ := List.head?_eq_some_iff.mp there.opening
      simp [unbracketed, isHere, isThere]

/-! ### Word by word -/

theorem unbroken_of_forall₂ (alike : List.Forall₂ (PhraseWord.Alike likeness) words others)
    (unbroken : likeness.unbroken) :
    ∀ word ∈ words, word.Unbroken := by
  induction alike with
  | nil => simp
  | cons same _ ih => exact List.forall_mem_cons.mpr ⟨same.unbroken unbroken, ih⟩

theorem map_text_of_forall₂ (alike : List.Forall₂ (PhraseWord.Alike likeness) words others)
    (plain : ∀ word ∈ words, Keyword.isPlain word.text = true) :
    words.map PhraseWord.text = others.map PhraseWord.text := by
  induction alike with
  | nil => rfl
  | @cons word other _ _ same _ ih =>
    obtain ⟨here, later⟩ := List.forall_mem_cons.mp plain
    rw [List.map_cons, List.map_cons, ih later]
    rcases same.text with equal | ⟨bracket, _⟩
    · rw [equal]
    · obtain ⟨rest, isBracket⟩ := List.head?_eq_some_iff.mp bracket.opening
      simp [Keyword.isPlain, isBracket] at here

theorem isPrefixOf_of_forall₂ (alike : List.Forall₂ (PhraseWord.Alike likeness) words others)
    {sequence : List String} (plain : ∀ word ∈ sequence, word.toList.head? ≠ some '[') :
    sequence.isPrefixOf (words.map PhraseWord.text) =
      sequence.isPrefixOf (others.map PhraseWord.text) := by
  induction alike generalizing sequence with
  | nil => rfl
  | @cons word other _ _ same _ ih =>
    cases sequence with
    | nil => rfl
    | cons first sequence =>
      obtain ⟨here, later⟩ := List.forall_mem_cons.mp plain
      rw [List.map_cons, List.map_cons, List.isPrefixOf_cons_cons,
        List.isPrefixOf_cons_cons, ih later]
      rcases same.text with equal | ⟨bracket, bracket'⟩
      · rw [equal]
      · have differs {text : String} (bracket : text.toList.head? = some '[') :
            (first == text) = false :=
          beq_false_of_ne fun same => here (same ▸ bracket)
        rw [differs bracket.opening, differs bracket'.opening]

theorem isDataType_eq (word : String) :
    Keyword.isDataType word =
      (!Keyword.operators.contains word && Keyword.dataTypes.contains word) := by
  rw [Keyword.isDataType, Keyword.class?]
  split <;> simp_all
  split <;> simp_all
  split <;> simp_all

/-! ### The text of a keyword -/

theorem same_or_bracketed (alike : List.Forall₂ (PhraseWord.Alike likeness) words others) :
    words.map PhraseWord.text = others.map PhraseWord.text ∨
      (∃ word ∈ words, Bracketed word.text) ∧ ∃ word ∈ others, Bracketed word.text := by
  induction alike with
  | nil => exact .inl rfl
  | @cons word other _ _ same _ ih =>
    rcases same.text with equal | ⟨here, there⟩
    · rcases ih with rest | ⟨⟨_, here, bracket⟩, ⟨_, there, bracket'⟩⟩
      · exact .inl (by rw [List.map_cons, List.map_cons, equal, rest])
      · exact .inr ⟨⟨_, .tail _ here, bracket⟩, ⟨_, .tail _ there, bracket'⟩⟩
    · exact .inr ⟨⟨word, .head _, here⟩, ⟨other, .head _, there⟩⟩

theorem getLastD_of_forall₂ (alike : List.Forall₂ (PhraseWord.Alike likeness) words others) :
    (words.map PhraseWord.text).getLastD "" = (others.map PhraseWord.text).getLastD "" ∨
      Bracketed ((words.map PhraseWord.text).getLastD "") ∧
        Bracketed ((others.map PhraseWord.text).getLastD "") := by
  induction alike with
  | nil => exact .inl rfl
  | cons same later ih =>
    cases later with
    | nil => exact same.text
    | cons => exact ih

theorem mem_intercalate {texts : List String} {text : String} (member : text ∈ texts) {c : Char}
    (inside : c ∈ text.toList) : c ∈ (" ".intercalate texts).toList := by
  induction texts with
  | nil => cases member
  | cons first rest ih =>
    cases rest with
    | nil =>
      obtain rfl := List.mem_singleton.mp member
      rwa [String.intercalate_singleton]
    | cons second rest =>
      rw [String.intercalate_cons_cons]
      rcases List.mem_cons.mp member with rfl | later
      · simp [inside]
      · rw [String.toList_append]
        exact List.mem_append_right _ (ih later)

theorem endsInDataType_append (front back : String) :
    Keyword.endsInDataType (front ++ " " ++ back) = Keyword.endsInDataType back := by
  have last : (front ++ " " ++ back).toList.reverse.takeWhile (· != ' ') =
      back.toList.reverse.takeWhile (· != ' ') := by
    rw [String.toList_append, String.toList_append, List.reverse_append, List.takeWhile_append]
    split
    next whole => simp [(List.takeWhile_prefix _).eq_of_length whole]
    · rfl
  rw [Keyword.endsInDataType, Keyword.endsInDataType, last]

theorem endsInDataType_intercalate (texts : List String) :
    Keyword.endsInDataType (" ".intercalate texts) =
      Keyword.endsInDataType (texts.getLastD "") := by
  induction texts with
  | nil => rfl
  | cons first rest ih =>
    cases rest with
    | nil => rw [String.intercalate_singleton]; rfl
    | cons second rest =>
      rw [String.intercalate_cons_cons, endsInDataType_append, ih]
      rfl

theorem endsInDataType_bracketed {word : String} (bracketed : Bracketed word) :
    Keyword.endsInDataType word = false := by
  obtain ⟨front, cut⟩ := List.getLast?_eq_some_iff.mp bracketed.closing
  have known : ∀ name ∈ Keyword.dataTypes, name.toList.getLast? ≠ some ']' := by decide
  rw [Keyword.endsInDataType, isDataType_eq, cut, List.reverse_concat,
    List.takeWhile_cons_of_pos (by decide), List.reverse_cons]
  refine Bool.and_eq_false_iff.mpr (.inr ?_)
  rw [List.contains_eq_mem, decide_eq_false_iff_not]
  exact fun member => known _ member (by simp)

namespace Alike

variable {phrase other : Phrase} (alike : phrase.Alike likeness other)
include alike

theorem text : unbracketed phrase.text = unbracketed other.text :=
  unbracketed_textOf alike

theorem joinLength? : phrase.joinLength? = other.joinLength? := by
  unfold Phrase.joinLength?
  extract_lets side outer hint twinSide twinOuter twinHint
  have start : Sounds (0, phrase.text) (0, other.text) := ⟨rfl, alike.text⟩
  have isSide : Sounds side twinSide := start.skip (by decide)
  have isOuter : Sounds outer twinOuter := isSide.skip (by decide)
  have isHint : Sounds hint twinHint := isOuter.skip (by decide)
  have deaf : Deaf (dropOneOf? ["JOIN", "APPLY"]) := deaf_dropOneOf? (by decide)
  rcases deaf.matches_iff isHint.text with ⟨here, there⟩ | ⟨_, _, here, there, _⟩
  · rw [here, there]
    rfl
  · rw [here, there, Option.map_some, Option.map_some, isHint.count]

theorem triggerLength? : phrase.triggerLength? = other.triggerLength? := by
  have timing : Deaf (dropOneOf? ["FOR", "AFTER"]) := deaf_dropOneOf? (by decide)
  have instead : Deaf fun text => (dropWord? "INSTEAD" text).bind (dropWord? "OF") :=
    (deaf_dropWord? (by decide)).bind (deaf_dropWord? (by decide))
  unfold Phrase.triggerLength?
  rcases timing.matches_iff alike.text with ⟨here, there⟩ | ⟨rest, behind, here, there, same⟩
  · rw [here, there]
    rcases instead.matches_iff alike.text with ⟨here, there⟩ | ⟨rest, behind, here, there, same⟩
    · rw [here, there]
    · have sounds : Sounds (2, rest) (2, behind) := ⟨rfl, same⟩
      rw [here, there]
      exact sounds.triggerActions
  · have sounds : Sounds (1, rest) (1, behind) := ⟨rfl, same⟩
    rw [here, there]
    exact sounds.triggerActions

theorem declaresCursor : phrase.declaresCursor = other.declaresCursor := by
  have declare : Deaf (dropWord? "DECLARE") := deaf_dropWord? (by decide)
  have isCursor : Deaf (dropWord? "CURSOR") := deaf_dropWord? (by decide)
  unfold Phrase.declaresCursor
  rcases declare.matches_iff alike.text with ⟨here, there⟩ | ⟨rest, behind, here, there, same⟩
  · rw [here, there]
  · rw [here, there]
    dsimp only
    have name : rest.takeWhile isCursorNameChar = behind.takeWhile isCursorNameChar := by
      rw [← (unbracketed_name rest).1, same, (unbracketed_name behind).1]
    have after : unbracketed (rest.dropWhile isCursorNameChar) =
        unbracketed (behind.dropWhile isCursorNameChar) := by
      rw [← (unbracketed_name rest).2, same, (unbracketed_name behind).2]
    -- The blank that must follow the name is the end of an empty word.
    have blank : Deaf (dropWord? "") := deaf_dropWord? (by decide)
    rw [name]
    rcases blank.matches_iff after with ⟨here, there⟩ | ⟨next, later, here, there, same⟩
    · split
      next isBlank => simp [isBlank, dropWord?] at here
      · split
        next isBlank => simp [isBlank, dropWord?] at there
        · rfl
    · rw [dropWord?_empty here, dropWord?_empty there]
      cases behind.takeWhile isCursorNameChar with
      | nil => rfl
      | cons first others =>
        have start : Sounds (0, next) (0, later) := ⟨rfl, same⟩
        have options : ∀ word ∈ ["INSENSITIVE", "SCROLL"], '[' ∉ word.toList := by decide
        exact isCursor.isSome ((start.skip options).skip options).text

/-! ### Word by word -/

theorem word (index : Nat) :
    phrase.word index = other.word index ∨ Bracketed (phrase.word index) ∧
      Bracketed (other.word index) := by
  rw [Phrase.word, Phrase.word]
  rcases getElem?_of_forall₂ alike index with ⟨here, there⟩ | ⟨_, _, here, there, same⟩
  · rw [here, there]
    exact .inl rfl
  · rw [here, there]
    exact same.text

theorem word_contains (index : Nat) {words : List String}
    (plain : ∀ word ∈ words, word.toList.head? ≠ some '[') :
    words.contains (phrase.word index) = words.contains (other.word index) := by
  rcases alike.word index with same | ⟨here, there⟩
  · rw [same]
  · have absent {text : String} (bracket : text.toList.head? = some '[') :
        words.contains text = false := by
      rw [List.contains_eq_mem, decide_eq_false_iff_not]
      exact fun member => plain text member bracket
    rw [absent here.opening, absent there.opening]

theorem word_beq (index : Nat) {word : String} (plain : word.toList.head? ≠ some '[') :
    (phrase.word index == word) = (other.word index == word) := by
  have contains := alike.word_contains index (List.forall_mem_singleton.mpr plain)
  simpa using contains

theorem isDataType (index : Nat) :
    Keyword.isDataType (phrase.word index) = Keyword.isDataType (other.word index) := by
  rw [isDataType_eq, isDataType_eq,
    alike.word_contains index (by decide : ∀ word ∈ Keyword.operators,
      word.toList.head? ≠ some '['),
    alike.word_contains index (by decide : ∀ word ∈ Keyword.dataTypes,
      word.toList.head? ≠ some '[')]

theorem isProceduralDefinition : phrase.isProceduralDefinition = other.isProceduralDefinition := by
  have objects (index : Nat) := alike.word_contains index
    (by decide : ∀ word ∈ ["PROC", "PROCEDURE", "FUNCTION", "TRIGGER", "VIEW"],
      word.toList.head? ≠ some '[')
  simp only [Phrase.isProceduralDefinition, objects]
  rw [alike.word_beq 0 (by decide : "CREATE".toList.head? ≠ some '['),
    alike.word_beq 1 (by decide : "OR".toList.head? ≠ some '['),
    alike.word_beq 2 (by decide : "ALTER".toList.head? ≠ some '['),
    alike.word_beq 0 (by decide : "ALTER".toList.head? ≠ some '[')]

theorem startsWith {sequence : List String}
    (plain : ∀ word ∈ sequence, word.toList.head? ≠ some '[') :
    phrase.startsWith sequence = other.startsWith sequence :=
  isPrefixOf_of_forall₂ alike plain

theorem compoundLength? : phrase.compoundLength? = other.compoundLength? := by
  have plain : ∀ sequence ∈ Keyword.compounds, ∀ word ∈ sequence, word.toList.head? ≠ some '[' := by
    decide
  rw [Phrase.compoundLength?, Phrase.compoundLength?,
    List.find?_congr fun sequence member => alike.startsWith (plain sequence member)]

theorem lastPlace? (count : Nat) : phrase.lastPlace? count = other.lastPlace? count := by
  cases count with
  | zero => rfl
  | succ last =>
    rw [Phrase.lastPlace?, Phrase.lastPlace?]
    rcases getElem?_of_forall₂ alike last with ⟨here, there⟩ | ⟨_, _, here, there, same⟩
    · rw [here, there]
    · rw [here, there, Option.map_some, Option.map_some, same.place]

theorem names {count : Nat} (exact : phrase.Exact count) :
    likeness.Names (some (phrase.joined count)) (some (other.joined count)) := by
  have taken := List.forall₂_take count alike
  refine ⟨fun unbroken => ?_, ?_, ?_⟩
  · have plain := exact (unbroken_of_forall₂ taken unbroken)
    rw [Phrase.joined, Phrase.joined, map_text_of_forall₂ taken plain]
  · rcases same_or_bracketed taken with same | ⟨⟨_, here, bracket⟩, ⟨_, there, bracket'⟩⟩
    · rw [Phrase.joined, Phrase.joined, same]
      exact .refl _
    · -- With a bracketed name in it the text is none of the keywords that the grammar asks for.
      intro word plain
      have absent {words : List PhraseWord} {word : PhraseWord} (member : word ∈ words)
          (bracket : Bracketed word.text) {text : String} (plain : '[' ∉ text.toList) :
          some (" ".intercalate (words.map PhraseWord.text)) ≠ some text := by
        intro same
        refine plain (Option.some_inj.mp same ▸ mem_intercalate (List.mem_map_of_mem member) ?_)
        exact List.mem_of_head? bracket.opening
      exact iff_of_false (absent here bracket plain) (absent there bracket' plain)
  · rw [Option.map_some, Option.map_some, Phrase.joined, Phrase.joined, endsInDataType_intercalate,
      endsInDataType_intercalate]
    rcases getLastD_of_forall₂ taken with same | ⟨here, there⟩
    · rw [same]
    · rw [endsInDataType_bracketed here, endsInDataType_bracketed there]

end Alike

end Phrase

end SqlLayout
