import SqlLayout.Proofs.Builder.Growth
import SqlLayout.Proofs.Grammar.Phrase

/-!
# Keywords

Tokens that become leaves spell the same symbols, and so do the keywords made of several of them.
-/

namespace SqlLayout

variable {tokens : List Token}

def Token.partKind (token : Token) : NodeKind :=
  if token.kind = .word then .otherKeyword else token.kind.leafKind

namespace Token

variable {token : Token}

theorem partKind_isLeaf (token : Token) : token.partKind.isLeaf = true := by
  rw [partKind]
  split
  · rfl
  · exact TokenKind.isLeaf_leafKind _

theorem partKind_isTrivia (token : Token) : token.partKind.isTrivia = token.kind.isTrivia := by
  rw [partKind]
  split
  next isWord => rw [isWord]; rfl
  next => cases token.kind <;> rfl

theorem isPlain_of_continues (continues : token.continuesPhrase = true) : token.isPlain = true := by
  obtain ⟨kind, value, span⟩ := token
  cases kind <;>
    first | rfl | simp [continuesPhrase, TokenKind.isTrivia, TokenKind.isComment] at continues

theorem leafKind_symbols (notWord : token.kind ≠ .word) (notColon : token.kind ≠ .colon)
    (plain : token.isPlain = true) : token.kind.leafKind.symbols token.value = token.symbols := by
  obtain ⟨kind, value, span⟩ := token
  cases kind <;> first | rfl | contradiction

theorem partKind_symbols (continues : token.continuesPhrase = true) :
    token.partKind.symbols token.value = token.symbols := by
  rw [partKind]
  split
  next isWord =>
    obtain ⟨kind, value, span⟩ := token
    obtain rfl : kind = .word := isWord
    rfl
  next notWord =>
    refine leafKind_symbols notWord ?_ (isPlain_of_continues continues)
    intro isColon
    simp [continuesPhrase, isColon, TokenKind.isTrivia, TokenKind.isComment] at continues

end Token

open Outline

theorem readAs_part {token : Token} (continues : token.continuesPhrase = true) (id : NodeId) :
    ReadAs [.leaf id token.partKind token.value] [token] :=
  .leaf id token.partKind_isLeaf
    (List.forall_mem_singleton.mpr (Token.isPlain_of_continues continues))
    fun _ => by rw [Token.partKind_symbols continues, Token.symbolsOf_singleton]

namespace Builder

variable {builder : Builder} {draft : Draft} {cursor : NodeId}

theorem Sees.saveTokens (sees : builder.Sees draft cursor)
    (continues : ∀ token ∈ tokens, token.continuesPhrase = true) :
    ∃ outlines, (builder.saveTokens draft.id tokens).Sees (draft.addAll outlines) cursor ∧
      ReadAs outlines tokens ∧
      outlines.map Outline.part = tokens.map fun token => (token.partKind, token.value) := by
  induction tokens generalizing builder draft with
  | nil => exact ⟨[], by simpa [Builder.saveTokens, Draft.addAll] using sees, .nil, rfl⟩
  | cons token rest ih =>
    obtain ⟨here, later⟩ := List.forall_mem_cons.mp continues
    obtain ⟨grown, id, saved, sees⟩ := sees.saveIn token.partKind token.value
    obtain ⟨outlines, sees, read, parts⟩ := ih sees later
    refine ⟨.leaf id token.partKind token.value :: outlines, ?_, (readAs_part here id).append read,
      by rw [List.map_cons, parts]; rfl⟩
    have more : (draft.add (.leaf id token.partKind token.value)).addAll outlines =
        draft.addAll (.leaf id token.partKind token.value :: outlines) := by
      simp [Draft.addAll, Draft.add]
    rw [more] at sees
    have same : builder.saveTokens draft.id (token :: rest) =
        (builder.saveIn draft.id token.partKind token.value).1.saveTokens draft.id rest := rfl
    rw [same, saved]
    exact sees

end Builder

namespace Reading

variable {last count : Nat}

/-- The token in hand with the tokens after it. -/
def source (reading : Reading) : List Token :=
  reading.token :: reading.rest

structure OnWord (reading : Reading) : Prop where
  isWord : reading.token.kind = .word
  phrase : reading.phrase = .ofTokens reading.source

/-- A keyword of one or several words. -/
structure IsKeyword (outline : Outline) (tokens : List Token) : Prop where
  kind : outline.kind = .otherKeyword ∨ outline.kind = .compoundKeyword
  read : ReadAs [outline] tokens

theorem IsKeyword.content {outline : Outline} (keyword : IsKeyword outline tokens) :
    outline.kind.isTrivia = false := by
  rcases keyword.kind with kind | kind <;> rw [kind] <;> rfl

variable {reading : Reading}

theorem OnWord.continues (onWord : reading.OnWord) : reading.token.continuesPhrase = true := by
  simp [Token.continuesPhrase, onWord.isWord]

theorem OnWord.isKeyword (onWord : reading.OnWord) (id : NodeId) :
    IsKeyword (.leaf id .otherKeyword reading.value) [reading.token] := by
  have read := readAs_part onWord.continues id
  rw [Token.partKind, if_pos onWord.isWord] at read
  exact ⟨.inl rfl, read⟩

/-- The leaves of the tokens up to a place of a phrase end in content. -/
theorem content_of_covers {front : List Outline} {final : Outline}
    (covers : Phrase.Covers tokens last) (used : Nat)
    (parts : (front ++ [final]).map Outline.part =
      ((tokens.take (last + 1)).drop used).map fun token => (token.partKind, token.value)) :
    final.kind.isTrivia = false := by
  obtain ⟨token, found, content⟩ := covers.content
  have nonempty : (tokens.take (last + 1)).drop used ≠ [] := by
    rintro none
    simp [none] at parts
  have isLast : ((tokens.take (last + 1)).drop used).getLast? = some token := by
    rw [List.getLast?_drop, if_neg (by simpa using nonempty), List.getLast?_take]
    simp [found]
  have same := congrArg List.getLast? parts
  simp only [List.map_append, List.map_singleton, List.getLast?_append, List.getLast?_singleton,
    Option.some_or, List.getLast?_map, isLast, Option.map_some, Option.some.injEq, part,
    Prod.mk.injEq] at same
  rw [same.1, Token.partKind_isTrivia, content]

theorem phrased_of_exact (exact : (Phrase.ofTokens tokens).Exact count)
    (found : (Phrase.ofTokens tokens).lastPlace? count = some last)
    (spaceless : Spaceless ((tokens.take (last + 1)).map fun token =>
      (token.partKind, token.value))) :
    Phrased ((Phrase.ofTokens tokens).joined count)
      ((tokens.take (last + 1)).map fun token => (token.partKind, token.value)) := by
  have unbroken : ∀ token ∈ tokens.take (last + 1), token.kind = .word →
      ' ' ∉ (Text.upper token.value).toList := by
    intro token member isWord
    have isKeyword : token.partKind = .otherKeyword := if_pos isWord
    exact spaceless (token.partKind, token.value) (List.mem_map.mpr ⟨token, member, rfl⟩) isKeyword
  have words := exact.words found unbroken
  refine ⟨List.forall_mem_map.mpr ?_, ?_, ?_⟩
  · intro token member content
    rw [Token.partKind_isTrivia] at content
    rcases words.1 token member content with ⟨isWord, plain⟩
    exact ⟨if_pos isWord, plain⟩
  · rcases (Phrase.covers_of_lastPlace? found).content with ⟨token, isLast, content⟩
    refine ⟨_,
      List.mem_map_of_mem (List.mem_of_getElem? ((List.getElem?_take_of_lt ?_).trans isLast)), ?_⟩
    · omega
    · rw [Token.partKind_isTrivia, content]
  · rw [words.2, List.filter_map, List.map_map]
    have same : ((fun part : NodeKind × String => !part.1.isTrivia) ∘ fun token : Token =>
        (token.partKind, token.value)) = fun token => !token.kind.isTrivia :=
      funext fun token => congrArg (! ·) token.partKind_isTrivia
    rw [same]
    rfl

/-- A compound keyword is made of the tokens up to its last word. -/
theorem isKeyword_compound {outlines : List Outline}
    (exact : (Phrase.ofTokens tokens).Exact count)
    (found : (Phrase.ofTokens tokens).lastPlace? count = some last)
    (read : ReadAs outlines (tokens.take (last + 1)))
    (parts : outlines.map Outline.part =
      (tokens.take (last + 1)).map fun token => (token.partKind, token.value)) (id : NodeId) :
    IsKeyword (.node id .compoundKeyword ""
      { simpleText := some ((Phrase.ofTokens tokens).joined count) } outlines)
      (tokens.take (last + 1)) := by
  have covers := Phrase.covers_of_lastPlace? found
  have nonempty : outlines ≠ [] := by
    rintro rfl
    obtain ⟨token, found, _⟩ := covers.content
    have inside := (List.getElem?_eq_some_iff.mp found).1
    have none := congrArg List.length parts
    simp at none
    omega
  have worded := phrased_of_exact exact found
  rw [← parts] at worded
  have flat : ∀ outline ∈ outlines, outline.kind.isLeaf = true := by
    have leaves : ∀ part ∈ outlines.map Outline.part, part.1.isLeaf = true := by
      rw [parts]
      exact List.forall_mem_map.mpr fun token _ => token.partKind_isLeaf
    exact List.forall_mem_map.mp leaves
  obtain ⟨before, final, rfl⟩ := (List.eq_nil_or_concat' outlines).resolve_left nonempty
  have fits : Fits .compoundKeyword { simpleText := some ((Phrase.ofTokens tokens).joined count) }
      (before ++ [final]) :=
    ⟨fun isLeaf => absurd isLeaf (by decide), fun _ => ⟨_, rfl, worded⟩,
      fun isOperator => absurd isOperator (by decide), .of_unstaged rfl, fun _ => flat⟩
  exact ⟨.inr rfl, read.node id rfl rfl fits (by decide) (content_of_covers covers 0 parts)⟩

/-- The first words of the phrase become one keyword of the container in hand. -/
theorem OnWord.saveKeyword (onWord : reading.OnWord) {builder : Builder} {draft : Draft}
    {cursor : NodeId} (sees : builder.Sees draft cursor)
    (exact : 1 < count → reading.phrase.Exact count) :
    ∃ grown used outline, reading.saveKeyword builder draft.id count = (grown, used) ∧
      grown.Sees (draft.add outline) cursor ∧
      IsKeyword outline (reading.source.take (used + 1)) ∧
      (used = 0 ∨ reading.phrase.lastPlace? count = some used) := by
  rw [Reading.saveKeyword]
  split
  next =>
    obtain ⟨grown, id, saved, sees⟩ := sees.saveIn .otherKeyword reading.value
    refine ⟨grown, 0, _, ?_, sees, onWord.isKeyword id, .inl rfl⟩
    rw [Builder.saveLeafIn, saved]
  next last isLast =>
    split at isLast
    next several =>
      have exact := exact several
      have found := isLast
      rw [onWord.phrase] at exact found
      have covers := Phrase.covers_of_lastPlace? found
      obtain ⟨opened, id, saved, sees⟩ := sees.openIn .compoundKeyword
      obtain ⟨outlines, sees, read, parts⟩ :=
        (sees.setAttribute .simpleText (reading.phrase.joined count)).saveTokens covers.continues
      have keyword := isKeyword_compound exact found read parts id
      rw [← onWord.phrase] at keyword
      refine ⟨_, last, _, ?_, sees.up, keyword, .inr isLast⟩
      rw [saved]
      rfl
    next => cases isLast

end Reading

end SqlLayout
