import SqlLayout.Proofs.Builder.Statements
import SqlLayout.Proofs.Grammar.Keyword

/-!
# What a rule does

A rule takes a document that is at rest, uses some tokens, and leaves a document that is at rest.
Here are the few ways in which the rules of the grammar put the token in hand into the document.
-/

namespace SqlLayout

variable {tokens : List Token} {draft : Draft} {kind body : NodeKind}

/-- The container in hand takes tokens, and what it holds may be followed by a blank or a
comment. -/
structure Draft.AtRest (draft : Draft) : Prop where
  isOpen : draft.IsOpen
  settled : draft.Settled

/-- A rule succeeds, and the document holds the tokens that it used. -/
def Completes (tokens source : List Token) (step : Step) : Prop :=
  ∃ builder used draft, step = .ok (builder, used) ∧
    builder.At (tokens ++ source.take (used + 1)) draft ∧ draft.AtRest

theorem Reaches.done {rest : List Token} {token : Token} {result : Except TreeError Builder}
    (reaches : Reaches (tokens ++ [token]) result Draft.AtRest) :
    Completes tokens (token :: rest) (.done result) := by
  obtain ⟨builder, draft, rfl, located, atRest⟩ := reaches
  exact ⟨builder, 0, draft, rfl, located, atRest⟩

theorem Reaches.thenStep {before source : List Token} {result : Except TreeError Builder}
    {goal : Draft → Prop} (reaches : Reaches tokens result goal) {rest : Builder → Step}
    (onward : ∀ builder draft, builder.At tokens draft → goal draft →
      Completes before source (rest builder)) : Completes before source (result >>= rest) := by
  obtain ⟨builder, draft, rfl, located, holds⟩ := reaches
  exact onward builder draft located holds

theorem Reaches.thenStep_ite {before source : List Token} {condition : Prop} [Decidable condition]
    {positive negative : Except TreeError Builder} {goal : Draft → Prop}
    (reaches : Reaches tokens (if condition then positive else negative) goal)
    {rest : Builder → Step}
    (onward : ∀ builder draft, builder.At tokens draft → goal draft →
      Completes before source (rest builder)) :
    Completes before source (if condition then positive >>= rest else negative >>= rest) := by
  have both := reaches.thenStep onward
  split at both
  next holds => rwa [if_pos holds]
  next fails => rwa [if_neg fails]

namespace Draft

variable {draft : Draft}

theorem Settled.mark (settled : draft.Settled) : draft.mark.Settled where
  inside := settled.inside
  before isClause empty frame isFirst last isLast := by
    rcases around : draft.outer with _ | ⟨first, outer⟩
    · simp [Draft.mark, Draft.setAttribute, around, Frame.setAttributes] at isFirst
    · refine settled.before isClause empty first (by rw [around]; rfl) last ?_
      simp only [Draft.mark, Draft.setAttribute, around, Frame.setAttributes, List.map_cons,
        List.head?_cons, Option.mem_def, Option.some.injEq] at isFirst
      subst isFirst
      revert isLast
      split <;> split <;> exact fun isLast => isLast

theorem AtRest.mark (atRest : draft.AtRest) : draft.mark.AtRest :=
  ⟨atRest.isOpen, atRest.settled.mark⟩

theorem atRest_startStatement (draft : Draft) (statement clause : NodeId) :
    ((draft.enter statement .statement).enter clause .clause).AtRest :=
  ⟨(by decide : NodeKind.clause ∈ NodeKind.holders), settled_enter fun _ => by simp [enter]⟩

theorem IsOpen.notStatement (isOpen : draft.IsOpen) : draft.kind ≠ .statement := by
  intro isStatement
  rw [IsOpen, isStatement] at isOpen
  exact absurd isOpen (by decide)

/-- In a container that takes tokens, anything may be opened that may be opened there. -/
theorem IsOpen.accepts (isOpen : draft.IsOpen) (kind : NodeKind) : draft.Accepts kind :=
  accepts_of_holder isOpen kind

end Draft

theorem Built.startStatement (built : Built tokens draft)
    (opens : draft.kind ∈ NodeKind.parents .statement) (hosts : draft.Hosts)
    (statement clause : NodeId) :
    Built tokens ((draft.enter statement .statement).enter clause .clause) := by
  have unstaged : draft.kind.stages = [] :=
    (by decide : ∀ kind ∈ NodeKind.parents .statement, kind.stages = []) _ opens
  refine (built.pass
    (.enter statement rfl opens (Draft.accepts_of_unstaged unstaged _) (fun _ => hosts)
    (absurd · (by decide)))).pass ?_
  exact .enter clause rfl (by decide : NodeKind.statement ∈ _)
    (Draft.accepts_of_unstaged rfl _) nofun
    (absurd · (by decide))

namespace Builder.At

variable {builder grown : Builder} {tokens more : List Token} {draft : Draft} {outline : Outline}

theorem add (located : builder.At tokens draft) (isOpen : draft.IsOpen)
    (stands : grown.Stands (draft.add outline)) (read : Outline.ReadAs [outline] more)
    (content : outline.kind.isTrivia = false) :
    grown.At (tokens ++ more) (draft.add outline) ∧ (draft.add outline).AtRest :=
  ⟨⟨stands, located.built.add read content (isOpen.accepts _) isOpen.notStatement⟩, isOpen,
    Draft.settled_add draft (read.firm outline (by simp))⟩

theorem saveLeaf (located : builder.At tokens draft) (isOpen : draft.IsOpen) {text : String}
    (read : ∀ id, Outline.ReadAs [.leaf id kind text] more) (content : kind.isTrivia = false) :
    Reaches (tokens ++ more) (.ok (builder.saveLeaf kind text)) Draft.AtRest := by
  obtain ⟨id, stands⟩ := located.stands.saveLeaf kind text
  obtain ⟨located, atRest⟩ := located.add isOpen stands (read id) content
  exact located.reaches atRest

theorem saveLeafWithError (located : builder.At tokens draft) (isOpen : draft.IsOpen)
    {text : String} (read : ∀ id, Outline.ReadAs [.leaf id kind text] more)
    (content : kind.isTrivia = false) :
    Reaches (tokens ++ more) (.ok (builder.saveLeafWithError kind text)) Draft.AtRest := by
  obtain ⟨id, stands⟩ := located.stands.saveLeaf kind text
  obtain ⟨located, atRest⟩ := located.add isOpen stands (read id) content
  exact ⟨_, _, rfl, ⟨located.stands.markError, located.built.mark⟩, atRest.mark⟩

theorem optional (located : builder.At tokens draft) (isOpen : draft.IsOpen)
    {result : Except TreeError Builder} (reaches : Reaches tokens result Draft.IsOpen)
    (taken : Prop) [Decidable taken] :
    Reaches tokens (if taken then result else .ok builder) Draft.IsOpen := by
  split
  next => exact reaches
  next => exact located.reaches isOpen

theorem enterHolder (located : builder.At tokens draft) (plain : kind.isParens = false)
    (opens : draft.kind ∈ kind.parents) (accepted : draft.Accepts kind)
    (holder : kind ∈ NodeKind.holders) (notClause : kind ≠ .clause)
    (outside : .ifStatement ∉ kind.parents) :
    Reaches tokens (builder.enter kind) Draft.AtRest := by
  have inside : kind ≠ .statement := by
    rintro rfl
    exact absurd holder (by decide)
  refine (located.enter plain opens accepted inside (absurd · outside)).imp ?_
  rintro _ ⟨id, rfl⟩
  exact ⟨holder, Draft.settled_enter fun isClause => absurd isClause notClause⟩

end Builder.At

/-! ### The word in hand -/

/-- The kinds of leaves that a single word becomes. -/
def NodeKind.isWord (kind : NodeKind) : Bool :=
  [other, otherKeyword, functionKeyword, dataTypeKeyword, alphaOperator].contains kind

theorem NodeKind.isTrivia_of_isWord (isWord : kind.isWord = true) : kind.isTrivia = false := by
  revert isWord
  cases kind <;> decide

theorem wordKind_isWord (word : String) : (wordKind word).isWord = true := by
  rw [wordKind]
  split <;> rfl

namespace Reading

variable {reading : Reading} {builder : Builder} {tokens : List Token} {draft : Draft}

theorem OnWord.readAs (onWord : reading.OnWord) (isWord : kind.isWord = true) (id : NodeId) :
    Outline.ReadAs [.leaf id kind reading.value] [reading.token] := by
  have isLeaf : kind.isLeaf = true := by
    revert isWord
    cases kind <;> decide
  refine .leaf id isLeaf ?_ fun faithful => ?_
  · exact List.forall_mem_singleton.mpr (Token.isPlain_of_continues onWord.continues)
  · have faithful := faithful reading.token (by simp)
    rw [Token.Faithful, onWord.isWord] at faithful
    have notParens : reading.value ≠ ")" := by
      intro isParens
      exact faithful.2.1 (by rw [show reading.token.value = ")" from isParens]; decide)
    have named : Symbol.ofName reading.value = [.token .word reading.value] :=
      Symbol.ofName_of_notMem faithful.2.2
    have own : kind.symbols reading.value = [.token .word reading.value] := by
      revert isWord
      cases kind <;>
        simp [NodeKind.isWord, NodeKind.symbols, NodeKind.isTrivia, NodeKind.isComment,
          NodeKind.isParens, NodeKind.tokens, NodeKind.tokenKind, NodeKind.isLeaf, notParens, named]
    rw [own, Token.symbolsOf_singleton, Token.symbols, onWord.isWord]
    rfl

theorem OnWord.saveWord (onWord : reading.OnWord) (located : builder.At tokens draft)
    (isOpen : draft.IsOpen) :
    Reaches (tokens ++ [reading.token]) (.ok (reading.saveWord builder)) Draft.AtRest :=
  located.saveLeaf isOpen (onWord.readAs rfl) rfl

theorem OnWord.saveTyped (onWord : reading.OnWord) (located : builder.At tokens draft)
    (isOpen : draft.IsOpen) :
    Reaches (tokens ++ [reading.token]) (.ok (reading.saveTyped builder)) Draft.AtRest :=
  located.saveLeaf isOpen (onWord.readAs (wordKind_isWord _))
    (NodeKind.isTrivia_of_isWord (wordKind_isWord _))

theorem OnWord.saveWithError (onWord : reading.OnWord) (located : builder.At tokens draft)
    (isOpen : draft.IsOpen) (isWord : kind.isWord = true) :
    Reaches (tokens ++ [reading.token]) (.ok (builder.saveLeafWithError kind reading.value))
      Draft.AtRest :=
  located.saveLeafWithError isOpen (onWord.readAs isWord) (NodeKind.isTrivia_of_isWord isWord)

end Reading

/-! ### Constructs that open with the word in hand -/

/-- A node that adds nothing to what it holds, in any order. -/
def NodeKind.isTransparent (kind : NodeKind) : Bool :=
  kind.isContainer && kind.stages.isEmpty && kind.parents.isEmpty &&
    (kind.symbols "" ++ kind.ending).isEmpty

theorem NodeKind.isTrivia_of_isTransparent (transparent : kind.isTransparent = true) :
    kind.isTrivia = false := by
  revert transparent
  cases kind <;> decide

/-- A node around content that ends in content holds the same tokens. -/
theorem Outline.ReadAs.wrap {outlines : List Outline} {last : Outline}
    (read : ReadAs (outlines ++ [last]) tokens) (content : last.kind.isTrivia = false)
    (id : NodeId) (transparent : kind.isTransparent = true) :
    ReadAs [.node id kind "" {} (outlines ++ [last])] tokens := by
  simp only [NodeKind.isTransparent, Bool.and_eq_true, List.isEmpty_iff] at transparent
  obtain ⟨⟨⟨isContainer, unstaged⟩, inert⟩, silent⟩ := transparent
  exact read.node id unstaged inert
    (fits_of_isContainer isContainer _ (.of_unstaged unstaged)) silent content

theorem Reading.IsKeyword.bracket {keyword : Outline} (isKeyword : IsKeyword keyword tokens)
    (id : NodeId) (transparent : kind.isTransparent = true) :
    Outline.ReadAs [.bracket id kind keyword] tokens := by
  have read : Outline.ReadAs ([] ++ [keyword]) tokens := isKeyword.read
  exact read.wrap isKeyword.content id transparent

/-- A construct of a kind opens with a keyword and takes its contents in a body of another kind. -/
def NodeKind.opensWith (kind body : NodeKind) : Bool :=
  !kind.isParens && !body.isParens && kind != .statement && body != .statement && body != .clause &&
    body.parents.contains kind && kind.accepts none .containerOpen &&
    kind.accepts (some .containerOpen) body

/-- After the containers `inner` in a construct of a kind, a part of another kind comes next. -/
def NodeKind.goesOn (construct : NodeKind) (inner : List NodeKind) (kind body : NodeKind) : Bool :=
  !inner.isEmpty && inner.all NodeKind.isPlain && kind.parents.contains construct &&
    construct.accepts inner.getLast? kind && kind.opensWith body &&
    !kind.parents.contains .ifStatement

/-- A draft is inside the body of a construct that was just opened in containers of the kinds
`outside`. -/
structure Draft.Entered (outside : List NodeKind) (kind body : NodeKind) (draft : Draft) :
    Prop where
  path : draft.path = body :: kind :: outside
  empty : draft.children = []
  settled : draft.Settled

theorem Draft.Entered.atRest {outside : List NodeKind}
    (entered : Draft.Entered outside kind body draft) (holder : body ∈ NodeKind.holders) :
    draft.AtRest :=
  ⟨by rw [Draft.IsOpen, Draft.kind_eq entered.path]; exact holder, entered.settled⟩

/-- What was left is known, so it is known what may come next. -/
theorem Draft.Left.accepts {origin : Draft} {inner others : List NodeKind} {parent : NodeKind}
    (left : origin.Left inner (parent :: others) draft) (nonempty : inner ≠ [])
    (accepted : parent.accepts inner.getLast? kind = true) : draft.Accepts kind := by
  have last := left.last (inner.getLast nonempty) (List.getLast?_eq_some_getLast nonempty)
  rw [Draft.Accepts, Draft.kind_eq left.path, last, ← List.getLast?_eq_some_getLast nonempty]
  exact accepted

namespace Reading

variable {reading : Reading} {builder : Builder} {tokens : List Token} {draft : Draft}

theorem IsKeyword.opens {keyword : Outline} {more : List Token}
    (isKeyword : IsKeyword keyword more) (built : Built tokens draft)
    (opens : draft.kind ∈ kind.parents) (accepted : draft.Accepts kind)
    (shape : kind.opensWith body = true)
    (undecided : .ifStatement ∈ kind.parents → draft.Undecided)
    (container opening inside : NodeId) :
    Built (tokens ++ more) (((draft.enter container kind).add
        (.bracket opening .containerOpen keyword)).enter inside body) ∧
      Draft.Entered draft.path kind body (((draft.enter container kind).add
        (.bracket opening .containerOpen keyword)).enter inside body) := by
  simp only [NodeKind.opensWith, Bool.and_eq_true, Bool.not_eq_true', bne_iff_ne, ne_eq,
    List.contains_eq_mem, decide_eq_true_eq] at shape
  obtain ⟨⟨⟨⟨⟨⟨⟨plain, plainBody⟩, notStatement⟩, notStatementBody⟩, notClause⟩,
    opensBody⟩, accepts⟩, acceptsBody⟩ := shape
  have read := isKeyword.bracket opening (rfl : NodeKind.isTransparent .containerOpen = true)
  have keyed := (built.pass (.enter container plain opens accepted
    (fun isStatement => absurd isStatement notStatement) undecided)).add read
      rfl accepts notStatement
  refine ⟨keyed.pass (.enter inside plainBody opensBody acceptsBody
    (fun isStatement => absurd isStatement notStatementBody) fun _ _ child isChild => ?_), rfl, rfl,
    Draft.settled_enter fun isClause => absurd isClause notClause⟩
  -- Nothing but the keyword is in the new construct.
  obtain rfl : child = _ := List.mem_singleton.mp isChild
  exact nofun

theorem OnWord.enter (onWord : reading.OnWord) (located : builder.At tokens draft)
    {kind body : NodeKind} (opens : draft.kind ∈ kind.parents) (accepted : draft.Accepts kind)
    (shape : kind.opensWith body = true)
    (undecided : .ifStatement ∈ kind.parents → draft.Undecided) :
    Reaches (tokens ++ [reading.token]) (reading.enter builder kind body)
      (Draft.Entered draft.path kind body) := by
  obtain ⟨moved, container, opening, word, inside, isOk, stands⟩ :=
    located.stands.enterContainer kind reading.value body
  obtain ⟨built, entered⟩ := (onWord.isKeyword word).opens located.built opens accepted shape
    undecided container opening inside
  exact ⟨moved, _, isOk, ⟨stands, built⟩, entered⟩

theorem OnWord.enterHere (onWord : reading.OnWord) (located : builder.At tokens draft)
    (isOpen : draft.IsOpen) (anywhere : kind.parents = NodeKind.holders)
    (shape : kind.opensWith body = true) :
    Reaches (tokens ++ [reading.token]) (reading.enter builder kind body)
      (Draft.Entered draft.path kind body) :=
  onWord.enter located (anywhere ▸ isOpen) (isOpen.accepts kind) shape
    fun inIf => absurd (anywhere ▸ inIf) (by decide)

/-- A part of a construct opens with the word in hand after the part before it. -/
theorem OnWord.enterAbove (onWord : reading.OnWord) (located : builder.At tokens draft)
    {inner others : List NodeKind} {parent : NodeKind}
    (path : draft.path = inner ++ parent :: others)
    (goesOn : parent.goesOn inner kind body = true) :
    Reaches (tokens ++ [reading.token])
      (builder.moveUpTo inner.length parent >>= fun builder => reading.enter builder kind body)
      (Draft.Entered (parent :: others) kind body) := by
  simp only [NodeKind.goesOn, Bool.and_eq_true, Bool.not_eq_true', List.isEmpty_eq_false_iff,
    List.all_eq_true, List.contains_eq_mem, decide_eq_true_eq, decide_eq_false_iff_not] at goesOn
  obtain ⟨⟨⟨⟨⟨nonempty, plain⟩, opens⟩, accepted⟩, shape⟩, outside⟩ := goesOn
  refine (located.moveUpTo path plain).bind fun builder draft located left => ?_
  have opens : draft.kind ∈ kind.parents := by rwa [Draft.kind_eq left.path]
  exact left.path ▸ onWord.enter located opens (left.accepts nonempty accepted) shape
    (absurd · outside)

theorem OnWord.enterPart (onWord : reading.OnWord) (located : builder.At tokens draft)
    {inner others : List NodeKind} {parent : NodeKind}
    (path : draft.path = inner ++ parent :: others)
    (goesOn : parent.goesOn inner kind body = true) (holder : body ∈ NodeKind.holders) :
    Reaches (tokens ++ [reading.token])
      (builder.moveUpTo inner.length parent >>= fun builder => reading.enter builder kind body)
      Draft.AtRest :=
  (onWord.enterAbove located path goesOn).imp fun _ entered => entered.atRest holder

theorem startStatement {outside : List NodeKind} (located : builder.At tokens draft)
    (entered : Draft.Entered outside kind body draft) (opens : body ∈ NodeKind.parents .statement)
    (owner : body = .containerContentBody → kind ∈ [NodeKind.ddlAsBlock, .cursorForBlock]) :
    Reaches tokens (.ok builder.startStatement) Draft.AtRest := by
  obtain ⟨statement, clause, stands⟩ := located.stands.startStatement
  have isBody := Draft.kind_eq entered.path
  have hosts : draft.Hosts := by
    refine ⟨fun _ => by simp [entered.empty], fun isContent =>
      ⟨kind, owner (isBody ▸ isContent), outside, ?_⟩⟩
    rw [entered.path, ← isBody, isContent]
    rfl
  exact ⟨_, _, rfl, ⟨stands, located.built.startStatement (isBody ▸ opens) hosts statement clause⟩,
    Draft.atRest_startStatement ..⟩

/-! ### Keywords of several words -/

/-- The first words of the phrase become a keyword at the cursor. -/
theorem OnWord.completesKeyword (onWord : reading.OnWord) (located : builder.At tokens draft)
    (isOpen : draft.IsOpen) {count : Nat} (exact : 1 < count → reading.phrase.Exact count) :
    Completes tokens reading.source (.ok (reading.saveKeyword builder builder.cursor count)) := by
  obtain ⟨grown, used, outline, saved, sees, isKeyword, _⟩ :=
    onWord.saveKeyword located.stands.sees exact
  rw [located.stands.cursor, saved]
  obtain ⟨located, atRest⟩ := located.add isOpen sees.stands isKeyword.read isKeyword.content
  exact ⟨grown, used, _, rfl, located, atRest⟩

theorem OnWord.completesWrapped (onWord : reading.OnWord) (located : builder.At tokens draft)
    (isOpen : draft.IsOpen) (transparent : kind.isTransparent = true) {count : Nat}
    (exact : 1 < count → reading.phrase.Exact count) :
    Completes tokens reading.source
      (.ok (reading.saveKeyword (builder.save kind "").1 (builder.save kind "").2 count)) := by
  obtain ⟨opened, id, savedNode, sees⟩ := located.stands.sees.openIn kind
  obtain ⟨grown, used, outline, saved, sees, isKeyword, _⟩ := onWord.saveKeyword sees exact
  rw [Builder.save, located.stands.cursor, savedNode]
  have stands : grown.Stands (draft.add (.bracket id kind outline)) :=
    ⟨sees.shown.of_outline rfl, sees.cursor⟩
  obtain ⟨located, atRest⟩ := located.add isOpen stands (isKeyword.bracket id transparent)
    (NodeKind.isTrivia_of_isTransparent transparent)
  exact ⟨grown, used, _, congrArg Except.ok saved, located, atRest⟩

end Reading

/-! ### Constructs that close with the word in hand -/

/-- A construct that a keyword closes may stand anywhere, and nothing else keeps it from being
left. -/
theorem NodeKind.of_closes (closes : kind.finish? = some .containerClose) :
    kind.parents = holders ∧ kind.isParens = false ∧ kind ≠ .ddlAsBlock ∧
      kind ≠ .booleanExpression := by
  revert closes
  cases kind <;> decide

theorem Draft.settled_closed (sound : draft.Sound) (enclosed : draft.outer ≠ [])
    (notCondition : draft.kind ≠ .booleanExpression) (firm : draft.closed.exposed = false) :
    draft.up.Settled := by
  obtain ⟨frame, outer, around⟩ := List.exists_cons_of_ne_nil enclosed
  rw [Draft.up_eq around, sound.after_eq_nil around notCondition]
  refine ⟨fun last isLast => ?_, by simp⟩
  simp only [List.getLast?_append, List.getLast?_singleton, Option.some_or, Option.mem_def,
    Option.some.injEq] at isLast
  exact isLast ▸ firm

namespace Reading

variable {reading : Reading} {builder grown : Builder} {tokens more : List Token} {draft : Draft}

/-- A construct that a keyword closes gets its closing keyword and is left. -/
theorem leaveClosed (located : builder.At tokens draft)
    (closes : draft.kind.finish? = some .containerClose) (accepted : draft.Accepts .containerClose)
    {id : NodeId} {keyword : Outline} (isKeyword : IsKeyword keyword more)
    (stands : grown.Stands (draft.add (.bracket id .containerClose keyword))) :
    Reaches (tokens ++ more) (grown.moveUp 1) Draft.AtRest := by
  have read := isKeyword.bracket id (rfl : NodeKind.isTransparent .containerClose = true)
  obtain ⟨anywhere, plain, temporary, notCondition⟩ := NodeKind.of_closes closes
  have notStatement : draft.kind ≠ .statement := by
    intro isStatement
    rw [isStatement] at anywhere
    exact absurd anywhere (by decide)
  have built := located.built.add read rfl accepted notStatement
  have enclosed : draft.outer ≠ [] := by
    refine located.sound.enclosed fun isRoot => ?_
    rw [isRoot] at anywhere
    exact absurd anywhere (by decide)
  obtain ⟨moved, isOk, stands⟩ := stands.moveUp (List.length_pos_iff.mpr enclosed)
  refine ⟨moved, _, isOk, ⟨stands, built.pass (.leave ⟨plain, temporary, ?_⟩ enclosed)⟩, ?_, ?_⟩
  · intro ending isEnding
    rw [show (draft.add _).kind.finish? = _ from closes] at isEnding
    exact Option.mem_some_iff.mp isEnding ▸ Draft.lastKind_add ..
  · have around := built.sound.kind_up enclosed
    rw [show (draft.add _).kind.parents = _ from anywhere] at around
    exact around
  · refine Draft.settled_closed built.sound enclosed notCondition ?_
    exact Outline.exposed_of_last rfl (read.firm _ (by simp))

end Reading

end SqlLayout
