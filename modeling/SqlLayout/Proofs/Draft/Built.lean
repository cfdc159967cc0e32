import Mathlib.Logic.Relation
import SqlLayout.Proofs.Draft.Shedding

/-!
# Drafts built from tokens

`Built tokens draft` says how a draft comes about while tokens are read: each constructor is one
thing that the grammar may do to the document. Every invariant of reading is an induction over it,
and every rule of the grammar is a sequence of its constructors.
-/

namespace SqlLayout

/-- The text of a token agrees with its class. -/
def Token.Faithful (token : Token) : Prop :=
  match token.kind with
  | .word => token.value ≠ "" ∧ ')' ∉ token.value.toList ∧ ':' ∉ token.value.toList
  | .whiteSpace => token.value ≠ "" ∧ ')' ∉ token.value.toList
  | .colon => token.value = ":"
  | .openParens => token.value = "("
  | .closeParens => token.value = ")"
  | _ => True

def Token.symbolsOf (tokens : List Token) : List Symbol :=
  tokens.flatMap Token.symbols

@[simp]
theorem Token.symbolsOf_nil : Token.symbolsOf [] = [] :=
  rfl

@[simp]
theorem Token.symbolsOf_append (front back : List Token) :
    Token.symbolsOf (front ++ back) = Token.symbolsOf front ++ Token.symbolsOf back :=
  List.flatMap_append

@[simp]
theorem Token.symbolsOf_singleton (token : Token) : Token.symbolsOf [token] = token.symbols := by
  simp [symbolsOf]

def Token.isPlain (token : Token) : Bool :=
  token.kind != .openParens && token.kind != .closeParens

theorem Token.isPlain_of_isTrivia {token : Token} (isTrivia : token.kind.isTrivia = true) :
    token.isPlain = true := by
  revert isTrivia
  rw [isPlain]
  cases token.kind <;> decide

namespace Outline

def Adjacent (outlines : List Outline) : Prop :=
  outlines.IsChain fun first second => second.kind.isTrivia = true → first.exposed = false

/-- No blank or comment follows something that is exposed, at any level, and only leaves have a
text. -/
inductive Neat : Outline → Prop where
  | node {id : NodeId} {kind : NodeKind} {text : String} {attributes : Attributes}
      {children : List Outline} (bare : children = [] ∨ text = "") (adjacent : Adjacent children)
      (below : ∀ child ∈ children, Neat child) : Neat (.node id kind text attributes children)

/-- Closed outlines hold exactly the given tokens, none of them a parenthesis. -/
structure ReadAs (outlines : List Outline) (tokens : List Token) : Prop where
  /-- No construct with parts of its own is among them. -/
  unstaged : ∀ outline ∈ outlines, ∀ node ∈ outline.nodes, node.kind.stages = []
  /-- No container that takes the cursor is among them. -/
  inert : ∀ outline ∈ outlines, ∀ node ∈ outline.nodes, node.kind.parents = []
  regular : ∀ outline ∈ outlines, outline.Regular
  neat : ∀ outline ∈ outlines, outline.Neat
  firm : ∀ outline ∈ outlines, outline.exposed = false
  plain : ∀ token ∈ tokens, token.isPlain = true
  spelled : (∀ token ∈ tokens, token.Faithful) → symbolsOfList outlines = Token.symbolsOf tokens

theorem neat_leaf (id : NodeId) (kind : NodeKind) (text : String) : (leaf id kind text).Neat :=
  .node (.inl rfl) .nil (by simp)

namespace ReadAs

variable {outlines others : List Outline} {last : Outline} {tokens more : List Token}

theorem nil : ReadAs [] [] := ⟨by simp, by simp, by simp, by simp, by simp, by simp, by simp⟩

theorem append (front : ReadAs outlines tokens) (back : ReadAs others more) :
    ReadAs (outlines ++ others) (tokens ++ more) where
  unstaged := List.forall_mem_append.mpr ⟨front.unstaged, back.unstaged⟩
  inert := List.forall_mem_append.mpr ⟨front.inert, back.inert⟩
  regular := List.forall_mem_append.mpr ⟨front.regular, back.regular⟩
  neat := List.forall_mem_append.mpr ⟨front.neat, back.neat⟩
  firm := List.forall_mem_append.mpr ⟨front.firm, back.firm⟩
  plain := List.forall_mem_append.mpr ⟨front.plain, back.plain⟩
  spelled faithful := by
    obtain ⟨first, second⟩ := List.forall_mem_append.mp faithful
    rw [symbolsOfList_append, Token.symbolsOf_append, front.spelled first, back.spelled second]

theorem leaf (id : NodeId) {kind : NodeKind} {text : String} (isLeaf : kind.isLeaf = true)
    (plain : ∀ token ∈ tokens, token.isPlain = true)
    (spelled : (∀ token ∈ tokens, token.Faithful) → kind.symbols text = Token.symbolsOf tokens) :
    ReadAs [.leaf id kind text] tokens where
  unstaged := by
    have single : (Outline.leaf id kind text).nodes = [.leaf id kind text] := nodes_eq _
    simpa [single] using NodeKind.stages_of_isLeaf isLeaf
  inert := by
    have single : (Outline.leaf id kind text).nodes = [.leaf id kind text] := nodes_eq _
    simpa [single] using NodeKind.parents_of_isLeaf isLeaf
  regular := by simpa using regular_leaf id text isLeaf
  neat := by simpa using neat_leaf id kind text
  firm := by simp
  plain := plain
  spelled faithful := by simpa [symbols_leaf id text isLeaf] using spelled faithful

/-- A node around outlines holds the same tokens, if it adds nothing of its own and ends in
content. -/
theorem node (read : ReadAs (outlines ++ [last]) tokens) (id : NodeId) {kind : NodeKind}
    {attributes : Attributes} (unstaged : kind.stages = []) (inert : kind.parents = [])
    (fits : Fits kind attributes (outlines ++ [last]))
    (silent : kind.symbols "" ++ kind.ending = []) (content : last.kind.isTrivia = false) :
    ReadAs [.node id kind "" attributes (outlines ++ [last])] tokens where
  unstaged := by
    rw [List.forall_mem_singleton, nodes_eq]
    refine List.forall_mem_cons.mpr ⟨unstaged, fun node member => ?_⟩
    obtain ⟨child, isChild, inside⟩ := List.mem_flatMap.mp member
    exact read.unstaged child isChild node inside
  inert := by
    rw [List.forall_mem_singleton, nodes_eq]
    refine List.forall_mem_cons.mpr ⟨inert, fun node member => ?_⟩
    obtain ⟨child, isChild, inside⟩ := List.mem_flatMap.mp member
    exact read.inert child isChild node inside
  regular := by simpa using Regular.node (.inr rfl) fits read.regular
  neat := by
    refine List.forall_mem_singleton.mpr (.node (.inr rfl) ?_ read.neat)
    refine (List.pairwise_of_forall_mem_list fun first firstMem second _ _ => ?_).isChain
    exact read.firm first firstMem
  firm := by
    have firm := read.firm last (by simp)
    simpa using exposed_of_last content firm
  plain := read.plain
  spelled faithful := by
    obtain ⟨own, ending⟩ := List.append_eq_nil_iff.mp silent
    rw [symbolsOfList_cons, symbols_node, read.spelled faithful, own, ending]
    simp

end ReadAs

end Outline

namespace Draft

/-- The container in hand and the whole document are marked as needing recovery. -/
def mark (draft : Draft) : Draft :=
  (draft.setAttribute draft.id .hasError "1").setAttribute Tree.root .errorFound "1"

def Flagged (draft : Draft) : Prop :=
  ∃ attributes ∈ (draft.attributes :: draft.outer.map Frame.attributes).getLast?,
    attributes.get? .errorFound = some "1"

/-- The container in hand may be left: it is no group, no body of a definition, and it is
complete. -/
structure Leavable (draft : Draft) : Prop where
  plain : draft.kind.isParens = false
  temporary : draft.kind ≠ .ddlAsBlock
  complete : ∀ ending ∈ draft.kind.finish?, draft.lastKind = some ending

theorem leavable_of_isFree {draft : Draft} (free : draft.kind.isFree = true) : draft.Leavable := by
  simp only [NodeKind.isFree, Bool.and_eq_true, Bool.not_eq_true', bne_iff_ne,
    Option.isNone_iff_eq_none]
    at free
  exact ⟨free.1.1, free.1.2, by simp [free.2]⟩

/-- The container in hand takes a statement: the body of an `IF`, `ELSE` or `WHILE` only if it has
none, and other contents only those of a definition or of a cursor. -/
structure Hosts (draft : Draft) : Prop where
  single : draft.kind = .containerSingleStatementBody →
    ∀ child ∈ draft.children, child.kind ≠ .statement
  owner : draft.kind = .containerContentBody →
    ∃ owner ∈ [NodeKind.ddlAsBlock, .cursorForBlock], [.containerContentBody, owner] <+: draft.path

def Undecided (draft : Draft) : Prop :=
  draft.kind = .ifStatement → ∀ child ∈ draft.children, child.kind ≠ .elseClause

/-- A container that is no group is left or opened. -/
inductive Pass : Draft → Draft → Prop where
  | leave {draft : Draft} (leavable : draft.Leavable) (enclosed : draft.outer ≠ []) :
      Pass draft draft.up
  | enter {draft : Draft} (id : NodeId) {kind : NodeKind} (plain : kind.isParens = false)
      (opens : draft.kind ∈ kind.parents) (accepted : draft.Accepts kind)
      (hosts : kind = .statement → draft.Hosts)
      (undecided : .ifStatement ∈ kind.parents → draft.Undecided) : Pass draft (draft.enter id kind)

abbrev Passes : Draft → Draft → Prop := Relation.ReflTransGen Pass

/-- A batch may end: in a statement of the document, or of the body of a definition. -/
def Rests (draft : Draft) : Prop :=
  draft.path = [.clause, .statement, .root] ∨
    [.clause, .statement, .containerContentBody, .ddlAsBlock] <+: draft.path

end Draft

/-- A draft comes about while tokens are read. -/
inductive Built : List Token → Draft → Prop where
  /-- The first statement of an empty document. -/
  | start (statement clause : NodeId) :
      Built [] (Draft.enter (Draft.enter { id := Tree.root, kind := .root } statement .statement)
        clause .clause)
  | pass {tokens : List Token} {draft other : Draft} (built : Built tokens draft)
      (pass : draft.Pass other) : Built tokens other
  /-- Content is added. -/
  | add {tokens more : List Token} {draft : Draft} {outline : Outline} (built : Built tokens draft)
      (read : Outline.ReadAs [outline] more) (content : outline.kind.isTrivia = false)
      (accepted : draft.Accepts outline.kind) (inside : draft.kind ≠ .statement) :
      Built (tokens ++ more) (draft.add outline)
  /-- A blank or a comment is added. -/
  | trivia {tokens : List Token} {token : Token} {draft : Draft} (built : Built tokens draft)
      (id : NodeId) (isTrivia : token.kind.isTrivia = true) (settled : draft.Settled)
      (accepted : draft.Accepts token.kind.leafKind) :
      Built (tokens ++ [token]) (draft.add (.leaf id token.kind.leafKind token.value))
  /-- A blank or a comment is put before an empty clause. -/
  | slip {tokens : List Token} {token : Token} {draft : Draft} (built : Built tokens draft)
      (id : NodeId) (isTrivia : token.kind.isTrivia = true) (settled : draft.Settled)
      (inside : [.clause, .statement] <+: draft.path) (empty : draft.children = []) :
      Built (tokens ++ [token]) (draft.slip (.leaf id token.kind.leafKind token.value))
  | openGroup {tokens : List Token} {token : Token} {draft : Draft} (built : Built tokens draft)
      (id : NodeId) (isOpening : token.kind = .openParens) {kind : NodeKind}
      (group : kind.isParens = true) (opens : draft.kind ∈ kind.parents)
      (accepted : draft.Accepts kind) : Built (tokens ++ [token]) (draft.enter id kind)
  | closeGroup {tokens : List Token} {token : Token} {draft : Draft} (built : Built tokens draft)
      (isClosing : token.kind = .closeParens) (group : draft.kind.isParens = true) :
      Built (tokens ++ [token]) draft.up
  /-- A closing parenthesis without a group is kept as a character. -/
  | stray {tokens : List Token} {token : Token} {draft : Draft} (built : Built tokens draft)
      (id : NodeId) (isClosing : token.kind = .closeParens) (flagged : draft.Flagged)
      (accepted : draft.Accepts .other) (inside : draft.kind ≠ .statement) :
      Built (tokens ++ [token]) (draft.add (.leaf id .other ")"))
  | mark {tokens : List Token} {draft : Draft} (built : Built tokens draft) :
      Built tokens draft.mark
  /-- A condition gets a body that stays empty. -/
  | follow {tokens : List Token} {draft : Draft} (built : Built tokens draft) (id : NodeId)
      (condition : draft.kind = .booleanExpression) :
      Built tokens (draft.follow (.leaf id .containerSingleStatementBody ""))
  /-- A batch ends: everything is closed. -/
  | separate {tokens : List Token} {token : Token} {draft : Draft} (built : Built tokens draft)
      (id keyword : NodeId) (isWord : token.kind = .word) (rests : draft.Rests) :
      Built (tokens ++ [token]) (draft.top.add
        (.node id .batchSeparator "" {} [.leaf keyword .otherKeyword token.value]))
  /-- The comments at the end of a container go where the cursor goes. -/
  | migrate {tokens : List Token} {draft other : Draft} (built : Built tokens draft)
      (enclosed : draft.outer ≠ []) (passes : draft.shed.Passes other)
      (unstaged : other.kind.stages = []) :
      Built tokens (other.addAll draft.shedding)

/-! ### Soundness -/

namespace Draft

variable {draft other : Draft}

theorem Pass.sound (pass : draft.Pass other) (sound : draft.Sound) : other.Sound := by
  cases pass with
  | leave _ _ => exact sound.up
  | enter id _ opens accepted _ _ => exact sound.enter id opens accepted

theorem Passes.sound (passes : draft.Passes other) (sound : draft.Sound) : other.Sound := by
  induction passes with
  | refl => exact sound
  | tail _ pass ih => exact pass.sound ih

theorem head?_kind {kind : NodeKind} {others : List NodeKind}
    (path : draft.path.tail = kind :: others) :
    ∃ frame outer, draft.outer = frame :: outer ∧ frame.kind = kind := by
  rcases around : draft.outer with _ | ⟨frame, outer⟩
  · simp [Draft.path, around] at path
  · simp only [Draft.path, around, List.map_cons, List.tail_cons, List.cons.injEq] at path
    exact ⟨frame, outer, rfl, path.1⟩

end Draft

theorem TokenKind.isLeaf_leafKind (kind : TokenKind) : kind.leafKind.isLeaf = true := by
  cases kind <;> rfl

theorem TokenKind.isTrivia_leafKind (kind : TokenKind) :
    kind.leafKind.isTrivia = kind.isTrivia := by
  cases kind <;> rfl

theorem TokenKind.isComment_leafKind (kind : TokenKind) :
    kind.leafKind.isComment = kind.isComment := by
  cases kind <;> rfl

/-- What is built from tokens is sound. -/
theorem Built.sound {tokens : List Token} {draft : Draft} (built : Built tokens draft) :
    draft.Sound := by
  induction built with
  | start statement clause =>
    have empty : Draft.Sound { id := Tree.root, kind := .root } :=
      ⟨rfl, .nil, by simp, trivial⟩
    have opened := empty.enter statement (by decide : NodeKind.root ∈ NodeKind.parents .statement)
      (Draft.accepts_of_unstaged rfl _)
    exact opened.enter clause (by decide : NodeKind.statement ∈ NodeKind.parents .clause)
      (Draft.accepts_of_unstaged rfl _)
  | pass _ pass ih => exact pass.sound ih
  | add _ read _ accepted _ ih => exact ih.add (read.regular _ (by simp)) accepted
  | trivia _ id _ _ accepted ih =>
    exact ih.add (Outline.regular_leaf id _ (TokenKind.isLeaf_leafKind _)) accepted
  | @slip _ _ draft _ id _ _ inside _ ih =>
    refine ih.slip (Outline.regular_leaf id _ (TokenKind.isLeaf_leafKind _)) ?_
    obtain ⟨others, path⟩ := inside
    have around : draft.path.tail = .statement :: others := by rw [← path]; rfl
    obtain ⟨frame, outer, around, isStatement⟩ := Draft.head?_kind around
    rw [around]
    simp [isStatement, NodeKind.stages]
  | openGroup _ id _ _ opens accepted ih => exact ih.enter id opens accepted
  | closeGroup _ _ _ ih => exact ih.up
  | stray _ id _ _ accepted _ ih => exact ih.add (Outline.regular_leaf id _ rfl) accepted
  | mark _ ih => exact (ih.setAttribute _ _ _).setAttribute _ _ _
  | follow _ id condition ih =>
    refine ih.follow condition ?_ id
    intro frame isAround
    obtain ⟨outer, around⟩ := List.head?_eq_some_iff.mp isAround
    have nested := ih.nested
    simp only [Draft.path, around, condition, List.map_cons] at nested
    exact (by decide : ∀ kind ∈ NodeKind.parents .booleanExpression, kind.stages = []) _ nested.1
  | separate _ id keyword _ _ ih =>
    refine (ih.ups _).add (.node (.inr rfl) ?_ ?_) ?_
    · exact Outline.fits_of_isContainer rfl _ (.of_unstaged rfl)
    · simpa using Outline.regular_leaf keyword _ rfl
    · exact Draft.accepts_of_unstaged (by rw [← Draft.top, Draft.kind_top ih]; rfl) _
  | migrate _ _ passes unstaged ih =>
    exact (passes.sound ih.shed).addAll (Outline.regular_of_mem_shedList ih.regular).2 unstaged

end SqlLayout
